import SealedPost.Proofs.Absorption
import SealedPost.Proofs.Service

/-! Clients that share a relay and take turns, and all that a turn can come to. -/
namespace SealedPost

structure Network (ι c : Type) where
  relay : Relay
  sessions : ι → Session
  sources : ι → c

/-- One operation of one client, from its first call to its last, with the network around it. -/
structure Turn (ι c : Type) where
  before : Network ι c
  client : ι
  operation : Operation
  result : Except Failure Reply
  after : Network ι c

/-- What an operation posts for a peer besides keys: a request for a key, or content under the key held for the peer. -/
inductive Posts (ciphers : Ciphers) (keys : KeyRing) : Operation → ClientId → MessageKind → Bytes → Prop
  | request {peer : ClientId} : Posts ciphers keys (.requestKey peer) peer .keyRequest []
  | text {peer : ClientId} {text : String} {key : SymmetricKey} (held : keys.lookup peer = some key) :
      Posts ciphers keys (.sendText peer text) peer .text (ciphers.encrypt key (Utf8.encode text))
  | file {peer : ClientId} {contents : Bytes} {key : SymmetricKey} (held : keys.lookup peer = some key) :
      Posts ciphers keys (.sendFile peer contents) peer .file (ciphers.encrypt key contents)

theorem Posts.kind_ne_keySend {ciphers : Ciphers} {keys : KeyRing} {op : Operation} {peer : ClientId}
    {kind : MessageKind} {content : Bytes} (h : Posts ciphers keys op peer kind content) : kind ≠ .keySend := by
  cases h <;> exact nofun

def Operation.asks : Operation → Bool
  | .clientList | .findPeer _ | .fetchPublicKey _ => true
  | _ => false

def Operation.asksDirectory : Operation → Bool
  | .clientList | .findPeer _ | .fetchWaiting => true
  | _ => false

namespace Network

variable {ι c : Type} (suite : CipherSuite (StateM c))

def start (ids : Nat → ClientId) (sources : ι → c) : Network ι c where
  relay := { idFor := ids }
  sessions _ := {}
  sources

/-- The answers that an operation asks for are short enough for the size field of a response. -/
def Fits (net : Network ι c) (client : ι) (op : Operation) : Prop :=
  ∀ me ∈ (net.sessions client).identity,
    (op.asksDirectory = true → (net.relay.listClients me.id).payload.length < 2 ^ 32) ∧
      (op = .fetchWaiting → (net.relay.handOut me.id).1.payload.length < 2 ^ 32)

instance (net : Network ι c) (client : ι) (op : Operation) : Decidable (net.Fits client op) :=
  inferInstanceAs (Decidable (∀ me ∈ (net.sessions client).identity, _))

/-- One network comes after another: whom the relay knows and what waits there is given, and so is what one client is
and keeps. The relay is as honest as before, and the other clients are untouched. -/
structure Becomes (net : Network ι c) (client : ι) (clients : List RelayClient)
    (waiting : List (ClientId × QueuedMessage)) (identity : Option Identity) (keys : KeyRing)
    (after : Network ι c) : Prop where
  clients : after.relay.clients = clients
  waiting : after.relay.waiting = waiting
  honest : after.relay.answersRegistrationShort = net.relay.answersRegistrationShort
  identity : (after.sessions client).identity = identity
  keys : (after.sessions client).keys = keys
  others : ∀ i, i ≠ client → after.sessions i = net.sessions i

inductive Happens (net : Network ι c) (client : ι) : Operation → Except Failure Reply → Network ι c → Prop
  | nothing {op : Operation} {result : Except Failure Reply} {after : Network ι c}
      (quiet : op.asks = true ∨ ∃ e, result = .error e)
      (becomes : net.Becomes client net.relay.clients net.relay.waiting (net.sessions client).identity
        (net.sessions client).keys after) : Happens net client op result after
  | registered {username name : String} {id : ClientId} {pair : KeyPair} {source : c} {after : Network ι c}
      (unregistered : (net.sessions client).identity = none)
      (generated : (suite.freshKeyPair.run source).1 = .ok pair)
      (becomes : net.Becomes client (net.relay.clients ++ [⟨id, name, pair.publicKey⟩]) net.relay.waiting
        (some ⟨username, id, pair.privateKey, pair.publicKey⟩) (net.sessions client).keys after) :
      Happens net client (.register username) (.ok (.registered id)) after
  | posted {op : Operation} {me : Identity} {peer : ClientId} {kind : MessageKind} {content : Bytes} {receipt : Receipt}
      {after : Network ι c} (registered : (net.sessions client).identity = some me)
      (posts : Posts suite.toCiphers (net.sessions client).keys op peer kind content)
      (short : content.length + 21 < 2 ^ 32)
      (becomes : net.Becomes client net.relay.clients
        (net.relay.waiting ++ [(peer, net.relay.filed me.id kind content)]) (some me)
        (net.sessions client).keys after) : Happens net client op (.ok (.receipt receipt)) after
  | shared {me : Identity} {owner : RelayClient} {key : SymmetricKey} {wrapped : Bytes} {source : c} {receipt : Receipt}
      {after : Network ι c} (registered : (net.sessions client).identity = some me)
      (known : owner ∈ net.relay.clients)
      (made : ((suite.wrap owner.publicKey key.toBytes).run source).1 = .ok wrapped)
      (short : wrapped.length + 21 < 2 ^ 32)
      (becomes : net.Becomes client net.relay.clients
        (net.relay.waiting ++ [(owner.id, net.relay.filed me.id .keySend wrapped)]) (some me)
        ((net.sessions client).keys.establish owner.id key) after) :
      Happens net client (.sendKey owner.id) (.ok (.receipt receipt)) after
  | collected {me : Identity} {informed : Session} {after : Network ι c}
      (registered : (net.sessions client).identity = some me) (same : informed.identity = some me)
      (held : informed.keys = (net.sessions client).keys)
      (becomes : net.Becomes client net.relay.clients (net.relay.waiting.filter (·.1 ≠ me.id)) (some me)
        (informed.absorbAll suite.toCiphers (net.relay.queue me.id)).2.keys after) :
      Happens net client .fetchWaiting
        (.ok (.messages (informed.absorbAll suite.toCiphers (net.relay.queue me.id)).1)) after

/-- The messages that wait are as a relay files them, and it keeps its word to those that register. -/
structure InOrder (net : Network ι c) : Prop where
  honest : net.relay.answersRegistrationShort = false
  filed : ∀ entry ∈ net.relay.waiting,
    entry.2.content.length + 21 < 2 ^ 32 ∧ MessageKind.ofByte entry.2.kind.byte = entry.2.kind

/-- A turn leaves the waiting messages as a relay files them. -/
theorem InOrder.preserved {net after : Network ι c} {client : ι} {op : Operation} {result : Except Failure Reply}
    (inOrder : net.InOrder) (h : Happens suite net client op result after) : after.InOrder := by
  have happended {entry new : ClientId × QueuedMessage}
      (hnew : new.2.content.length + 21 < 2 ^ 32 ∧ MessageKind.ofByte new.2.kind.byte = new.2.kind)
      (hentry : entry ∈ net.relay.waiting ++ [new]) :
      entry.2.content.length + 21 < 2 ^ 32 ∧ MessageKind.ofByte entry.2.kind.byte = entry.2.kind := by
    rcases List.mem_append.1 hentry with hold | heq
    · exact inOrder.filed entry hold
    · exact List.mem_singleton.1 heq ▸ hnew
  cases h with
  | nothing quiet becomes =>
    exact ⟨becomes.honest.trans inOrder.honest, fun entry hentry => inOrder.filed entry (becomes.waiting ▸ hentry)⟩
  | registered unregistered generated becomes =>
    exact ⟨becomes.honest.trans inOrder.honest, fun entry hentry => inOrder.filed entry (becomes.waiting ▸ hentry)⟩
  | posted registered posts short becomes =>
    refine ⟨becomes.honest.trans inOrder.honest, fun entry hentry => happended ?_ (becomes.waiting ▸ hentry)⟩
    exact ⟨short, congrArg MessageKind.ofByte (MessageKind.byte_ofByte _)⟩
  | shared registered known made short becomes =>
    refine ⟨becomes.honest.trans inOrder.honest, fun entry hentry => happended ?_ (becomes.waiting ▸ hentry)⟩
    exact ⟨short, rfl⟩
  | collected registered same held becomes =>
    refine ⟨becomes.honest.trans inOrder.honest, fun entry hentry => ?_⟩
    rw [becomes.waiting] at hentry
    exact inOrder.filed entry (List.mem_filter.1 hentry).1

section turn

variable [DecidableEq ι]

def turn (net : Network ι c) (client : ι) (op : Operation) : Turn ι c :=
  let ending := (op.perform (atRelay suite)).exec (net.sessions client) ⟨net.relay, []⟩ (net.sources client)
  { before := net
    client
    operation := op
    result := ending.result
    after := {
      relay := ending.outer.relay
      sessions := fun i => if i = client then ending.session else net.sessions i
      sources := fun i => if i = client then ending.inner else net.sources i } }

/-- The turns that lead from one network to another, in any order and as many as it may be. -/
inductive Reaches (first : Network ι c) : List (Turn ι c) → Network ι c → Prop
  | start : Reaches first [] first
  | turn {history : List (Turn ι c)} {net : Network ι c} (earlier : Reaches first history net) (client : ι)
      (op : Operation) (fits : net.Fits client op) :
      Reaches first (history ++ [net.turn suite client op]) (net.turn suite client op).after

variable {suite} {net : Network ι c} {client : ι} {op : Operation} {result : Except Failure Reply}
  {clients : List RelayClient} {waiting : List (ClientId × QueuedMessage)} {s : Session} {relay : Relay} {y : c}

private theorem becomes_of_exec
    (h : (op.perform (atRelay suite)).exec (net.sessions client) ⟨net.relay, []⟩ (net.sources client) =
      ⟨result, s, ⟨relay, []⟩, y⟩)
    (hclients : relay.clients = clients) (hwaiting : relay.waiting = waiting)
    (hhonest : relay.answersRegistrationShort = net.relay.answersRegistrationShort) :
    (net.turn suite client op).result = result ∧
      net.Becomes client clients waiting s.identity s.keys (net.turn suite client op).after := by
  unfold turn
  rw [h]
  exact ⟨rfl, hclients, hwaiting, hhonest, congrArg Session.identity (if_pos rfl),
    congrArg Session.keys (if_pos rfl), fun i hi => if_neg hi⟩

open SealedPost.Action Session

private theorem exec_unregistered (suite : CipherSuite (StateM c)) (s : Session) (x : RelayLine) (y : c)
    (unregistered : s.identity = none)
    (hop : ∀ username, op ≠ .register username) :
    (op.perform (atRelay suite)).exec s x y = ⟨.error .notRegistered, s, x, y⟩ := by
  cases op with
  | register username => exact absurd rfl (hop username)
  | clientList =>
    rw [Operation.perform, exec_map, clientList, exec_refused _ _ unregistered]
    rfl
  | findPeer name =>
    rw [Operation.perform, exec_map, findPeer, exec_bind, clientList, exec_refused _ _ unregistered]
    rfl
  | fetchPublicKey peer =>
    rw [Operation.perform, exec_map, fetchPublicKey, exec_refused _ _ unregistered]
    rfl
  | requestKey peer =>
    rw [Operation.perform, exec_map, requestKey, exec_refused _ _ unregistered]
    rfl
  | sendKey peer =>
    rw [Operation.perform, exec_map, sendKey, exec_refused _ _ unregistered]
    rfl
  | sendText peer text =>
    rw [Operation.perform, exec_map, sendText, sendContent, exec_refused _ _ unregistered]
    rfl
  | sendFile peer contents =>
    rw [Operation.perform, exec_map, sendFile, sendContent, exec_refused _ _ unregistered]
    rfl
  | fetchWaiting =>
    rw [Operation.perform, exec_map, fetchWaiting, exec_refused _ _ unregistered]
    rfl

private theorem exec_clientList {me : Identity} (registered : s.identity = some me)
    (fits : (relay.listClients me.id).payload.length < 2 ^ 32) :
    (clientList (atRelay suite)).exec s ⟨relay, []⟩ y =
      ⟨.ok (.ofPayload (relay.listClients me.id).payload),
        { s with directory := .ofPayload (relay.listClients me.id).payload }, ⟨relay.counted, []⟩, y⟩ := by
  rw [clientList, exec_admitted _ _ registered, exec_bind,
    exec_withConnection suite s relay y (exec_refreshDirectory suite s relay y me.id fits) rfl]
  rfl

private theorem happens_nothing
    (h : (op.perform (atRelay suite)).exec (net.sessions client) ⟨net.relay, []⟩ (net.sources client) =
      ⟨result, s, ⟨relay, []⟩, y⟩)
    (quiet : op.asks = true ∨ ∃ e, result = .error e)
    (hclients : relay.clients = net.relay.clients) (hwaiting : relay.waiting = net.relay.waiting)
    (hhonest : relay.answersRegistrationShort = net.relay.answersRegistrationShort)
    (hidentity : s.identity = (net.sessions client).identity) (hkeys : s.keys = (net.sessions client).keys) :
    Happens suite net client op (net.turn suite client op).result (net.turn suite client op).after := by
  obtain ⟨hresult, hbecomes⟩ := becomes_of_exec h hclients hwaiting hhonest
  rw [hidentity, hkeys] at hbecomes
  rw [hresult]
  exact .nothing quiet hbecomes

variable {me : Identity}

/-- An operation that delivers a message either fails and leaves nothing, or the message is filed. -/
private theorem happens_deliver {peer : ClientId} {kind : MessageKind} {content : Bytes}
    (registered : (net.sessions client).identity = some me)
    (posts : Posts suite.toCiphers (net.sessions client).keys op peer kind content)
    (h : (op.perform (atRelay suite)).exec (net.sessions client) ⟨net.relay, []⟩ (net.sources client) =
      (Reply.receipt <$> withConnection (atRelay suite) (deliver (atRelay suite) me.id peer kind content)).exec
        (net.sessions client) ⟨net.relay, []⟩ (net.sources client)) :
    Happens suite net client op (net.turn suite client op).result (net.turn suite client op).after := by
  rw [exec_map] at h
  rcases exec_deliver suite (net.sessions client) net.relay (net.sources client) me.id peer kind content with
    ⟨e, hdeliver⟩ | ⟨receipt, relay, short, hdeliver, hclients, hwaiting, hhonest⟩
  · rw [exec_withConnection suite _ _ _ hdeliver rfl] at h
    exact happens_nothing h (.inr ⟨e, rfl⟩) rfl rfl rfl rfl rfl
  · rw [exec_withConnection suite _ _ _ hdeliver rfl] at h
    obtain ⟨hresult, hbecomes⟩ := becomes_of_exec h hclients hwaiting hhonest
    rw [registered] at hbecomes
    rw [hresult]
    exact .posted registered posts short hbecomes

private theorem happens_sendContent {peer : ClientId} {kind : MessageKind} {plaintext : Bytes}
    (registered : (net.sessions client).identity = some me)
    (posts : ∀ key, (net.sessions client).keys.lookup peer = some key →
      Posts suite.toCiphers (net.sessions client).keys op peer kind (suite.encrypt key plaintext))
    (h : op.perform (atRelay suite) = Reply.receipt <$> sendContent (atRelay suite) peer kind plaintext) :
    Happens suite net client op (net.turn suite client op).result (net.turn suite client op).after := by
  cases held : (net.sessions client).keys.lookup peer with
  | none =>
    have hexec : (op.perform (atRelay suite)).exec (net.sessions client) ⟨net.relay, []⟩ (net.sources client) =
        ⟨.error (.channelNotEstablished peer), net.sessions client, ⟨net.relay, []⟩, net.sources client⟩ := by
      rw [h, exec_map, sendContent, exec_admitted _ _ registered, exec_bind, exec_get]
      simp only [held]
      rfl
    exact happens_nothing hexec (.inr ⟨_, rfl⟩) rfl rfl rfl rfl rfl
  | some key =>
    refine happens_deliver registered (posts key held) ?_
    rw [h, exec_map, exec_map, sendContent, exec_admitted _ _ registered, exec_bind, exec_get]
    simp only [held]
    rfl

private theorem exec_draw_lift {α : Type} (x : StateM c (Except Failure α)) (s : Session) (line : RelayLine) (y : c) :
    (draw (monadLift x : StateT RelayLine (StateM c) (Except Failure α))).exec s line y =
      ⟨(x.run y).1, s, line, (x.run y).2⟩ := by
  rw [exec_draw]
  rfl

/-- A key that is sent is wrapped for a client that the relay knows, or nothing is filed. -/
private theorem exec_keySending (suite : CipherSuite (StateM c)) (s : Session) (relay : Relay) (y : c)
    (id peer : ClientId) :
    ∃ result relay' y',
      (do
        let answer ← lookupKey (atRelay suite) id peer
        let key ← draw (atRelay suite).suite.freshSymmetricKey
        let wrapped ← draw ((atRelay suite).suite.wrap answer.publicKey key.toBytes)
        let receipt ← deliver (atRelay suite) id peer .keySend wrapped
        return (key, receipt)).exec s ⟨relay, []⟩ y = ⟨result, s, ⟨relay', []⟩, y'⟩ ∧
      relay'.clients = relay.clients ∧ relay'.answersRegistrationShort = relay.answersRegistrationShort ∧
      ((∃ e, result = .error e) ∧ relay'.waiting = relay.waiting ∨
        ∃ owner key wrapped source receipt, result = .ok (key, receipt) ∧ owner ∈ relay.clients ∧ owner.id = peer ∧
          ((suite.wrap owner.publicKey key.toBytes).run source).1 = .ok wrapped ∧ wrapped.length + 21 < 2 ^ 32 ∧
          relay'.waiting = relay.waiting ++ [(peer, relay.filed id .keySend wrapped)]) := by
  rw [exec_bind, exec_lookupKey]
  cases hfind : relay.clients.find? (·.id = peer) with
  | none => exact ⟨_, _, _, rfl, rfl, rfl, .inl ⟨⟨_, rfl⟩, rfl⟩⟩
  | some owner =>
    have hknown : owner ∈ relay.clients := List.mem_of_find?_eq_some hfind
    have hid : owner.id = peer := by simpa using List.find?_some hfind
    dsimp only
    rw [show (atRelay suite).suite.freshSymmetricKey = monadLift suite.freshSymmetricKey from rfl, exec_bind,
      exec_draw_lift]
    rcases (suite.freshSymmetricKey.run y) with ⟨_ | key, source⟩
    · exact ⟨_, _, _, rfl, rfl, rfl, .inl ⟨⟨_, rfl⟩, rfl⟩⟩
    dsimp only
    rw [show (atRelay suite).suite.wrap owner.publicKey key.toBytes =
        monadLift (suite.wrap owner.publicKey key.toBytes) from rfl, exec_bind, exec_draw_lift]
    rcases hwrap : (suite.wrap owner.publicKey key.toBytes).run source with ⟨_ | wrapped, after⟩
    · exact ⟨_, _, _, rfl, rfl, rfl, .inl ⟨⟨_, rfl⟩, rfl⟩⟩
    dsimp only
    rw [exec_bind]
    rcases exec_deliver suite s relay.counted after id peer .keySend wrapped with
      ⟨e, hdeliver⟩ | ⟨receipt, relay', short, hdeliver, hclients, hwaiting, hhonest⟩
    · rw [hdeliver]
      exact ⟨_, _, _, rfl, rfl, rfl, .inl ⟨⟨_, rfl⟩, rfl⟩⟩
    · rw [hdeliver]
      exact ⟨_, _, _, rfl, hclients, hhonest,
        .inr ⟨owner, key, wrapped, source, receipt, rfl, hknown, hid, congrArg Prod.fst hwrap, short, hwaiting⟩⟩

private theorem happens_sendKey (peer : ClientId) (registered : (net.sessions client).identity = some me) :
    Happens suite net client (.sendKey peer) (net.turn suite client (.sendKey peer)).result
      (net.turn suite client (.sendKey peer)).after := by
  obtain ⟨result, relay, y, hinside, hclients, hhonest, hcase⟩ :=
    exec_keySending suite (net.sessions client) net.relay (net.sources client) me.id peer
  rcases hcase with ⟨⟨e, rfl⟩, hwaiting⟩ |
    ⟨owner, key, wrapped, source, receipt, rfl, known, rfl, made, short, hwaiting⟩
  · have hexec : ((Operation.sendKey peer).perform (atRelay suite)).exec (net.sessions client) ⟨net.relay, []⟩
        (net.sources client) = ⟨.error e, net.sessions client, ⟨relay, []⟩, y⟩ := by
      rw [Operation.perform, exec_map, sendKey, exec_admitted _ _ registered, exec_bind,
        exec_withConnection suite _ _ _ hinside rfl]
      rfl
    exact happens_nothing hexec (.inr ⟨e, rfl⟩) hclients hwaiting hhonest rfl rfl
  · have hexec : ((Operation.sendKey owner.id).perform (atRelay suite)).exec (net.sessions client) ⟨net.relay, []⟩
        (net.sources client) = ⟨.ok (.receipt receipt), { net.sessions client with
          keys := (net.sessions client).keys.establish owner.id key }, ⟨relay, []⟩, y⟩ := by
      rw [Operation.perform, exec_map, sendKey, exec_admitted _ _ registered, exec_bind,
        exec_withConnection suite _ _ _ hinside rfl]
      rfl
    obtain ⟨hresult, hbecomes⟩ := becomes_of_exec hexec hclients hwaiting hhonest
    rw [registered] at hbecomes
    rw [hresult]
    exact .shared registered known made short hbecomes

private theorem happens_fetchWaiting (registered : (net.sessions client).identity = some me)
    (inOrder : net.InOrder) (fits : net.Fits client .fetchWaiting) :
    (∃ received, (net.turn suite client .fetchWaiting).result = .ok (.messages received)) ∧
      Happens suite net client .fetchWaiting (net.turn suite client .fetchWaiting).result
        (net.turn suite client .fetchWaiting).after := by
  obtain ⟨hlist, hqueue⟩ := fits me registered
  have filed : ∀ m ∈ net.relay.counted.queue me.id, m.content.length < 2 ^ 32 ∧ .ofByte m.kind.byte = m.kind := by
    intro m hm
    obtain ⟨entry, hentry, rfl⟩ := List.mem_map.1 hm
    obtain ⟨hshort, hkind⟩ := inOrder.filed entry (List.mem_filter.1 hentry).1
    exact ⟨by omega, hkind⟩
  let informed : Session :=
    { net.sessions client with directory := .ofPayload (net.relay.listClients me.id).payload }
  have hrefresh := exec_refreshDirectory suite (net.sessions client) net.relay (net.sources client) me.id (hlist rfl)
  obtain ⟨payload, relay, hcollect, hparse, hclients, hwaiting, hhonest⟩ :=
    exec_collect suite informed net.relay.counted (net.sources client) me.id filed (hqueue rfl)
  have hinside : (do
      refreshDirectory (atRelay suite) me.id
      roundTrip (atRelay suite) (.waitingMessages me.id) .waitingMessages).exec (net.sessions client)
        ⟨net.relay, []⟩ (net.sources client) = ⟨.ok payload, informed, ⟨relay, []⟩, net.sources client⟩ := by
    rw [exec_bind, hrefresh]
    exact hcollect
  have hexec : (Operation.fetchWaiting.perform (atRelay suite)).exec (net.sessions client) ⟨net.relay, []⟩
      (net.sources client) =
        ⟨.ok (.messages (informed.absorbAll suite.toCiphers (parseQueue payload)).1),
          (informed.absorbAll suite.toCiphers (parseQueue payload)).2, ⟨relay, []⟩, net.sources client⟩ := by
    rw [Operation.perform, exec_map, fetchWaiting, exec_admitted _ _ registered, exec_bind,
      exec_withConnection suite _ _ _ hinside rfl]
    rfl
  rw [hparse] at hexec
  obtain ⟨hresult, hbecomes⟩ := becomes_of_exec hexec hclients hwaiting hhonest
  have hidentity : ((informed.absorbAll suite.toCiphers (net.relay.queue me.id)).2).identity = some me := by
    rw [absorbAll_session]
    exact registered
  rw [show net.relay.counted.queue me.id = net.relay.queue me.id from rfl, hidentity] at hbecomes
  rw [hresult]
  exact ⟨⟨_, rfl⟩, .collected registered registered rfl hbecomes⟩

private theorem happens_register (username : String) (inOrder : net.InOrder) :
    Happens suite net client (.register username) (net.turn suite client (.register username)).result
      (net.turn suite client (.register username)).after := by
  cases known : (net.sessions client).identity with
  | some me =>
    have hexec : ((Operation.register username).perform (atRelay suite)).exec (net.sessions client) ⟨net.relay, []⟩
        (net.sources client) =
          ⟨.error (.alreadyRegistered me.username), net.sessions client, ⟨net.relay, []⟩, net.sources client⟩ := by
      rw [Operation.perform, exec_map, register, exec_bind, exec_get]
      simp only [known]
      rfl
    exact happens_nothing hexec (.inr ⟨_, rfl⟩) rfl rfl rfl rfl rfl
  | none =>
    have hdraw := exec_draw_lift suite.freshKeyPair (net.sessions client) ⟨net.relay, []⟩ (net.sources client)
    rcases hpair : suite.freshKeyPair.run (net.sources client) with ⟨e | pair, source⟩
    · have hexec : ((Operation.register username).perform (atRelay suite)).exec (net.sessions client) ⟨net.relay, []⟩
          (net.sources client) = ⟨.error e, net.sessions client, ⟨net.relay, []⟩, source⟩ := by
        rw [Operation.perform, exec_map, register, exec_bind, exec_get]
        simp only [known]
        rw [exec_bind, show (atRelay suite).suite.freshKeyPair = monadLift suite.freshKeyPair from rfl, hdraw, hpair]
        rfl
      exact happens_nothing hexec (.inr ⟨_, rfl⟩) rfl rfl rfl rfl rfl
    rcases exec_registration suite (net.sessions client) net.relay source username pair.publicKey inOrder.honest with
      ⟨e, htrip⟩ | ⟨id, name, relay, htrip, hclients, hwaiting, hhonest⟩
    · have hexec : ((Operation.register username).perform (atRelay suite)).exec (net.sessions client) ⟨net.relay, []⟩
          (net.sources client) = ⟨.error e, net.sessions client, ⟨net.relay.counted, []⟩, source⟩ := by
        rw [Operation.perform, exec_map, register, exec_bind, exec_get]
        simp only [known]
        rw [exec_bind, show (atRelay suite).suite.freshKeyPair = monadLift suite.freshKeyPair from rfl, hdraw, hpair]
        dsimp only
        rw [exec_bind, exec_withConnection suite _ _ _ htrip rfl]
        rfl
      exact happens_nothing hexec (.inr ⟨_, rfl⟩) rfl rfl rfl rfl rfl
    · have hfirst : ClientId.first? id.toBytes = some id := by
        have hblock := Block.first?_append id.toBlock []
        rw [List.append_nil] at hblock
        rw [ClientId.first?, hblock]
        rfl
      have hexec : ((Operation.register username).perform (atRelay suite)).exec (net.sessions client) ⟨net.relay, []⟩
          (net.sources client) = ⟨.ok (.registered id), { net.sessions client with
            identity := some ⟨username, id, pair.privateKey, pair.publicKey⟩ }, ⟨relay, []⟩, source⟩ := by
        rw [Operation.perform, exec_map, register, exec_bind, exec_get]
        simp only [known]
        rw [exec_bind, show (atRelay suite).suite.freshKeyPair = monadLift suite.freshKeyPair from rfl, hdraw, hpair]
        dsimp only
        rw [exec_bind, exec_withConnection suite _ _ _ htrip rfl]
        dsimp only
        rw [hfirst]
        rfl
      obtain ⟨hresult, hbecomes⟩ := becomes_of_exec hexec hclients hwaiting hhonest
      rw [hresult]
      exact .registered known (congrArg Prod.fst hpair) hbecomes

/-- Every turn comes to one of these. -/
theorem turn_happens (inOrder : net.InOrder)
    (fits : net.Fits client op) :
    Happens suite net client op (net.turn suite client op).result (net.turn suite client op).after := by
  by_cases hregister : ∃ username, op = .register username
  · obtain ⟨username, rfl⟩ := hregister
    exact happens_register username inOrder
  cases registered : (net.sessions client).identity with
  | none =>
    have hexec := exec_unregistered suite (net.sessions client) ⟨net.relay, []⟩ (net.sources client)
      registered fun username hop => hregister ⟨username, hop⟩
    exact happens_nothing hexec (.inr ⟨_, rfl⟩) rfl rfl rfl rfl rfl
  | some me =>
    cases op with
    | register username => exact absurd ⟨username, rfl⟩ hregister
    | clientList =>
      have hfits := (fits me registered).1 rfl
      have hexec := exec_map (net.sessions client) ⟨net.relay, []⟩ (net.sources client) Reply.directory
        (clientList (atRelay suite))
      rw [exec_clientList registered hfits] at hexec
      exact happens_nothing hexec (.inl rfl) rfl rfl rfl rfl rfl
    | findPeer name =>
      have hfits := (fits me registered).1 rfl
      obtain ⟨result, hexec⟩ : ∃ result, ((Operation.findPeer name).perform (atRelay suite)).exec (net.sessions client)
          ⟨net.relay, []⟩ (net.sources client) = ⟨result, { net.sessions client with
            directory := .ofPayload (net.relay.listClients me.id).payload }, ⟨net.relay.counted, []⟩,
            net.sources client⟩ := by
        rw [Operation.perform, exec_map, findPeer, exec_bind, exec_clientList registered hfits]
        cases hfind : (Directory.ofPayload (net.relay.listClients me.id).payload).find? name with
        | none => exact ⟨.error (.peerNotFound name), by simp only [hfind]; rfl⟩
        | some peer => exact ⟨.ok (.peer peer), by simp only [hfind]; rfl⟩
      exact happens_nothing hexec (.inl rfl) rfl rfl rfl rfl rfl
    | fetchPublicKey peer =>
      have hexec := exec_map (net.sessions client) ⟨net.relay, []⟩ (net.sources client) Reply.key
        (fetchPublicKey (atRelay suite) peer)
      rw [fetchPublicKey, exec_admitted _ _ registered,
        exec_withConnection suite _ _ _ (exec_lookupKey suite _ _ _ _ _) rfl] at hexec
      exact happens_nothing hexec (.inl rfl) rfl rfl rfl rfl rfl
    | requestKey peer =>
      refine happens_deliver registered .request ?_
      rw [Operation.perform, exec_map, exec_map, requestKey, exec_admitted _ _ registered]
    | sendKey peer => exact happens_sendKey peer registered
    | sendText peer text => exact happens_sendContent registered (fun key held => .text held) rfl
    | sendFile peer contents => exact happens_sendContent registered (fun key held => .file held) rfl
    | fetchWaiting => exact (happens_fetchWaiting registered inOrder fits).2

/-- A registered client that fetches is handed its messages. -/
theorem turn_collects (registered : (net.sessions client).identity = some me) (inOrder : net.InOrder)
    (fits : net.Fits client .fetchWaiting) :
    ∃ received, (net.turn suite client .fetchWaiting).result = .ok (.messages received) :=
  (happens_fetchWaiting registered inOrder fits).1

def play (suite : CipherSuite (StateM c)) (net : Network ι c) : List (ι × Operation) → List (Turn ι c) × Network ι c
  | [] => ([], net)
  | (client, op) :: rest =>
    let (later, last) := play suite (net.turn suite client op).after rest
    (net.turn suite client op :: later, last)

theorem Reaches.play {first : Network ι c} {history : List (Turn ι c)} (h : Reaches suite first history net)
    (rest : List (ι × Operation))
    (fits : ∀ turn ∈ (net.play suite rest).1, turn.before.Fits turn.client turn.operation) :
    Reaches suite first (history ++ (net.play suite rest).1) (net.play suite rest).2 := by
  induction rest generalizing history net with
  | nil =>
    rw [Network.play, List.append_nil]
    exact h
  | cons next rest ih =>
    have hnext := Reaches.turn h next.1 next.2 (fits _ List.mem_cons_self)
    have hrest := ih hnext fun turn hturn => fits turn (List.mem_cons_of_mem _ hturn)
    rw [List.append_assoc] at hrest
    exact hrest

theorem Reaches.inOrder {ids : Nat → ClientId} {sources : ι → c} {history : List (Turn ι c)}
    (h : Reaches suite (Network.start ids sources) history net) : net.InOrder := by
  induction h with
  | start => exact ⟨rfl, nofun⟩
  | turn earlier client op fits ih => exact ih.preserved suite (turn_happens ih fits)

end turn

end Network

end SealedPost
