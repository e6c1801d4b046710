import SealedPost.Proofs.Consistency

/-! What passes between two clients, each way: the messages that wait, the keys held, and what replaying the messages
over the keys comes to. -/
namespace SealedPost

/-- The way from one client to another, with the ids under which the relay knows them once they are registered. -/
structure Lane (ι : Type) where
  sender : ι
  receiver : ι
  senderId : ClientId
  receiverId : ClientId

def Lane.reverse {ι : Type} (lane : Lane ι) : Lane ι :=
  ⟨lane.receiver, lane.sender, lane.receiverId, lane.senderId⟩

structure View where
  owner : Option Identity
  held : Option SymmetricKey
  queued : List QueuedMessage

def View.replayed (ciphers : Ciphers) (view : View) : List Outcome × Option SymmetricKey :=
  Session.follow ciphers view.owner view.held view.queued

def View.push (view : View) (m : QueuedMessage) : View :=
  { view with queued := view.queued ++ [m] }

def View.emptied (ciphers : Ciphers) (view : View) : View :=
  { view with held := (view.replayed ciphers).2, queued := [] }

/-- A further message is replayed after those that wait, under the key that they leave. -/
theorem View.replayed_push (ciphers : Ciphers) (view : View) (m : QueuedMessage) :
    (view.push m).replayed ciphers =
      ((view.replayed ciphers).1 ++ (Session.follow ciphers view.owner (view.replayed ciphers).2 [m]).1,
        (Session.follow ciphers view.owner (view.replayed ciphers).2 [m]).2) :=
  Session.follow_append ciphers view.owner view.held view.queued [m]

theorem View.replayed_emptied (ciphers : Ciphers) (view : View) :
    (view.emptied ciphers).replayed ciphers = ([], (view.replayed ciphers).2) := rfl

namespace Session

variable (ciphers : Ciphers)

/-- Messages that bring no key leave the key that is held. -/
theorem follow_keyless (owner : Option Identity) (held : Option SymmetricKey) (ms : List QueuedMessage)
    (h : ∀ m ∈ ms, m.kind ≠ .keySend) : (follow ciphers owner held ms).2 = held := by
  induction ms generalizing held with
  | nil => rfl
  | cons m ms ih =>
    rw [follow_cons, QueuedMessage.keyFor_eq_none ciphers owner (h m List.mem_cons_self)]
    exact ih held fun m hm => h m (List.mem_cons_of_mem _ hm)

theorem follow_requests (owner : Option Identity) (held : Option SymmetricKey) (ms : List QueuedMessage)
    (h : ∀ m ∈ ms, m.kind = .keyRequest) : follow ciphers owner held ms = ([], held) := by
  induction ms generalizing held with
  | nil => rfl
  | cons m ms ih =>
    have hkind := h m List.mem_cons_self
    rw [follow_cons, QueuedMessage.keyFor_eq_none ciphers owner (by rw [hkind]; exact nofun), hkind]
    exact ih held fun m hm => h m (List.mem_cons_of_mem _ hm)

end Session

namespace Network

variable {ι c : Type} {suite : CipherSuite (StateM c)}

def queued (net : Network ι c) (lane : Lane ι) : List QueuedMessage :=
  (net.relay.queue lane.receiverId).filter (·.sender = lane.senderId)

def held (net : Network ι c) (lane : Lane ι) : Option SymmetricKey :=
  (net.sessions lane.receiver).keys.lookup lane.senderId

/-- All of a lane: who the receiver is, the key it holds for the sender, and the messages that wait. -/
def view (net : Network ι c) (lane : Lane ι) : View :=
  ⟨(net.sessions lane.receiver).identity, net.held lane, net.queued lane⟩

/-- The id is this client's alone, now or as soon as it registers. -/
def Reserved (net : Network ι c) (i : ι) (id : ClientId) : Prop :=
  ∀ j me, (net.sessions j).identity = some me → (me.id = id ↔ j = i)

structure Between (net : Network ι c) (lane : Lane ι) : Prop where
  sender : net.Reserved lane.sender lane.senderId
  receiver : net.Reserved lane.receiver lane.receiverId
  apart : lane.sender ≠ lane.receiver
  ids : lane.senderId ≠ lane.receiverId

section between

variable {net after : Network ι c} {lane : Lane ι}

theorem Between.reverse (h : net.Between lane) : net.Between lane.reverse :=
  ⟨h.receiver, h.sender, h.apart.symm, h.ids.symm⟩

theorem Grows.between (hgrows : net.Grows after) (h : after.Between lane) : net.Between lane where
  sender := fun j me hj => h.sender j me (hgrows.identity j me hj)
  receiver := fun j me hj => h.receiver j me (hgrows.identity j me hj)
  apart := h.apart
  ids := h.ids

/-- Two registered clients of a sound network are the ends of a lane. -/
theorem Sound.between (sound : net.Sound suite) {a b : ι} {me you : Identity} (hne : a ≠ b)
    (ha : (net.sessions a).identity = some me) (hb : (net.sessions b).identity = some you) :
    net.Between ⟨a, b, me.id, you.id⟩ where
  sender := fun j other hj => ⟨sound.apart j a other me hj ha, fun heq => by
    rw [heq, ha] at hj
    exact congrArg Identity.id (Option.some.inj hj).symm⟩
  receiver := fun j other hj => ⟨sound.apart j b other you hj hb, fun heq => by
    rw [heq, hb] at hj
    exact congrArg Identity.id (Option.some.inj hj).symm⟩
  apart := hne
  ids := fun heq => hne (sound.apart a b me you ha hb heq)

end between

private theorem view_eq {net : Network ι c} {lane : Lane ι} {owner : Option Identity} {key : Option SymmetricKey}
    {queued : List QueuedMessage} (howner : (net.sessions lane.receiver).identity = owner)
    (hheld : net.held lane = key) (hqueued : net.queued lane = queued) : net.view lane = ⟨owner, key, queued⟩ := by
  rw [view, howner, hheld, hqueued]

section becomes

variable {net after : Network ι c} {client : ι} {clients : List RelayClient} {identity : Option Identity}
  {keys : KeyRing} {lane : Lane ι}

theorem Becomes.queued_same (h : net.Becomes client clients net.relay.waiting identity keys after) (lane : Lane ι) :
    after.queued lane = net.queued lane := by
  rw [queued, queued, Relay.queue, Relay.queue, h.waiting]

variable [DecidableEq ι]

private theorem queue_append {relay relay' : Relay} {entry : ClientId × QueuedMessage}
    (h : relay'.waiting = relay.waiting ++ [entry]) (target : ClientId) :
    relay'.queue target = relay.queue target ++ if entry.1 = target then [entry.2] else [] := by
  rw [Relay.queue, h, List.filter_append, List.map_append]
  by_cases heq : entry.1 = target <;> simp [Relay.queue, heq]

private theorem queue_filter {relay relay' : Relay} {id : ClientId}
    (h : relay'.waiting = relay.waiting.filter (·.1 ≠ id)) (target : ClientId) :
    relay'.queue target = if id = target then [] else relay.queue target := by
  rw [Relay.queue, h, List.filter_filter]
  split
  · next heq =>
    subst heq
    simp
  · next hne =>
    have hcongr (entry : ClientId × QueuedMessage) :
        (decide (entry.1 = target) && decide (entry.1 ≠ id)) = decide (entry.1 = target) := by
      by_cases heq : entry.1 = target
      · simp [heq, Ne.symm hne]
      · simp [heq]
    simp only [hcongr, Relay.queue]

/-- What a client posts waits on the lane from it to the one it posts to, and on no other. -/
theorem Becomes.queued_append {me : Identity} {peer : ClientId} {kind : MessageKind} {content : Bytes}
    (h : net.Becomes client clients (net.relay.waiting ++ [(peer, net.relay.filed me.id kind content)]) identity keys
      after) (registered : (net.sessions client).identity = some me) (between : net.Between lane) :
    after.queued lane = net.queued lane ++
      if client = lane.sender ∧ peer = lane.receiverId then [net.relay.filed me.id kind content] else [] := by
  have hwho : me.id = lane.senderId ↔ client = lane.sender := between.sender client me registered
  rw [queued, queue_append h.waiting, List.filter_append]
  congr 1
  by_cases hpeer : peer = lane.receiverId
  · by_cases hclient : client = lane.sender
    · simp [hpeer, hclient, Relay.filed, hwho.2 hclient]
    · simp [hpeer, hclient, Relay.filed, mt hwho.1 hclient]
  · simp [hpeer]

/-- What a client collects waits no longer on the lanes to it, and all else does. -/
theorem Becomes.queued_filter {me : Identity}
    (h : net.Becomes client clients (net.relay.waiting.filter (·.1 ≠ me.id)) identity keys after)
    (registered : (net.sessions client).identity = some me) (between : net.Between lane) :
    after.queued lane = if client = lane.receiver then [] else net.queued lane := by
  have hwho : me.id = lane.receiverId ↔ client = lane.receiver := between.receiver client me registered
  rw [queued, queue_filter h.waiting]
  by_cases hclient : client = lane.receiver
  · rw [if_pos (hwho.2 hclient), if_pos hclient]
    rfl
  · rw [if_neg (mt hwho.1 hclient), if_neg hclient]
    rfl

theorem Becomes.held_eq {waiting : List (ClientId × QueuedMessage)}
    (h : net.Becomes client clients waiting identity keys after) (lane : Lane ι) :
    after.held lane = if client = lane.receiver then keys.lookup lane.senderId else net.held lane := by
  rw [held]
  split
  · next heq => rw [← heq, h.keys]
  · next hne => rw [h.others _ (Ne.symm hne), held]

end becomes

end Network

namespace Turn

variable {ι c : Type} [DecidableEq ι]

/-- The text or the file that a turn posts over a lane with success, as it is to be shown. -/
def sent (lane : Lane ι) (turn : Turn ι c) : List Outcome :=
  match turn.operation, turn.result with
  | .sendText peer text, .ok _ =>
    if turn.client = lane.sender ∧ peer = lane.receiverId then [.text text] else []
  | .sendFile peer contents, .ok _ =>
    if turn.client = lane.sender ∧ peer = lane.receiverId then [.file contents] else []
  | _, _ => []

/-- What a turn shows the receiver of the texts and files that came over a lane. -/
def shown (lane : Lane ι) (turn : Turn ι c) : List Outcome :=
  match turn.operation, turn.result with
  | .fetchWaiting, .ok (.messages received) =>
    if turn.client = lane.receiver then
      (received.filter fun r => r.sender = lane.senderId ∧ r.kind.isContent).map ReceivedMessage.outcome
    else []
  | _, _ => []

def shares (lane : Lane ι) (turn : Turn ι c) : Bool :=
  match turn.operation, turn.result with
  | .sendKey peer, .ok _ => turn.client = lane.sender ∧ peer = lane.receiverId
  | _, _ => false

theorem shares_of_sendKey {lane : Lane ι} {turn : Turn ι c} {reply : Reply} (client : turn.client = lane.sender)
    (operation : turn.operation = .sendKey lane.receiverId) (result : turn.result = .ok reply) :
    turn.shares lane = true := by
  unfold shares
  rw [operation, result]
  exact decide_eq_true ⟨client, rfl⟩

/-- A turn that passes something over a lane, and what it leaves there and on the way back. -/
inductive Passes (suite : CipherSuite (StateM c)) (lane : Lane ι) (turn : Turn ι c) : Prop
  | posted {m : QueuedMessage} {receipt : Receipt} (client : turn.client = lane.sender)
      (posts : Posts suite.toCiphers (turn.before.sessions lane.sender).keys turn.operation lane.receiverId m.kind
        m.content)
      (result : turn.result = .ok (.receipt receipt))
      (there : turn.after.view lane = (turn.before.view lane).push m)
      (back : turn.after.view lane.reverse = turn.before.view lane.reverse) : Passes suite lane turn
  | shared {m : QueuedMessage} {key : SymmetricKey} {receipt : Receipt} (client : turn.client = lane.sender)
      (operation : turn.operation = .sendKey lane.receiverId) (result : turn.result = .ok (.receipt receipt))
      (kind : m.kind = .keySend) (opens : m.keyFor suite.toCiphers (turn.before.view lane).owner = some key)
      (there : turn.after.view lane = (turn.before.view lane).push m)
      (back : turn.after.view lane.reverse = { turn.before.view lane.reverse with held := some key }) :
      Passes suite lane turn
  | collected {received : List ReceivedMessage} (client : turn.client = lane.receiver)
      (operation : turn.operation = .fetchWaiting) (result : turn.result = .ok (.messages received))
      (shown : turn.shown lane = ((turn.before.view lane).replayed suite.toCiphers).1)
      (there : turn.after.view lane = (turn.before.view lane).emptied suite.toCiphers)
      (back : turn.after.view lane.reverse = turn.before.view lane.reverse) : Passes suite lane turn

structure Aside (suite : CipherSuite (StateM c)) (lane : Lane ι) (turn : Turn ι c) : Prop where
  queued : turn.after.queued lane = turn.before.queued lane
  held : turn.after.held lane = turn.before.held lane
  replayed : (turn.after.view lane).replayed suite.toCiphers = (turn.before.view lane).replayed suite.toCiphers
  sent : turn.sent lane = []
  shown : turn.shown lane = []
  shares : turn.shares lane = false

end Turn

namespace Network

variable {ι c : Type} [DecidableEq ι] {suite : CipherSuite (StateM c)} {net after : Network ι c} {client : ι}
  {lane : Lane ι}

private theorem Becomes.owner_same {clients : List RelayClient} {waiting : List (ClientId × QueuedMessage)}
    {keys : KeyRing} (h : net.Becomes client clients waiting (net.sessions client).identity keys after) (i : ι) :
    (after.sessions i).identity = (net.sessions i).identity := by
  rw [h.identity_eq]
  split
  · next heq => rw [heq]
  · rfl

private theorem Becomes.held_same {clients : List RelayClient} {waiting : List (ClientId × QueuedMessage)}
    {identity : Option Identity}
    (h : net.Becomes client clients waiting identity (net.sessions client).keys after) (lane : Lane ι) :
    after.held lane = net.held lane := by
  rw [h.held_eq]
  split
  · next heq => rw [heq, held]
  · rfl

section posted

variable {op : Operation} {me : Identity} {peer : ClientId} {kind : MessageKind} {content : Bytes} {receipt : Receipt}
  {key : SymmetricKey} (between : net.Between lane) (registered : (net.sessions client).identity = some me)
include between registered

/-- What is posted from one end of a lane to the other waits there, and nothing changes on the way back. -/
private theorem passes_posted (hclient : client = lane.sender) (hpeer : peer = lane.receiverId)
    (posts : Posts suite.toCiphers (net.sessions client).keys op peer kind content)
    (becomes : net.Becomes client net.relay.clients
      (net.relay.waiting ++ [(peer, net.relay.filed me.id kind content)]) (some me) (net.sessions client).keys after) :
    Turn.Passes suite lane ⟨net, client, op, .ok (.receipt receipt), after⟩ := by
  subst hclient hpeer
  have hthere := becomes.queued_append registered between
  have hback := becomes.queued_append registered between.reverse
  rw [if_pos ⟨rfl, rfl⟩] at hthere
  rw [if_neg fun h => between.apart h.1, List.append_nil] at hback
  rw [← registered] at becomes
  have hfiled : MessageKind.ofByte kind.byte = kind := by cases posts <;> rfl
  refine .posted (m := net.relay.filed me.id kind content) rfl ?_ rfl
    (view_eq (becomes.owner_same _) (becomes.held_same _) hthere)
    (view_eq (becomes.owner_same _) (becomes.held_same _) hback)
  change Posts suite.toCiphers _ op lane.receiverId (.ofByte kind.byte) content
  rw [hfiled]
  exact posts

private theorem passes_shared (hclient : client = lane.sender) (hpeer : peer = lane.receiverId)
    (opens : ∀ you, (net.sessions lane.receiver).identity = some you →
      (net.relay.filed me.id .keySend content).keyFor suite.toCiphers (some you) = some key)
    (hreceiver : ∃ you, (net.sessions lane.receiver).identity = some you)
    (becomes : net.Becomes client net.relay.clients
      (net.relay.waiting ++ [(peer, net.relay.filed me.id .keySend content)]) (some me)
      ((net.sessions client).keys.establish peer key) after) :
    Turn.Passes suite lane ⟨net, client, .sendKey peer, .ok (.receipt receipt), after⟩ := by
  subst hclient hpeer
  have hthere := becomes.queued_append registered between
  have hback := becomes.queued_append registered between.reverse
  rw [if_pos ⟨rfl, rfl⟩] at hthere
  rw [if_neg fun h => between.apart h.1, List.append_nil] at hback
  rw [← registered] at becomes
  obtain ⟨you, hyou⟩ := hreceiver
  have hheld := becomes.held_eq lane
  rw [if_neg between.apart] at hheld
  have hheldBack := becomes.held_eq lane.reverse
  rw [if_pos (show lane.sender = lane.reverse.receiver from rfl), KeyRing.lookup_establish,
    if_pos (show lane.reverse.senderId = lane.receiverId from rfl)] at hheldBack
  exact .shared (m := net.relay.filed me.id .keySend content) rfl rfl rfl rfl (by rw [view, hyou]; exact opens you hyou)
    (view_eq (becomes.owner_same _) hheld hthere) (view_eq (becomes.owner_same _) hheldBack hback)

private theorem aside_posted (hnot : ¬(client = lane.sender ∧ peer = lane.receiverId))
    (posts : Posts suite.toCiphers (net.sessions client).keys op peer kind content)
    (becomes : net.Becomes client net.relay.clients
      (net.relay.waiting ++ [(peer, net.relay.filed me.id kind content)]) (some me) (net.sessions client).keys after) :
    Turn.Aside suite lane ⟨net, client, op, .ok (.receipt receipt), after⟩ := by
  have hqueued := becomes.queued_append registered between
  rw [if_neg hnot, List.append_nil] at hqueued
  rw [← registered] at becomes
  refine ⟨hqueued, becomes.held_same lane, ?_, ?_, ?_, ?_⟩
  · exact congrArg (View.replayed suite.toCiphers) (view_eq (becomes.owner_same _) (becomes.held_same _) hqueued)
  · cases posts with
    | request => rfl
    | text held => exact if_neg hnot
    | file held => exact if_neg hnot
  · cases posts <;> rfl
  · cases posts <;> rfl

private theorem aside_shared (hnot : ¬(client = lane.sender ∧ peer = lane.receiverId))
    (hback : ¬(client = lane.receiver ∧ peer = lane.senderId))
    (becomes : net.Becomes client net.relay.clients
      (net.relay.waiting ++ [(peer, net.relay.filed me.id .keySend content)]) (some me)
      ((net.sessions client).keys.establish peer key) after) :
    Turn.Aside suite lane ⟨net, client, .sendKey peer, .ok (.receipt receipt), after⟩ := by
  have hqueued := becomes.queued_append registered between
  rw [if_neg hnot, List.append_nil] at hqueued
  rw [← registered] at becomes
  have hheld : after.held lane = net.held lane := by
    rw [becomes.held_eq]
    split
    · next heq =>
      rw [KeyRing.lookup_establish, if_neg fun hpeer => hback ⟨heq, hpeer.symm⟩, heq, held]
    · rfl
  exact ⟨hqueued, hheld, congrArg (View.replayed suite.toCiphers) (view_eq (becomes.owner_same _) hheld hqueued),
    rfl, rfl, decide_eq_false hnot⟩

variable {informed : Session}

omit [DecidableEq ι] in
/-- What a client collects comes to what replaying the lane to it comes to. -/
private theorem replayed_collected (hclient : client = lane.receiver) (hsame : informed.identity = some me)
    (hkeys : informed.keys = (net.sessions client).keys) :
    (((informed.absorbAll suite.toCiphers (net.relay.queue me.id)).1.filter fun r =>
          r.sender = lane.senderId ∧ r.kind.isContent).map ReceivedMessage.outcome,
        (informed.absorbAll suite.toCiphers (net.relay.queue me.id)).2.keys.lookup lane.senderId) =
      (net.view lane).replayed suite.toCiphers := by
  subst hclient
  have hid : me.id = lane.receiverId := (between.receiver _ me registered).2 rfl
  rw [Session.absorbAll_sender, hsame, hkeys, View.replayed, view, registered, queued, held, hid]

variable (becomes : net.Becomes client net.relay.clients (net.relay.waiting.filter (·.1 ≠ me.id)) (some me)
    (informed.absorbAll suite.toCiphers (net.relay.queue me.id)).2.keys after)
include becomes

private theorem passes_collected (hsame : informed.identity = some me)
    (hkeys : informed.keys = (net.sessions client).keys) (hclient : client = lane.receiver) :
    Turn.Passes suite lane ⟨net, client, .fetchWaiting,
      .ok (.messages (informed.absorbAll suite.toCiphers (net.relay.queue me.id)).1), after⟩ := by
  have hreplayed : _ = (net.view lane).replayed suite.toCiphers :=
    replayed_collected between registered hclient hsame hkeys
  obtain ⟨houtcomes, hkey⟩ := Prod.mk.inj hreplayed
  subst hclient
  have hthere := becomes.queued_filter registered between
  have hback := becomes.queued_filter registered between.reverse
  rw [if_pos rfl] at hthere
  rw [if_neg (show lane.receiver ≠ lane.reverse.receiver from between.apart.symm)] at hback
  have hheld := becomes.held_eq lane
  rw [if_pos rfl, hkey] at hheld
  have hheldBack := becomes.held_eq lane.reverse
  rw [if_neg (show lane.receiver ≠ lane.reverse.receiver from between.apart.symm)] at hheldBack
  rw [← registered] at becomes
  exact .collected rfl rfl rfl ((if_pos rfl).trans houtcomes) (view_eq (becomes.owner_same _) hheld hthere)
    (view_eq (becomes.owner_same _) hheldBack hback)

private theorem aside_collected (hnot : client ≠ lane.receiver) :
    Turn.Aside suite lane ⟨net, client, .fetchWaiting,
      .ok (.messages (informed.absorbAll suite.toCiphers (net.relay.queue me.id)).1), after⟩ := by
  have hqueued := becomes.queued_filter registered between
  rw [if_neg hnot] at hqueued
  have hkey : after.held lane = net.held lane := by rw [becomes.held_eq, if_neg hnot]
  rw [← registered] at becomes
  exact ⟨hqueued, hkey, congrArg (View.replayed suite.toCiphers) (view_eq (becomes.owner_same _) hkey hqueued),
    rfl, if_neg hnot, rfl⟩

end posted

/-- What a client is shown when it collects is what replaying the lane to it comes to. -/
theorem Happens.shown_collected {received : List ReceivedMessage} (between : net.Between lane)
    (h : Happens suite net client .fetchWaiting (.ok (.messages received)) after) (hclient : client = lane.receiver) :
    Turn.shown lane ⟨net, client, .fetchWaiting, .ok (.messages received), after⟩ =
      ((net.view lane).replayed suite.toCiphers).1 := by
  cases h with
  | nothing quiet becomes => rcases quiet with hasks | ⟨e, he⟩ <;> contradiction
  | collected registered same held becomes =>
    exact (if_pos hclient).trans (congrArg Prod.fst (replayed_collected between registered hclient same held))

private theorem aside_nothing {op : Operation} {result : Except Failure Reply} (lane : Lane ι)
    (quiet : op.asks = true ∨ ∃ e, result = .error e)
    (becomes : net.Becomes client net.relay.clients net.relay.waiting (net.sessions client).identity
      (net.sessions client).keys after) : Turn.Aside suite lane ⟨net, client, op, result, after⟩ := by
  refine ⟨becomes.queued_same lane, becomes.held_same lane, ?_, ?_, ?_, ?_⟩
  · exact congrArg (View.replayed suite.toCiphers)
      (view_eq (becomes.owner_same _) (becomes.held_same _) (becomes.queued_same _))
  · rcases quiet with hasks | ⟨e, rfl⟩ <;> cases op <;> first | rfl | cases hasks
  · rcases quiet with hasks | ⟨e, rfl⟩ <;> cases op <;> first | rfl | cases hasks
  · rcases quiet with hasks | ⟨e, rfl⟩ <;> cases op <;> first | rfl | cases hasks

/-- A registration leaves every lane alone: what waits for an id that was not given out yet only asks for keys, so it
does not matter who it is read by. -/
private theorem aside_registered {username name : String} {id : ClientId} {pair : KeyPair} (sound : net.Sound suite)
    (distinct : after.Distinct) (between : after.Between lane)
    (becomes : net.Becomes client (net.relay.clients ++ [⟨id, name, pair.publicKey⟩]) net.relay.waiting
      (some ⟨username, id, pair.privateKey, pair.publicKey⟩) (net.sessions client).keys after) :
    Turn.Aside suite lane ⟨net, client, .register username, .ok (.registered id), after⟩ := by
  refine ⟨becomes.queued_same lane, becomes.held_same lane, ?_, rfl, rfl, rfl⟩
  by_cases hreceiver : client = lane.receiver
  · obtain rfl : id = lane.receiverId := (between.receiver client _ becomes.identity).2 hreceiver
    have hfresh : ¬net.Knows lane.receiverId := distinct.fresh becomes.clients
    have hrequests : ∀ m ∈ net.queued lane, m.kind = .keyRequest := by
      intro m hm
      obtain ⟨entry, hentry, rfl⟩ := List.mem_map.1 (List.mem_filter.1 hm).1
      obtain ⟨hwaits, htarget⟩ := List.mem_filter.1 hentry
      rcases (sound.filed entry hwaits).target with hknown | hkind
      · exact absurd (of_decide_eq_true htarget ▸ hknown) hfresh
      · exact hkind
    have hafter : (after.view lane).queued = net.queued lane := becomes.queued_same lane
    have hheld : (after.view lane).held = net.held lane := becomes.held_same lane
    rw [View.replayed, View.replayed, hafter, hheld, Session.follow_requests _ _ _ _ hrequests]
    exact (Session.follow_requests _ _ _ _ hrequests).symm
  · have howner : (after.sessions lane.receiver).identity = (net.sessions lane.receiver).identity := by
      rw [becomes.identity_eq, if_neg (Ne.symm hreceiver)]
    exact congrArg (View.replayed suite.toCiphers) (view_eq howner (becomes.held_same _) (becomes.queued_same _))

/-- A turn passes something over a lane or back, or has nothing to do with either. -/
theorem Happens.passes {op : Operation} {result : Except Failure Reply} (h : Happens suite net client op result after)
    (sound : net.Sound suite) (unwraps : suite.Unwraps) (distinct : after.Distinct) (between : after.Between lane) :
    Turn.Passes suite lane ⟨net, client, op, result, after⟩ ∨
      Turn.Passes suite lane.reverse ⟨net, client, op, result, after⟩ ∨
      Turn.Aside suite lane ⟨net, client, op, result, after⟩ ∧
        Turn.Aside suite lane.reverse ⟨net, client, op, result, after⟩ := by
  have hbetween := h.grows.between between
  cases h with
  | nothing quiet becomes => exact .inr (.inr ⟨aside_nothing lane quiet becomes, aside_nothing _ quiet becomes⟩)
  | registered unregistered generated becomes =>
    exact .inr (.inr ⟨aside_registered sound distinct between becomes,
      aside_registered sound distinct between.reverse becomes⟩)
  | @posted op me peer kind content receipt after registered posts short becomes =>
    by_cases hthere : client = lane.sender ∧ peer = lane.receiverId
    · exact .inl (passes_posted hbetween registered hthere.1 hthere.2 posts becomes)
    by_cases hback : client = lane.receiver ∧ peer = lane.senderId
    · exact .inr (.inl (passes_posted hbetween.reverse registered hback.1 hback.2 posts becomes))
    · exact .inr (.inr ⟨aside_posted hbetween registered hthere posts becomes,
        aside_posted hbetween.reverse registered hback posts becomes⟩)
  | @shared me owner key wrapped source receipt after registered known made short becomes =>
    have hopens {l : Lane ι} (hid : owner.id = l.receiverId) (hl : net.Between l) (you : Identity)
        (hyou : (net.sessions l.receiver).identity = some you) :
        (net.relay.filed me.id .keySend wrapped).keyFor suite.toCiphers (some you) = some key :=
      sound.keyFor_shared unwraps known made hyou (((hl.receiver _ you hyou).2 rfl).trans hid.symm) me.id
    have hreceiver {l : Lane ι} (hid : owner.id = l.receiverId) (hl : net.Between l) :
        ∃ you, (net.sessions l.receiver).identity = some you := by
      obtain ⟨i, you, hi, hyou, -⟩ := sound.owned owner known
      obtain rfl := (hl.receiver i you hi).1 (hyou.trans hid)
      exact ⟨you, hi⟩
    by_cases hthere : client = lane.sender ∧ owner.id = lane.receiverId
    · exact .inl (passes_shared hbetween registered hthere.1 hthere.2 (hopens hthere.2 hbetween)
        (hreceiver hthere.2 hbetween) becomes)
    by_cases hback : client = lane.receiver ∧ owner.id = lane.senderId
    · exact .inr (.inl (passes_shared hbetween.reverse registered hback.1 hback.2 (hopens hback.2 hbetween.reverse)
        (hreceiver hback.2 hbetween.reverse) becomes))
    · exact .inr (.inr ⟨aside_shared hbetween registered hthere hback becomes,
        aside_shared hbetween.reverse registered hback hthere becomes⟩)
  | @collected me informed after registered same hkeys becomes =>
    by_cases hthere : client = lane.receiver
    · exact .inl (passes_collected hbetween registered becomes same hkeys hthere)
    by_cases hback : client = lane.sender
    · exact .inr (.inl (passes_collected hbetween.reverse registered becomes same hkeys hback))
    · exact .inr (.inr ⟨aside_collected hbetween registered becomes hthere,
        aside_collected hbetween.reverse registered becomes hback⟩)

end Network

end SealedPost
