import SealedPost.Proofs.Network

/-! What holds of every network that is reached in turns: whom the relay knows, whose keys it tells, and for whom
messages wait. -/
namespace SealedPost

/-- A key that was wrapped for a generated pair is unwrapped with it. -/
def CipherSuite.Unwraps {c : Type} (suite : CipherSuite (StateM c)) : Prop :=
  ∀ source pair, (suite.freshKeyPair.run source).1 = .ok pair →
    ∀ (key : SymmetricKey) seed wrapped, ((suite.wrap pair.publicKey key.toBytes).run seed).1 = .ok wrapped →
      suite.unwrap pair.privateKey wrapped = .ok key.toBytes

/-- What was encrypted under a key is decrypted with it. -/
def Ciphers.Decrypts (ciphers : Ciphers) : Prop :=
  ∀ key plaintext, ciphers.decrypt key (ciphers.encrypt key plaintext) = .ok plaintext

/-- A ciphertext is empty only if the plaintext is. -/
def Ciphers.Substantial (ciphers : Ciphers) : Prop :=
  ∀ key plaintext, ciphers.encrypt key plaintext = [] → plaintext = []

namespace Network

variable {ι c : Type} {suite : CipherSuite (StateM c)}

def Knows (net : Network ι c) (id : ClientId) : Prop :=
  ∃ client ∈ net.relay.clients, client.id = id

def Distinct (net : Network ι c) : Prop :=
  (net.relay.clients.map RelayClient.id).Nodup

instance (net : Network ι c) : Decidable net.Distinct :=
  inferInstanceAs (Decidable (List.Nodup _))

/-- A message that waits as it should: it came from a client that is known, it is for one too unless it only asks for a
key, and a key in it opens for the client it waits for. -/
structure Filed (suite : CipherSuite (StateM c)) (net : Network ι c) (entry : ClientId × QueuedMessage) : Prop where
  sender : net.Knows entry.2.sender
  target : net.Knows entry.1 ∨ entry.2.kind = .keyRequest
  opens : entry.2.kind = .keySend → ∃ i me, (net.sessions i).identity = some me ∧ me.id = entry.1 ∧
    (entry.2.keyFor suite.toCiphers (some me)).isSome

/-- The relay and its clients agree on who is registered, and with which key. -/
structure Sound (suite : CipherSuite (StateM c)) (net : Network ι c) : Prop where
  owned : ∀ owner ∈ net.relay.clients, ∃ i me,
    (net.sessions i).identity = some me ∧ me.id = owner.id ∧ me.publicKey = owner.publicKey
  known : ∀ i me, (net.sessions i).identity = some me → net.Knows me.id
  generated : ∀ i me, (net.sessions i).identity = some me →
    ∃ source, (suite.freshKeyPair.run source).1 = .ok ⟨me.privateKey, me.publicKey⟩
  apart : ∀ i j me you, (net.sessions i).identity = some me → (net.sessions j).identity = some you →
    me.id = you.id → i = j
  held : ∀ i peer, ((net.sessions i).keys.lookup peer).isSome → net.Knows peer
  filed : ∀ entry ∈ net.relay.waiting, net.Filed suite entry

/-- The relay forgets no client, and no client forgets who it is. -/
structure Grows (net after : Network ι c) : Prop where
  clients : net.relay.clients <+: after.relay.clients
  identity : ∀ i me, (net.sessions i).identity = some me → (after.sessions i).identity = some me

section grows

variable {net after : Network ι c}

theorem Grows.knows (h : net.Grows after) {id : ClientId} (hid : net.Knows id) : after.Knows id := by
  obtain ⟨owner, howner, heq⟩ := hid
  exact ⟨owner, h.clients.subset howner, heq⟩

/-- An id that the relay gives out was not known before. -/
theorem Distinct.fresh {client : RelayClient} (distinct : after.Distinct)
    (h : after.relay.clients = net.relay.clients ++ [client]) : ¬net.Knows client.id := by
  rintro ⟨owner, howner, hid⟩
  rw [Distinct, h, List.map_append, List.nodup_append] at distinct
  exact distinct.2.2 owner.id (List.mem_map_of_mem howner) client.id (by simp) hid

theorem Grows.distinct (h : net.Grows after) (distinct : after.Distinct) : net.Distinct :=
  distinct.sublist (h.clients.sublist.map RelayClient.id)

theorem Grows.filed (h : net.Grows after) {entry : ClientId × QueuedMessage} (filed : net.Filed suite entry) :
    after.Filed suite entry where
  sender := h.knows filed.sender
  target := filed.target.imp h.knows id
  opens := by
    intro hkind
    obtain ⟨i, me, hi, hid, hopens⟩ := filed.opens hkind
    exact ⟨i, me, h.identity i me hi, hid, hopens⟩

/-- A key that was wrapped for a known client is opened by whoever is known under its id. -/
theorem Sound.keyFor_shared (sound : net.Sound suite) (unwraps : suite.Unwraps) {owner : RelayClient}
    (known : owner ∈ net.relay.clients) {key : SymmetricKey} {wrapped : Bytes} {source : c}
    (made : ((suite.wrap owner.publicKey key.toBytes).run source).1 = .ok wrapped) {i : ι} {me : Identity}
    (hi : (net.sessions i).identity = some me) (hid : me.id = owner.id) (sender : ClientId) :
    (net.relay.filed sender .keySend wrapped).keyFor suite.toCiphers (some me) = some key := by
  obtain ⟨j, you, hj, hyou, hkey⟩ := sound.owned owner known
  obtain rfl := sound.apart i j me you hi hj (hid.trans hyou.symm)
  obtain rfl : me = you := Option.some.inj (hi.symm.trans hj)
  obtain ⟨seed, generated⟩ := sound.generated i me hi
  rw [← hkey] at made
  exact QueuedMessage.keyFor_eq_some _ rfl (unwraps seed _ generated key source wrapped made)

end grows

section becomes

variable [DecidableEq ι] {net after : Network ι c} {client : ι} {op : Operation} {result : Except Failure Reply}
  {clients : List RelayClient} {waiting : List (ClientId × QueuedMessage)} {identity : Option Identity} {keys : KeyRing}

theorem Becomes.identity_eq (h : net.Becomes client clients waiting identity keys after) (i : ι) :
    (after.sessions i).identity = if i = client then identity else (net.sessions i).identity := by
  split
  · next hi => rw [hi, h.identity]
  · next hi => rw [h.others i hi]

theorem Becomes.keys_eq (h : net.Becomes client clients waiting identity keys after) (i : ι) :
    (after.sessions i).keys = if i = client then keys else (net.sessions i).keys := by
  split
  · next hi => rw [hi, h.keys]
  · next hi => rw [h.others i hi]

private theorem Becomes.grows (h : net.Becomes client clients waiting identity keys after)
    (hclients : net.relay.clients <+: clients)
    (hidentity : ∀ me, (net.sessions client).identity = some me → identity = some me) : net.Grows after where
  clients := by rw [h.clients]; exact hclients
  identity := by
    intro i me hi
    rw [h.identity_eq]
    split
    · next heq => exact hidentity me (heq ▸ hi)
    · exact hi

/-- Nobody is forgotten by whatever a turn comes to. -/
theorem Happens.grows (h : Happens suite net client op result after) : net.Grows after := by
  cases h with
  | nothing quiet becomes => exact becomes.grows (List.prefix_refl _) fun _ => id
  | registered unregistered generated becomes =>
    exact becomes.grows (List.prefix_append _ _) fun me hme => by rw [unregistered] at hme; cases hme
  | posted registered posts short becomes =>
    exact becomes.grows (List.prefix_refl _) fun me hme => registered ▸ hme
  | shared registered known made short becomes =>
    exact becomes.grows (List.prefix_refl _) fun me hme => registered ▸ hme
  | collected registered same held becomes =>
    exact becomes.grows (List.prefix_refl _) fun me hme => registered ▸ hme

private theorem lookup_establishAll_isSome {ring : KeyRing} {events : List (ClientId × SymmetricKey)} {peer : ClientId}
    (h : ((ring.establishAll events).lookup peer).isSome) :
    (ring.lookup peer).isSome ∨ ∃ event ∈ events, event.1 = peer := by
  by_cases hevent : ∃ event ∈ events, event.1 = peer
  · exact .inr hevent
  · rw [KeyRing.lookup_establishAll, lastKey_eq_none fun event hmem heq => hevent ⟨event, hmem, heq⟩] at h
    exact .inl h

section happens

variable (sound : net.Sound suite) (h : Happens suite net client op result after)
include sound h

/-- The messages that wait after a turn waited before, or the turn posted them as it should. -/
private theorem Sound.filed_after (unwraps : suite.Unwraps) :
    ∀ entry ∈ after.relay.waiting, after.Filed suite entry := by
  have hgrows := h.grows
  have hold (entry : ClientId × QueuedMessage) (hentry : entry ∈ net.relay.waiting) : after.Filed suite entry :=
    hgrows.filed (sound.filed entry hentry)
  cases h with
  | nothing quiet becomes => rw [becomes.waiting]; exact hold
  | registered unregistered generated becomes => rw [becomes.waiting]; exact hold
  | @posted op me peer kind content receipt after registered posts short becomes =>
    rw [becomes.waiting]
    intro entry hentry
    rcases List.mem_append.1 hentry with hentry | hnew
    · exact hold entry hentry
    · obtain rfl := List.mem_singleton.1 hnew
      refine ⟨hgrows.knows (sound.known client me registered), ?_, ?_⟩
      · cases posts with
        | request => exact .inr rfl
        | text held => exact .inl (hgrows.knows (sound.held client peer (Option.isSome_of_eq_some held)))
        | file held => exact .inl (hgrows.knows (sound.held client peer (Option.isSome_of_eq_some held)))
      · cases posts <;> exact nofun
  | @shared me owner key wrapped source receipt after registered known made short becomes =>
    rw [becomes.waiting]
    intro entry hentry
    rcases List.mem_append.1 hentry with hentry | hnew
    · exact hold entry hentry
    · obtain rfl := List.mem_singleton.1 hnew
      refine ⟨hgrows.knows (sound.known client me registered), .inl (hgrows.knows ⟨owner, known, rfl⟩), fun _ => ?_⟩
      obtain ⟨i, you, hi, hid, -⟩ := sound.owned owner known
      have hopen := sound.keyFor_shared unwraps known made hi hid me.id
      exact ⟨i, you, hgrows.identity i you hi, hid, Option.isSome_of_eq_some hopen⟩
  | collected registered same held becomes =>
    rw [becomes.waiting]
    exact fun entry hentry => hold entry (List.mem_filter.1 hentry).1

private theorem Sound.held_after : ∀ i peer, ((after.sessions i).keys.lookup peer).isSome → after.Knows peer := by
  have hgrows := h.grows
  have hold (i : ι) (peer : ClientId) (hheld : ((net.sessions i).keys.lookup peer).isSome) : after.Knows peer :=
    hgrows.knows (sound.held i peer hheld)
  -- Only the keys of the client whose turn it is can be new.
  have hturn {keys : KeyRing}
      (hkeys : ∀ i, (after.sessions i).keys = if i = client then keys else (net.sessions i).keys)
      (hnew : ∀ peer, (keys.lookup peer).isSome → after.Knows peer) :
      ∀ i peer, ((after.sessions i).keys.lookup peer).isSome → after.Knows peer := by
    intro i peer hheld
    rw [hkeys] at hheld
    split at hheld
    · exact hnew peer hheld
    · exact hold i peer hheld
  cases h with
  | nothing quiet becomes => exact hturn becomes.keys_eq (hold client)
  | registered unregistered generated becomes => exact hturn becomes.keys_eq (hold client)
  | posted registered posts short becomes => exact hturn becomes.keys_eq (hold client)
  | @shared me owner key wrapped source receipt after registered known made short becomes =>
    refine hturn becomes.keys_eq fun peer hheld => ?_
    rw [KeyRing.lookup_establish] at hheld
    split at hheld
    · next heq => exact heq ▸ hgrows.knows ⟨owner, known, rfl⟩
    · exact hold client peer hheld
  | @collected me informed after registered same held becomes =>
    refine hturn becomes.keys_eq fun peer hheld => ?_
    rw [Session.absorbAll_session] at hheld
    rcases lookup_establishAll_isSome hheld with hheld | ⟨event, hevent, rfl⟩
    · rw [held] at hheld
      exact hold client peer hheld
    · obtain ⟨m, hm, hevent⟩ := List.mem_filterMap.1 hevent
      obtain ⟨key, -, rfl⟩ := Option.map_eq_some_iff.1 hevent
      obtain ⟨entry, hentry, rfl⟩ := List.mem_map.1 hm
      exact hgrows.knows (sound.filed entry (List.mem_filter.1 hentry).1).sender

/-- A turn keeps a network sound, case by case of what it can come to. -/
theorem Sound.preserved (unwraps : suite.Unwraps) (distinct : after.Distinct) : after.Sound suite := by
  have hfiled := sound.filed_after h unwraps
  have hheld := sound.held_after h
  have hgrows := h.grows
  have hsame (hclients : after.relay.clients = net.relay.clients)
      (hidentity : ∀ i, (after.sessions i).identity = (net.sessions i).identity) : after.Sound suite := by
    refine ⟨?_, ?_, ?_, ?_, hheld, hfiled⟩
    · rw [hclients]
      intro owner howner
      obtain ⟨i, me, hi, hme⟩ := sound.owned owner howner
      exact ⟨i, me, hgrows.identity i me hi, hme⟩
    · intro i me hi
      rw [hidentity] at hi
      exact hgrows.knows (sound.known i me hi)
    · intro i me hi
      rw [hidentity] at hi
      exact sound.generated i me hi
    · intro i j me you hi hj
      rw [hidentity] at hi hj
      exact sound.apart i j me you hi hj
  have hkept {clients : List RelayClient} {waiting : List (ClientId × QueuedMessage)} {identity : Option Identity}
      {keys : KeyRing} (becomes : net.Becomes client clients waiting identity keys after)
      (heq : (net.sessions client).identity = identity) (i : ι) :
      (after.sessions i).identity = (net.sessions i).identity := by
    rw [becomes.identity_eq]
    split
    · next hi => rw [hi, heq]
    · rfl
  cases h with
  | nothing quiet becomes => exact hsame becomes.clients (hkept becomes rfl)
  | posted registered posts short becomes =>
    exact hsame becomes.clients (hkept becomes registered)
  | shared registered known made short becomes =>
    exact hsame becomes.clients (hkept becomes registered)
  | collected registered same held becomes =>
    exact hsame becomes.clients (hkept becomes registered)
  | @registered username name id pair source after unregistered generated becomes =>
    have hfresh : ¬net.Knows id := distinct.fresh becomes.clients
    -- A client is who it was, or it is the one that registered.
    have hwho (i : ι) (me : Identity) (hi : (after.sessions i).identity = some me) :
        i = client ∧ me = ⟨username, id, pair.privateKey, pair.publicKey⟩ ∨ (net.sessions i).identity = some me := by
      rw [becomes.identity_eq] at hi
      split at hi
      · next heq => exact .inl ⟨heq, (Option.some.inj hi).symm⟩
      · exact .inr hi
    refine ⟨?_, ?_, ?_, ?_, hheld, hfiled⟩
    · rw [becomes.clients]
      intro owner howner
      rcases List.mem_append.1 howner with hold | hnew
      · obtain ⟨i, me, hi, hme⟩ := sound.owned owner hold
        exact ⟨i, me, hgrows.identity i me hi, hme⟩
      · obtain rfl := List.mem_singleton.1 hnew
        exact ⟨client, _, becomes.identity, rfl, rfl⟩
    · intro i me hi
      rcases hwho i me hi with ⟨-, rfl⟩ | hold
      · exact ⟨⟨id, name, pair.publicKey⟩, by rw [becomes.clients]; simp, rfl⟩
      · exact hgrows.knows (sound.known i me hold)
    · intro i me hi
      rcases hwho i me hi with ⟨-, rfl⟩ | hold
      · exact ⟨source, generated⟩
      · exact sound.generated i me hold
    · intro i j me you hi hj hid
      rcases hwho i me hi with ⟨rfl, rfl⟩ | hi <;> rcases hwho j you hj with ⟨rfl, rfl⟩ | hj
      · rfl
      · have hknown := sound.known j you hj
        rw [← hid] at hknown
        exact absurd hknown hfresh
      · have hknown := sound.known i me hi
        rw [hid] at hknown
        exact absurd hknown hfresh
      · exact sound.apart i j me you hi hj hid

end happens

end becomes

theorem sound_start (ids : Nat → ClientId) (sources : ι → c) : (start ids sources).Sound suite where
  owned := nofun
  known := nofun
  generated := nofun
  apart := nofun
  held := fun _ _ hheld => nomatch hheld
  filed := nofun

/-- Every network that clients reach in turns is sound, as long as no id is given out twice. -/
theorem Reaches.sound [DecidableEq ι] {ids : Nat → ClientId} {sources : ι → c} {history : List (Turn ι c)}
    {net : Network ι c} (h : Reaches suite (Network.start ids sources) history net) (unwraps : suite.Unwraps)
    (distinct : net.Distinct) : net.Sound suite := by
  induction h with
  | start => exact sound_start ids sources
  | turn earlier client op fits ih =>
    have hhappens : Happens suite _ client op _ _ := turn_happens earlier.inOrder fits
    exact (ih (hhappens.grows.distinct distinct)).preserved hhappens unwraps distinct

end Network

end SealedPost
