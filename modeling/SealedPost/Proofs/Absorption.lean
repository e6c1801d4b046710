import SealedPost.Session

/-! What a batch of messages does to the keys, and what one sender's messages come to, whatever stands between them. -/
namespace SealedPost

/-- The key of the last event for a peer, among keys that came up one after the other. -/
def lastKey (events : List (ClientId × SymmetricKey)) (peer : ClientId) : Option SymmetricKey :=
  ((events.filter (·.1 = peer)).getLast?).map Prod.snd

theorem lastKey_append (earlier later : List (ClientId × SymmetricKey)) (peer : ClientId) :
    lastKey (earlier ++ later) peer = (lastKey later peer).or (lastKey earlier peer) := by
  rw [lastKey, List.filter_append, List.getLast?_append, Option.map_or]
  rfl

theorem lastKey_cons (event : ClientId × SymmetricKey) (later : List (ClientId × SymmetricKey)) (peer : ClientId) :
    lastKey (event :: later) peer = (lastKey later peer).or (if event.1 = peer then some event.2 else none) := by
  rw [← List.singleton_append, lastKey_append]
  by_cases h : event.1 = peer <;> simp [lastKey, h]

theorem lastKey_eq_none {events : List (ClientId × SymmetricKey)} {peer : ClientId}
    (h : ∀ event ∈ events, event.1 ≠ peer) : lastKey events peer = none := by
  rw [lastKey, List.filter_eq_nil_iff.2 fun event hevent => by simpa using h event hevent]
  rfl

def KeyRing.establishAll (ring : KeyRing) (events : List (ClientId × SymmetricKey)) : KeyRing :=
  events.foldl (fun ring event => ring.establish event.1 event.2) ring

/-- Keys established one after the other leave the last one for each peer. -/
theorem KeyRing.lookup_establishAll (ring : KeyRing) (events : List (ClientId × SymmetricKey)) (peer : ClientId) :
    (ring.establishAll events).lookup peer = (lastKey events peer).or (ring.lookup peer) := by
  induction events generalizing ring with
  | nil => rfl
  | cons event later ih =>
    have hlater := ih (ring.establish event.1 event.2)
    rw [KeyRing.lookup_establish] at hlater
    refine hlater.trans ?_
    rw [lastKey_cons]
    by_cases h : event.1 = peer
    · cases lastKey later peer <;> simp [h]
    · cases lastKey later peer <;> simp [h, Ne.symm h]

namespace QueuedMessage

/-- The key that a message brings: wrapped for the client's own private key, and of exactly sixteen bytes. -/
def keyFor (ciphers : Ciphers) (owner : Option Identity) (m : QueuedMessage) : Option SymmetricKey :=
  match m.kind, owner with
  | .keySend, some me =>
    match ciphers.unwrap me.privateKey m.content with
    | .ok bs => (Block.ofBytes? 16 bs).map SymmetricKey.mk
    | .error _ => none
  | _, _ => none

theorem keyFor_eq_none (ciphers : Ciphers) (owner : Option Identity) {m : QueuedMessage} (h : m.kind ≠ .keySend) :
    m.keyFor ciphers owner = none := by
  unfold keyFor
  split
  · next hkind => exact absurd hkind h
  · rfl

theorem keyFor_eq_some (ciphers : Ciphers) {me : Identity} {m : QueuedMessage} {key : SymmetricKey}
    (hkind : m.kind = .keySend) (hopen : ciphers.unwrap me.privateKey m.content = .ok key.toBytes) :
    m.keyFor ciphers (some me) = some key := by
  simp only [keyFor, hkind, hopen, Block.ofBytes?, dif_pos key.length_toBytes]
  rfl

def keyEvent? (ciphers : Ciphers) (owner : Option Identity) (m : QueuedMessage) : Option (ClientId × SymmetricKey) :=
  (m.keyFor ciphers owner).map (m.sender, ·)

end QueuedMessage

def MessageKind.isContent : MessageKind → Bool
  | .text | .file => true
  | _ => false

namespace Session

variable (ciphers : Ciphers)

/-- What a text or a file comes to under the key that is held for its sender. -/
def contentOutcome (held : Option SymmetricKey) (m : QueuedMessage) : Outcome :=
  match held with
  | none => .noKey m.content
  | some key =>
    if m.kind = .text ∧ m.content = [] then .text ""
    else match ciphers.decrypt key m.content with
      | .ok plaintext => if m.kind = .text then .text (Utf8.decodeLossy plaintext) else .file plaintext
      | .error e => .undecryptable m.content e

/-- What the texts and files of one sender come to, message by message, and the key held for the sender after them. -/
def follow (owner : Option Identity) : Option SymmetricKey → List QueuedMessage → List Outcome × Option SymmetricKey
  | held, [] => ([], held)
  | held, m :: ms =>
    let (outcomes, last) := follow owner ((m.keyFor ciphers owner).or held) ms
    (if m.kind.isContent then contentOutcome ciphers held m :: outcomes else outcomes, last)

theorem judge_keys (s : Session) (m : QueuedMessage) :
    (s.judge ciphers m).2 = match m.keyFor ciphers s.identity with
      | some key => s.keys.establish m.sender key
      | none => s.keys := by
  unfold judge QueuedMessage.keyFor unwrapKey
  cases m.kind with
  | keySend =>
    cases s.identity with
    | none => rfl
    | some me =>
      cases hu : ciphers.unwrap me.privateKey m.content with
      | error e => simp only [hu]
      | ok bs =>
        cases hb : Block.ofBytes? 16 bs <;> simp [hu, hb]
  | text => dsimp only; split <;> rfl
  | _ => rfl

/-- A text or a file comes to what it does under the key that is held for its sender. -/
theorem judge_outcome (s : Session) (m : QueuedMessage) (h : m.kind.isContent = true) :
    (s.judge ciphers m).1 = contentOutcome ciphers (s.keys.lookup m.sender) m := by
  unfold judge contentOutcome openContent
  cases hk : m.kind with
  | text =>
    rw [KeyRing.has_eq_isSome_lookup]
    cases s.keys.lookup m.sender with
    | none => simp
    | some key =>
      by_cases hc : m.content = []
      · simp [hc]
      · cases hdecrypt : ciphers.decrypt key m.content <;> simp [hc, hdecrypt]
  | file =>
    cases s.keys.lookup m.sender with
    | none => rfl
    | some key => cases hdecrypt : ciphers.decrypt key m.content <;> simp [hdecrypt]
  | _ => rw [hk] at h; cases h

/-- A message changes no key but its sender's, and this one only if it brings a key. -/
theorem judge_lookup (s : Session) (m : QueuedMessage) (peer : ClientId) :
    (s.judge ciphers m).2.lookup peer =
      if m.sender = peer then (m.keyFor ciphers s.identity).or (s.keys.lookup peer) else s.keys.lookup peer := by
  rw [judge_keys]
  cases m.keyFor ciphers s.identity with
  | none => simp
  | some key => simp [eq_comm]

theorem absorb_session (s : Session) (m : QueuedMessage) :
    (s.absorb ciphers m).2 = { s with keys := (s.judge ciphers m).2 } := rfl

theorem absorbAll_cons (s : Session) (m : QueuedMessage) (ms : List QueuedMessage) :
    s.absorbAll ciphers (m :: ms) =
      ((s.absorb ciphers m).1 :: ((s.absorb ciphers m).2.absorbAll ciphers ms).1,
        ((s.absorb ciphers m).2.absorbAll ciphers ms).2) := rfl

/-- Taking in a batch changes the keys only, and those by the keys that the batch brings, in its order. -/
theorem absorbAll_session (s : Session) (ms : List QueuedMessage) :
    (s.absorbAll ciphers ms).2 = { s with
      keys := s.keys.establishAll (ms.filterMap (·.keyEvent? ciphers s.identity)) } := by
  induction ms generalizing s with
  | nil => rfl
  | cons m ms ih =>
    rw [absorbAll_cons, ih, absorb_session, judge_keys]
    cases hk : m.keyFor ciphers s.identity <;> simp [QueuedMessage.keyEvent?, KeyRing.establishAll, hk]

theorem absorb_received (s : Session) (m : QueuedMessage) :
    (s.absorb ciphers m).1 =
      ⟨m.messageId, m.sender, s.directory.nameOf? m.sender, m.kind, (s.judge ciphers m).1⟩ := rfl

theorem follow_cons (owner : Option Identity) (held : Option SymmetricKey) (m : QueuedMessage)
    (ms : List QueuedMessage) :
    follow ciphers owner held (m :: ms) =
      (if m.kind.isContent then
          contentOutcome ciphers held m :: (follow ciphers owner ((m.keyFor ciphers owner).or held) ms).1
        else (follow ciphers owner ((m.keyFor ciphers owner).or held) ms).1,
        (follow ciphers owner ((m.keyFor ciphers owner).or held) ms).2) := rfl

/-- Of a batch, the outcomes of one sender's texts and files and the key that is held for it afterwards depend on its
own messages and on the key that was held for it before. -/
theorem absorbAll_sender (s : Session) (ms : List QueuedMessage) (sender : ClientId) :
    (((s.absorbAll ciphers ms).1.filter fun r => r.sender = sender ∧ r.kind.isContent).map ReceivedMessage.outcome,
        (s.absorbAll ciphers ms).2.keys.lookup sender) =
      follow ciphers s.identity (s.keys.lookup sender) (ms.filter (·.sender = sender)) := by
  induction ms generalizing s with
  | nil => rfl
  | cons m ms ih =>
    have hrest := ih (s.absorb ciphers m).2
    rw [absorb_session] at hrest
    simp only [judge_lookup] at hrest
    rw [absorbAll_cons, absorb_session, List.filter_cons, List.filter_cons, absorb_received]
    by_cases hs : m.sender = sender
    · subst hs
      rw [if_pos rfl] at hrest
      rw [if_pos (decide_eq_true rfl), follow_cons, ← hrest]
      cases hc : m.kind.isContent with
      | false => simp
      | true => simp [judge_outcome, hc]
    · rw [if_neg hs] at hrest
      simpa [hs] using hrest

theorem follow_append (owner : Option Identity) (held : Option SymmetricKey) (earlier later : List QueuedMessage) :
    follow ciphers owner held (earlier ++ later) =
      ((follow ciphers owner held earlier).1 ++
          (follow ciphers owner (follow ciphers owner held earlier).2 later).1,
        (follow ciphers owner (follow ciphers owner held earlier).2 later).2) := by
  induction earlier generalizing held with
  | nil => rfl
  | cons m earlier ih =>
    rw [List.cons_append, follow_cons, follow_cons, ih]
    cases m.kind.isContent <;> rfl

/-- Every text and every file comes to something. -/
theorem length_follow (owner : Option Identity) (held : Option SymmetricKey) (ms : List QueuedMessage) :
    (follow ciphers owner held ms).1.length = (ms.filter (·.kind.isContent)).length := by
  induction ms generalizing held with
  | nil => rfl
  | cons m ms ih =>
    rw [follow_cons, List.filter_cons]
    cases m.kind.isContent with
    | false => exact ih _
    | true => exact congrArg (· + 1) (ih _)

/-- A batch can be taken in in two parts. -/
theorem absorbAll_append (s : Session) (earlier later : List QueuedMessage) :
    s.absorbAll ciphers (earlier ++ later) =
      ((s.absorbAll ciphers earlier).1 ++ ((s.absorbAll ciphers earlier).2.absorbAll ciphers later).1,
        ((s.absorbAll ciphers earlier).2.absorbAll ciphers later).2) := by
  induction earlier generalizing s with
  | nil => rfl
  | cons m earlier ih =>
    rw [List.cons_append, absorbAll_cons, absorbAll_cons, ih]
    rfl

@[simp] theorem length_absorbAll (s : Session) (ms : List QueuedMessage) :
    (s.absorbAll ciphers ms).1.length = ms.length := by
  induction ms generalizing s with
  | nil => rfl
  | cons m ms ih => exact congrArg (· + 1) (ih _)

/-- What comes of one message of a batch is what comes of it alone, after those before it. -/
theorem getElem?_absorbAll (s : Session) (earlier later : List QueuedMessage) (m : QueuedMessage) :
    (s.absorbAll ciphers (earlier ++ m :: later)).1[earlier.length]? =
      some ((s.absorbAll ciphers earlier).2.absorb ciphers m).1 := by
  rw [absorbAll_append, List.getElem?_append_right (by simp), length_absorbAll, Nat.sub_self]
  rfl

structure AlikeFor (peer : ClientId) (s t : Session) : Prop where
  identity : s.identity = t.identity
  directory : s.directory = t.directory
  held : s.keys.lookup peer = t.keys.lookup peer

variable {ciphers} {peer : ClientId} {s t : Session} {m : QueuedMessage}

/-- One message keeps two sessions alike for a peer. -/
theorem AlikeFor.absorb (h : AlikeFor peer s t) : AlikeFor peer (s.absorb ciphers m).2 (t.absorb ciphers m).2 where
  identity := h.identity
  directory := h.directory
  held := by
    rw [absorb_session, absorb_session]
    simp only [judge_lookup, h.identity, h.held]

/-- Another sender's message makes no difference for a peer. -/
theorem AlikeFor.absorb_other (h : AlikeFor peer s t) (other : m.sender ≠ peer) :
    AlikeFor peer (s.absorb ciphers m).2 t where
  identity := h.identity
  directory := h.directory
  held := by
    rw [absorb_session]
    simp only [judge_lookup, if_neg other, h.held]

/-- What comes of a message hangs on the key that is held for its sender, and on no other key. -/
theorem AlikeFor.received (h : AlikeFor m.sender s t) : (s.absorb ciphers m).1 = (t.absorb ciphers m).1 := by
  have houtcome : (s.judge ciphers m).1 = (t.judge ciphers m).1 := by
    by_cases hcontent : m.kind.isContent = true
    · rw [judge_outcome ciphers s m hcontent, judge_outcome ciphers t m hcontent, h.held]
    · unfold judge unwrapKey
      rw [h.identity]
      cases hkind : m.kind with
      | keyRequest => rfl
      | keySend => dsimp only; split <;> rfl
      | unknown byte => rfl
      | text => exact absurd (hkind ▸ rfl) hcontent
      | file => exact absurd (hkind ▸ rfl) hcontent
  rw [absorb_received, absorb_received, houtcome, h.directory]

variable (ciphers) in
/-- A batch without the messages of others comes to what its own messages come to among them. -/
theorem AlikeFor.absorbAll_filter (h : AlikeFor peer s t) (ms : List QueuedMessage) :
    (t.absorbAll ciphers (ms.filter (·.sender = peer))).1 =
        (s.absorbAll ciphers ms).1.filter (·.sender = peer) ∧
      AlikeFor peer (s.absorbAll ciphers ms).2 (t.absorbAll ciphers (ms.filter (·.sender = peer))).2 := by
  induction ms generalizing s t with
  | nil => exact ⟨rfl, h⟩
  | cons m ms ih =>
    rw [absorbAll_cons, List.filter_cons, List.filter_cons, absorb_received]
    by_cases hm : m.sender = peer
    · subst hm
      obtain ⟨hrest, hlast⟩ := ih h.absorb
      rw [if_pos (decide_eq_true rfl), if_pos (decide_eq_true rfl), absorbAll_cons, ← absorb_received, hrest,
      h.received]
      exact ⟨rfl, hlast⟩
    · obtain ⟨hrest, hlast⟩ := ih (h.absorb_other hm)
      rw [if_neg (by simpa using hm), if_neg (by simpa using hm), hrest]
      exact ⟨rfl, hlast⟩

end Session

end SealedPost
