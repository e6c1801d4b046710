import SealedPost.Proofs.Lanes
import SealedPost.Proofs.Transparency

/-! The keys that two clients hold for each other once no key waits for either: the one that was sent last, unless it
crossed another on the way. -/
namespace SealedPost

namespace Session

/-- Where a key waits that opens, the key that is held before does not matter to the one that is held after. -/
theorem follow_opened (ciphers : Ciphers) (owner : Option Identity) (ms : List QueuedMessage)
    (opens : ∀ m ∈ ms, m.kind = .keySend → (m.keyFor ciphers owner).isSome) (brings : ∃ m ∈ ms, m.kind = .keySend)
    (held held' : Option SymmetricKey) : (follow ciphers owner held ms).2 = (follow ciphers owner held' ms).2 := by
  induction ms generalizing held held' with
  | nil =>
    obtain ⟨m, hm, -⟩ := brings
    cases hm
  | cons m ms ih =>
    rw [follow_cons, follow_cons]
    by_cases hkind : m.kind = .keySend
    · obtain ⟨key, hkey⟩ := Option.isSome_iff_exists.1 (opens m List.mem_cons_self hkind)
      rw [hkey]
      rfl
    · obtain ⟨m', hm', hbrings⟩ := brings
      rcases List.mem_cons.1 hm' with rfl | hrest
      · exact absurd hbrings hkind
      · exact ih (fun m hm => opens m (List.mem_cons_of_mem _ hm)) ⟨m', hrest, hbrings⟩ _ _

end Session

variable {ι c : Type} {suite : CipherSuite (StateM c)}

namespace Network

def KeyWaits (net : Network ι c) (lane : Lane ι) : Prop :=
  ∃ m ∈ net.queued lane, m.kind = .keySend

instance (net : Network ι c) (lane : Lane ι) : Decidable (net.KeyWaits lane) :=
  inferInstanceAs (Decidable (∃ m ∈ net.queued lane, _))

theorem KeyWaits.of_queued {net after : Network ι c} {lane : Lane ι} (same : after.queued lane = net.queued lane)
    (h : after.KeyWaits lane) : net.KeyWaits lane := by
  obtain ⟨m, hm, hkind⟩ := h
  exact ⟨m, same ▸ hm, hkind⟩

/-- Every key that waits on a lane opens for the client at its end. -/
theorem Sound.queued_opens {net : Network ι c} (sound : net.Sound suite) {lane : Lane ι} (between : net.Between lane) :
    ∀ m ∈ net.queued lane, m.kind = .keySend →
      (m.keyFor suite.toCiphers (net.sessions lane.receiver).identity).isSome := by
  intro m hm hkind
  obtain ⟨entry, hentry, rfl⟩ := List.mem_map.1 (List.mem_filter.1 hm).1
  obtain ⟨hwaits, htarget⟩ := List.mem_filter.1 hentry
  obtain ⟨i, me, hi, hid, hopens⟩ := (sound.filed entry hwaits).opens hkind
  obtain rfl := (between.receiver i me hi).1 (hid.trans (of_decide_eq_true htarget))
  rw [hi]
  exact hopens

/-- Where nothing waits that brings a key, replaying leaves the key that is held. -/
theorem replayed_held {net : Network ι c} {lane : Lane ι} (quiet : ¬net.KeyWaits lane) :
    ((net.view lane).replayed suite.toCiphers).2 = net.held lane :=
  Session.follow_keyless _ _ _ _ fun m hm hkind => quiet ⟨m, hm, hkind⟩

end Network

section history

variable [DecidableEq ι] (lane : Lane ι)

/-- The key that a turn sends over a lane with success, as its sender holds it then. -/
def Turn.sharedKey (turn : Turn ι c) : Option SymmetricKey :=
  if turn.shares lane then turn.after.held lane.reverse else none

def lastShared (history : List (Turn ι c)) : Option SymmetricKey :=
  (history.filterMap (Turn.sharedKey lane)).getLast?

def lastEither (history : List (Turn ι c)) : Option SymmetricKey :=
  (history.filterMap fun turn => (turn.sharedKey lane).or (turn.sharedKey lane.reverse)).getLast?

/-- Whether a turn sends a key over a lane while one waits on the way back. -/
def Turn.crosses (turn : Turn ι c) : Bool :=
  turn.shares lane && turn.before.KeyWaits lane.reverse

/-- Whether the last turn that sent a key over a lane or back crossed another key. -/
def crossed (history : List (Turn ι c)) : Bool :=
  (history.filter fun turn => turn.shares lane || turn.shares lane.reverse).getLast?.any fun turn =>
    turn.crosses lane || turn.crosses lane.reverse

theorem lastShared_concat (history : List (Turn ι c)) (turn : Turn ι c) :
    lastShared lane (history ++ [turn]) = (turn.sharedKey lane).or (lastShared lane history) := by
  unfold lastShared
  rw [List.filterMap_append, List.getLast?_append]
  cases h : turn.sharedKey lane <;> simp [h]

/-- The last key is the one that the last turn sent, or the last one before it. -/
theorem lastEither_concat (history : List (Turn ι c)) (turn : Turn ι c) :
    lastEither lane (history ++ [turn]) =
      ((turn.sharedKey lane).or (turn.sharedKey lane.reverse)).or (lastEither lane history) := by
  unfold lastEither
  rw [List.filterMap_append, List.getLast?_append]
  cases h : (turn.sharedKey lane).or (turn.sharedKey lane.reverse) <;> simp [h]

theorem crossed_concat (history : List (Turn ι c)) (turn : Turn ι c) :
    crossed lane (history ++ [turn]) =
      if turn.shares lane || turn.shares lane.reverse then turn.crosses lane || turn.crosses lane.reverse
      else crossed lane history := by
  unfold crossed
  rw [List.filter_append, List.getLast?_append]
  cases h : turn.shares lane || turn.shares lane.reverse <;> simp [h]

variable {lane} {turn : Turn ι c} {history : List (Turn ι c)}

theorem Turn.shares_eq_false (other : ∀ peer, turn.operation ≠ .sendKey peer) : turn.shares lane = false := by
  unfold Turn.shares
  split
  · next peer reply operation result => exact absurd operation (other peer)
  · rfl

theorem Turn.shares_client (h : turn.shares lane = true) : turn.client = lane.sender := by
  unfold Turn.shares at h
  split at h
  · exact (of_decide_eq_true h).1
  · cases h

/-- No turn sends a key both ways. -/
theorem Turn.shares_reverse (apart : lane.sender ≠ lane.receiver) (h : turn.shares lane = true) :
    turn.shares lane.reverse = false := by
  cases hback : turn.shares lane.reverse with
  | false => rfl
  | true => exact absurd ((Turn.shares_client h).symm.trans (Turn.shares_client hback)) apart

/-- Which way a lane is looked at makes no difference for the last key sent over it or back. -/
theorem lastEither_reverse (apart : lane.sender ≠ lane.receiver) (history : List (Turn ι c)) :
    lastEither lane.reverse history = lastEither lane history := by
  unfold lastEither
  congr 2
  funext turn
  change (turn.sharedKey lane.reverse).or (turn.sharedKey lane) = (turn.sharedKey lane).or (turn.sharedKey lane.reverse)
  unfold Turn.sharedKey
  cases hthere : turn.shares lane with
  | false => simp
  | true => simp [Turn.shares_reverse apart hthere]

theorem crossed_reverse (history : List (Turn ι c)) : crossed lane.reverse history = crossed lane history := by
  unfold crossed
  simp only [Bool.or_comm (Turn.shares lane.reverse _), Bool.or_comm (Turn.crosses lane.reverse _)]
  rfl

end history

/-- What replaying what waits over a lane and back comes to: the key that was sent last, for both, or for each the key
that the other sent last, if the last crossed another. The latter holds of every key that waits. -/
structure Agreed (suite : CipherSuite (StateM c)) [DecidableEq ι] (lane : Lane ι) (history : List (Turn ι c))
    (net : Network ι c) : Prop where
  there : net.KeyWaits lane → ((net.view lane).replayed suite.toCiphers).2 = lastShared lane history
  back : net.KeyWaits lane.reverse →
    ((net.view lane.reverse).replayed suite.toCiphers).2 = lastShared lane.reverse history
  straight : crossed lane history = false →
    ((net.view lane).replayed suite.toCiphers).2 = lastEither lane history ∧
      ((net.view lane.reverse).replayed suite.toCiphers).2 = lastEither lane history
  crossing : crossed lane history = true →
    ((net.view lane).replayed suite.toCiphers).2 = lastShared lane history ∧
      ((net.view lane.reverse).replayed suite.toCiphers).2 = lastShared lane.reverse history

namespace Agreed

variable [DecidableEq ι] {lane : Lane ι} {history : List (Turn ι c)} {turn : Turn ι c} {net : Network ι c}

theorem reverse (h : Agreed suite lane history net) (apart : lane.sender ≠ lane.receiver) :
    Agreed suite lane.reverse history net where
  there := h.back
  back := h.there
  straight := by
    rw [crossed_reverse, lastEither_reverse apart]
    exact fun hnot => (h.straight hnot).symm
  crossing := by
    rw [crossed_reverse]
    exact fun hcrossed => (h.crossing hcrossed).symm

/-- A turn that sends no key and changes nothing of what replaying comes to. -/
theorem keeps (h : Agreed suite lane history turn.before) (there : turn.shares lane = false)
    (back : turn.shares lane.reverse = false)
    (replayed : ((turn.after.view lane).replayed suite.toCiphers).2 =
      ((turn.before.view lane).replayed suite.toCiphers).2)
    (replayedBack : ((turn.after.view lane.reverse).replayed suite.toCiphers).2 =
      ((turn.before.view lane.reverse).replayed suite.toCiphers).2)
    (waits : turn.after.KeyWaits lane → turn.before.KeyWaits lane)
    (waitsBack : turn.after.KeyWaits lane.reverse → turn.before.KeyWaits lane.reverse) :
    Agreed suite lane (history ++ [turn]) turn.after := by
  have hthere : turn.sharedKey lane = none := if_neg (there ▸ Bool.false_ne_true)
  have hback : turn.sharedKey lane.reverse = none := if_neg (back ▸ Bool.false_ne_true)
  have hcrossed : crossed lane (history ++ [turn]) = crossed lane history := by
    rw [crossed_concat, there, back]
    rfl
  have hlast : lastShared lane (history ++ [turn]) = lastShared lane history := by
    rw [lastShared_concat, hthere, Option.none_or]
  have hlastBack : lastShared lane.reverse (history ++ [turn]) = lastShared lane.reverse history := by
    rw [lastShared_concat, hback, Option.none_or]
  have heither : lastEither lane (history ++ [turn]) = lastEither lane history := by
    rw [lastEither_concat, hthere, hback, Option.none_or, Option.none_or]
  constructor
  · rw [replayed, hlast]
    exact fun hwaits => h.there (waits hwaits)
  · rw [replayedBack, hlastBack]
    exact fun hwaits => h.back (waitsBack hwaits)
  · rw [replayed, replayedBack, hcrossed, heither]
    exact h.straight
  · rw [replayed, replayedBack, hcrossed, hlast, hlastBack]
    exact h.crossing

/-- A turn that sends a key over the lane. Its sender holds that key until it takes in one that waits for it. -/
theorem shared (h : Agreed suite lane history turn.before) (sound : turn.before.Sound suite)
    (between : turn.before.Between lane) {m : QueuedMessage} {key : SymmetricKey} (shares : turn.shares lane = true)
    (opens : m.keyFor suite.toCiphers (turn.before.view lane).owner = some key)
    (there : turn.after.view lane = (turn.before.view lane).push m)
    (back : turn.after.view lane.reverse = { turn.before.view lane.reverse with held := some key }) :
    Agreed suite lane (history ++ [turn]) turn.after := by
  have hsharesBack : turn.shares lane.reverse = false := Turn.shares_reverse between.apart shares
  have hkey : turn.sharedKey lane = some key := (if_pos shares).trans (congrArg View.held back)
  have hkeyBack : turn.sharedKey lane.reverse = none := if_neg (hsharesBack ▸ Bool.false_ne_true)
  have hlast : lastShared lane (history ++ [turn]) = some key := by
    rw [lastShared_concat, hkey, Option.some_or]
  have hlastBack : lastShared lane.reverse (history ++ [turn]) = lastShared lane.reverse history := by
    rw [lastShared_concat, hkeyBack, Option.none_or]
  have heither : lastEither lane (history ++ [turn]) = some key := by
    rw [lastEither_concat, hkey, Option.some_or, Option.some_or]
  have hcrossed : crossed lane (history ++ [turn]) = decide (turn.before.KeyWaits lane.reverse) := by
    rw [crossed_concat, Turn.crosses, Turn.crosses, shares, hsharesBack]
    simp
  have hthere : ((turn.after.view lane).replayed suite.toCiphers).2 = some key := by
    rw [there, View.replayed_push, Session.follow_cons, opens]
    rfl
  have hback : ((turn.after.view lane.reverse).replayed suite.toCiphers).2 =
      (Session.follow suite.toCiphers (turn.before.view lane.reverse).owner (some key)
        (turn.before.queued lane.reverse)).2 := by
    rw [back]
    rfl
  -- A key that waits takes the place of the one just sent, as it would have without it.
  have hwaiting (hwaits : turn.before.KeyWaits lane.reverse) :
      ((turn.after.view lane.reverse).replayed suite.toCiphers).2 = lastShared lane.reverse (history ++ [turn]) := by
    rw [hback, hlastBack, ← h.back hwaits]
    exact Session.follow_opened _ _ _ (sound.queued_opens between.reverse) hwaits _ _
  constructor
  · exact fun _ => hthere.trans hlast.symm
  · exact fun hwaits => hwaiting (hwaits.of_queued (congrArg View.queued back))
  · intro hnot
    rw [hcrossed] at hnot
    refine ⟨hthere.trans heither.symm, hback.trans ?_⟩
    rw [heither]
    exact Session.follow_keyless _ _ _ _ fun m hm hkind => of_decide_eq_false hnot ⟨m, hm, hkind⟩
  · intro hcrosses
    rw [hcrossed] at hcrosses
    exact ⟨hthere.trans hlast.symm, hwaiting (of_decide_eq_true hcrosses)⟩

/-- A turn that passes something over the lane. -/
theorem passes (h : Agreed suite lane history turn.before) (sound : turn.before.Sound suite)
    (between : turn.before.Between lane) (passes : turn.Passes suite lane) :
    Agreed suite lane (history ++ [turn]) turn.after := by
  cases passes with
  | @posted m receipt client posts result there back =>
    have hother (peer : ClientId) : turn.operation ≠ .sendKey peer := by
      intro heq
      rw [heq] at posts
      cases posts
    have hkind : m.kind ≠ .keySend := posts.kind_ne_keySend
    refine h.keeps (Turn.shares_eq_false hother) (Turn.shares_eq_false hother) ?_ (by rw [back]) ?_ ?_
    · rw [there, View.replayed_push]
      exact Session.follow_keyless _ _ _ [m] fun m' hm' => List.mem_singleton.1 hm' ▸ hkind
    · rintro ⟨m', hm', hbrings⟩
      have hqueued : turn.after.queued lane = turn.before.queued lane ++ [m] := congrArg View.queued there
      rw [hqueued] at hm'
      rcases List.mem_append.1 hm' with hold | hnew
      · exact ⟨m', hold, hbrings⟩
      · exact absurd (List.mem_singleton.1 hnew ▸ hbrings) hkind
    · exact Network.KeyWaits.of_queued (congrArg View.queued back)
  | @shared m key receipt client operation result kind opens there back =>
    exact h.shared sound between (Turn.shares_of_sendKey client operation result) opens there back
  | @collected received client operation result shown there back =>
    have hother (peer : ClientId) : turn.operation ≠ .sendKey peer := by
      rw [operation]
      exact nofun
    refine h.keeps (Turn.shares_eq_false hother) (Turn.shares_eq_false hother) ?_ (by rw [back]) ?_ ?_
    · rw [there, View.replayed_emptied]
    · rintro ⟨m, hm, -⟩
      have hqueued : turn.after.queued lane = [] := congrArg View.queued there
      rw [hqueued] at hm
      cases hm
    · exact Network.KeyWaits.of_queued (congrArg View.queued back)

theorem aside (h : Agreed suite lane history turn.before) (there : turn.Aside suite lane)
    (back : turn.Aside suite lane.reverse) : Agreed suite lane (history ++ [turn]) turn.after :=
  h.keeps there.shares back.shares (congrArg Prod.snd there.replayed) (congrArg Prod.snd back.replayed)
    (Network.KeyWaits.of_queued there.queued) (Network.KeyWaits.of_queued back.queued)

end Agreed

/-- The two ends of a lane stay agreed, turn after turn. -/
theorem Network.Reaches.agreed [DecidableEq ι] {ids : Nat → ClientId} {sources : ι → c} {history : List (Turn ι c)}
    {net : Network ι c} (h : Reaches suite (Network.start ids sources) history net) (unwraps : suite.Unwraps)
    (distinct : net.Distinct) {lane : Lane ι} (between : net.Between lane) : Agreed suite lane history net := by
  induction h with
  | start => exact ⟨fun _ => rfl, fun _ => rfl, fun _ => ⟨rfl, rfl⟩, nofun⟩
  | @turn history net earlier client op fits ih =>
    have hhappens : Happens suite net client op _ _ := turn_happens earlier.inOrder fits
    have hbefore := hhappens.grows.distinct distinct
    have hsound := earlier.sound unwraps hbefore
    have hbetween := hhappens.grows.between between
    have hagreed := ih hbefore hbetween
    rcases hhappens.passes hsound unwraps distinct between with hthere | hback | ⟨hthere, hback⟩
    · exact hagreed.passes hsound hbetween hthere
    · exact ((hagreed.reverse between.apart).passes hsound hbetween.reverse hback).reverse between.reverse.apart
    · exact hagreed.aside hthere hback

/-- However the turns of any clients interleave, two of them that have no key waiting from each other hold the same key
for each other, the one that was sent last, or none if none was. Only if one waited for the client that sent the last
one does each hold what the other sent last. -/
theorem Network.keys_agree_unless_crossed [DecidableEq ι] {ids : Nat → ClientId} {sources : ι → c}
    {history : List (Turn ι c)} {net : Network ι c} {a b : ι} {me you : Identity} (unwraps : suite.Unwraps)
    (reaches : Reaches suite (Network.start ids sources) history net) (distinct : net.Distinct) (apart : a ≠ b)
    (ha : (net.sessions a).identity = some me) (hb : (net.sessions b).identity = some you) :
    let lane : Lane ι := ⟨a, b, me.id, you.id⟩
    let keyOfA := (net.sessions a).keys.lookup you.id
    let keyOfB := (net.sessions b).keys.lookup me.id
    ¬net.KeyWaits lane → ¬net.KeyWaits lane.reverse →
      (crossed lane history = false → keyOfA = keyOfB ∧ keyOfB = lastEither lane history) ∧
      (crossed lane history = true → keyOfA = lastShared lane.reverse history ∧ keyOfB = lastShared lane history) := by
  intro lane keyOfA keyOfB quiet quietBack
  have hagreed : Agreed suite lane history net :=
    reaches.agreed unwraps distinct ((reaches.sound unwraps distinct).between apart ha hb)
  have hkeyOfB : ((net.view lane).replayed suite.toCiphers).2 = keyOfB := replayed_held quiet
  have hkeyOfA : ((net.view lane.reverse).replayed suite.toCiphers).2 = keyOfA := replayed_held quietBack
  constructor
  · intro hstraight
    obtain ⟨hthere, hback⟩ := hagreed.straight hstraight
    rw [hkeyOfB] at hthere
    rw [hkeyOfA] at hback
    exact ⟨hback.trans hthere.symm, hthere⟩
  · intro hcrossed
    obtain ⟨hthere, hback⟩ := hagreed.crossing hcrossed
    rw [hkeyOfB] at hthere
    rw [hkeyOfA] at hback
    exact ⟨hback, hthere⟩

open Transparent in
theorem Network.key_sent_back_is_shared :
    let script : List (Bool × Operation) :=
      [(false, .sendKey bob.id), (true, .fetchWaiting), (true, .sendKey alice.id), (false, .fetchWaiting)]
    ((run script).2.sessions false).keys.lookup bob.id = ((run script).2.sessions true).keys.lookup alice.id ∧
      ((run script).2.sessions true).keys.lookup alice.id = some ⟨.replicate 16 21⟩ := by
  intro script
  have hlast : lastEither ⟨false, true, alice.id, bob.id⟩ (run script).1 = some ⟨.replicate 16 21⟩ := by decide +kernel
  obtain ⟨hstraight, -⟩ := Network.keys_agree_unless_crossed counter_unwraps
    (reaches_run script (by decide +kernel)) (by decide +kernel) Bool.false_ne_true
    (show ((run script).2.sessions false).identity = some alice by decide +kernel)
    (show ((run script).2.sessions true).identity = some bob by decide +kernel) (by decide +kernel) (by decide +kernel)
  obtain ⟨hagree, hkey⟩ := hstraight (by decide +kernel)
  exact ⟨hagree, hkey.trans hlast⟩

open Transparent in
/-- Two keys that cross are exchanged, not agreed on. -/
theorem Network.crossed_keys_differ :
    let script : List (Bool × Operation) :=
      [(false, .sendKey bob.id), (true, .sendKey alice.id), (false, .fetchWaiting), (true, .fetchWaiting)]
    let net := (run script).2
    let lane : Lane Bool := ⟨false, true, alice.id, bob.id⟩
    (Transparent.suite counter).Unwraps ∧ Reaches (Transparent.suite counter) clients (run script).1 net ∧
      net.Distinct ∧
      (net.sessions false).identity = some alice ∧ (net.sessions true).identity = some bob ∧
      ¬net.KeyWaits lane ∧ ¬net.KeyWaits lane.reverse ∧
      ∃ keyOfA keyOfB, (net.sessions false).keys.lookup bob.id = some keyOfA ∧
        (net.sessions true).keys.lookup alice.id = some keyOfB ∧ keyOfA ≠ keyOfB := by
  intro script net lane
  refine ⟨counter_unwraps, reaches_run script (by decide +kernel), by decide +kernel, by decide +kernel,
    by decide +kernel, by decide +kernel, by decide +kernel, ⟨.replicate 16 21⟩, ⟨.replicate 16 11⟩, ?_⟩
  decide +kernel

end SealedPost
