import Mathlib.Data.Finmap
import SealedPost.KeyRing

/-! The key ring is a finite map from peers to keys: what it answers after any changes is told by the changes alone, and
changes for different peers can be made in either order. -/
namespace SealedPost.KeyRing

abbrev KeyMap := Finmap fun _ : ClientId => SymmetricKey

inductive Change where
  | establish (peer : ClientId) (key : SymmetricKey)
  | forget (peer : ClientId)
deriving DecidableEq

namespace Change

def peer : Change → ClientId
  | establish peer _ => peer
  | forget peer => peer

def key? : Change → Option SymmetricKey
  | establish _ key => some key
  | forget _ => none

def onMap (map : KeyMap) : Change → KeyMap
  | establish peer key => map.insert peer key
  | forget peer => map.erase peer

theorem lookup_onMap (map : KeyMap) (change : Change) (peer : ClientId) :
    (change.onMap map).lookup peer = if change.peer = peer then change.key? else map.lookup peer := by
  split
  next h =>
    subst h
    cases change with
    | establish peer key => exact Finmap.lookup_insert map
    | forget peer => exact Finmap.lookup_erase peer map
  next h =>
    cases change with
    | establish other key => exact Finmap.lookup_insert_of_ne map (Ne.symm h)
    | forget other => exact Finmap.lookup_erase_ne (Ne.symm h)

/-- Changes for different peers can be made in either order. -/
theorem onMap_comm {a b : Change} (h : a.peer ≠ b.peer) (map : KeyMap) :
    b.onMap (a.onMap map) = a.onMap (b.onMap map) := by
  refine Finmap.ext_lookup fun peer => ?_
  simp only [lookup_onMap]
  by_cases ha : a.peer = peer
  · rw [if_pos ha, if_pos ha, if_neg fun hb => h (ha.trans hb.symm)]
  · rw [if_neg ha, if_neg ha]

end Change

/-- Makes a change. Only forgetting tells something, namely whether there was a key. -/
def apply (ring : KeyRing) : Change → Option Bool × KeyRing
  | .establish peer key => (none, ring.establish peer key)
  | .forget peer => (some (ring.forget peer).1, (ring.forget peer).2)

def run (ring : KeyRing) : List Change → List (Option Bool) × KeyRing
  | [] => ([], ring)
  | change :: later =>
    ((ring.apply change).1 :: ((ring.apply change).2.run later).1, ((ring.apply change).2.run later).2)

/-- A key stands for a peer after the changes: it is the last that was established for it, and the peer was not
forgotten since. -/
def Stands (changes : List Change) (peer : ClientId) (key : SymmetricKey) : Prop :=
  ∃ earlier later, changes = earlier ++ .establish peer key :: later ∧ ∀ change ∈ later, change.peer ≠ peer

structure Alike (ring other : KeyRing) : Prop where
  lookup : ∀ peer, ring.lookup peer = other.lookup peer
  has : ∀ peer, ring.has peer = other.has peer
  state : ∀ peer, ring.state peer = other.state peer
  size : ring.size = other.size
  isEmpty : ring.isEmpty = other.isEmpty

section map

private theorem dlookup_map (entries : List (ClientId × SymmetricKey)) (peer : ClientId) :
    (entries.map fun entry => (⟨entry.1, entry.2⟩ : Σ _ : ClientId, SymmetricKey)).dlookup peer =
      (entries.find? (·.1 = peer)).map Prod.snd := by
  induction entries with
  | nil => rfl
  | cons entry rest ih =>
    by_cases h : entry.1 = peer
    · subst h
      simp
    · simpa [h, Ne.symm h] using ih

def toFinmap (ring : KeyRing) : KeyMap :=
  AList.toFinmap {
    entries := ring.entries.map fun entry => ⟨entry.1, entry.2⟩
    nodupKeys := by
      rw [List.NodupKeys, List.keys, List.map_map]
      exact ring.distinct }

@[simp] theorem lookup_toFinmap (ring : KeyRing) (peer : ClientId) : ring.toFinmap.lookup peer = ring.lookup peer :=
  (Finmap.lookup_toFinmap peer _).trans (dlookup_map ring.entries peer)

theorem mem_toFinmap {ring : KeyRing} {peer : ClientId} : peer ∈ ring.toFinmap ↔ ring.has peer = true := by
  rw [← Finmap.lookup_isSome, lookup_toFinmap, has_eq_isSome_lookup]

/-- The entries are counted by their peers. -/
theorem card_keys_toFinmap (ring : KeyRing) : ring.toFinmap.keys.card = ring.size := by
  rw [Finset.card_def, toFinmap, Finmap.keys_val, Multiset.coe_card, AList.keys, List.keys, List.length_map,
    List.length_map, size]

/-- A change is seen by its own peer alone. -/
theorem lookup_apply (ring : KeyRing) (change : Change) (peer : ClientId) :
    (ring.apply change).2.lookup peer = if change.peer = peer then change.key? else ring.lookup peer := by
  cases change with
  | establish other key =>
    rw [apply, lookup_establish]
    simp only [Change.peer, Change.key?, eq_comm]
  | forget other =>
    rw [apply, forget, lookup_without]
    simp only [Change.peer, Change.key?, eq_comm]

/-- A change of the ring is that change of its map. -/
theorem toFinmap_apply (ring : KeyRing) (change : Change) :
    (ring.apply change).2.toFinmap = change.onMap ring.toFinmap := by
  refine Finmap.ext_lookup fun peer => ?_
  rw [lookup_toFinmap, lookup_apply, Change.lookup_onMap, lookup_toFinmap]

/-- A run of changes is a run on the map of the keys. -/
theorem toFinmap_run (ring : KeyRing) (changes : List Change) :
    (ring.run changes).2.toFinmap = changes.foldl Change.onMap ring.toFinmap := by
  induction changes generalizing ring with
  | nil => rfl
  | cons change later ih => rw [run, ih, toFinmap_apply, List.foldl_cons]

theorem isEmpty_iff_size (ring : KeyRing) : ring.isEmpty = true ↔ ring.size = 0 :=
  List.isEmpty_iff_length_eq_zero

/-- What the ring answers is told by the map. -/
theorem Alike.of_toFinmap {ring other : KeyRing} (h : ring.toFinmap = other.toFinmap) : Alike ring other := by
  have hlookup (peer : ClientId) : ring.lookup peer = other.lookup peer := by
    rw [← lookup_toFinmap, h, lookup_toFinmap]
  have hhas (peer : ClientId) : ring.has peer = other.has peer := by
    rw [has_eq_isSome_lookup, hlookup, has_eq_isSome_lookup]
  have hstate (peer : ClientId) : ring.state peer = other.state peer := by
    rw [KeyRing.state, hhas, KeyRing.state]
  have hsize : ring.size = other.size := by
    rw [← card_keys_toFinmap, h, card_keys_toFinmap]
  have hempty : ring.isEmpty = other.isEmpty := by
    rw [Bool.eq_iff_iff, isEmpty_iff_size, isEmpty_iff_size, hsize]
  exact ⟨hlookup, hhas, hstate, hsize, hempty⟩

end map

section run

variable {ring other : KeyRing}

/-- What a change tells depends on the key of its own peer alone. -/
theorem told_congr {change : Change} (h : ring.lookup change.peer = other.lookup change.peer) :
    (ring.apply change).1 = (other.apply change).1 := by
  cases change with
  | establish peer key => rfl
  | forget peer =>
    change some (ring.has peer) = some (other.has peer)
    rw [has_eq_isSome_lookup, has_eq_isSome_lookup]
    exact congrArg (fun key => some key.isSome) h

theorem run_congr (h : ring.toFinmap = other.toFinmap) (changes : List Change) :
    (ring.run changes).1 = (other.run changes).1 := by
  induction changes generalizing ring other with
  | nil => rfl
  | cons change later ih =>
    have hnext : (ring.apply change).2.toFinmap = (other.apply change).2.toFinmap := by
      rw [toFinmap_apply, toFinmap_apply, h]
    rw [run, run, told_congr ((Alike.of_toFinmap h).lookup change.peer), ih hnext]

theorem run_append (ring : KeyRing) (changes later : List Change) :
    ring.run (changes ++ later) = ((ring.run changes).1 ++ ((ring.run changes).2.run later).1,
      ((ring.run changes).2.run later).2) := by
  induction changes generalizing ring with
  | nil => rfl
  | cons change changes ih => rw [List.cons_append, run, ih, run, List.cons_append]

theorem length_run (ring : KeyRing) (changes : List Change) : (ring.run changes).1.length = changes.length := by
  induction changes generalizing ring with
  | nil => rfl
  | cons change later ih => rw [run, List.length_cons, ih, List.length_cons]

theorem told_run (ring : KeyRing) (earlier : List Change) (change : Change) (later : List Change) :
    (ring.run (earlier ++ change :: later)).1[earlier.length]? = some ((ring.run earlier).2.apply change).1 := by
  rw [run_append, ← length_run ring earlier, List.getElem?_append_right (Nat.le_refl _), Nat.sub_self]
  rfl

/-- Changes for different peers can be made in either order: each tells the same, and so does every change after them,
and the rings that come out are alike. -/
theorem run_comm (ring : KeyRing) {a b : Change} (h : a.peer ≠ b.peer) (later : List Change) :
    ∃ toldA toldB told, (ring.run (a :: b :: later)).1 = toldA :: toldB :: told ∧
      (ring.run (b :: a :: later)).1 = toldB :: toldA :: told ∧
      Alike (ring.run (a :: b :: later)).2 (ring.run (b :: a :: later)).2 := by
  have hmaps : ((ring.apply a).2.apply b).2.toFinmap = ((ring.apply b).2.apply a).2.toFinmap := by
    simp only [toFinmap_apply]
    exact Change.onMap_comm h ring.toFinmap
  have hb : ((ring.apply a).2.apply b).1 = (ring.apply b).1 :=
    told_congr ((lookup_apply ring a b.peer).trans (if_neg h))
  have ha : ((ring.apply b).2.apply a).1 = (ring.apply a).1 :=
    told_congr ((lookup_apply ring b a.peer).trans (if_neg (Ne.symm h)))
  refine ⟨(ring.apply a).1, (ring.apply b).1, (((ring.apply a).2.apply b).2.run later).1, ?_, ?_, ?_⟩
  · rw [run, run, hb]
  · rw [run, run, ha, run_congr hmaps]
  · refine .of_toFinmap ?_
    rw [run, run, run, run, toFinmap_run, toFinmap_run, hmaps]

end run

section history

variable {changes : List Change} {peer : ClientId} {key : SymmetricKey}

/-- The last change decides for its own peer and nothing for another. -/
theorem stands_concat {change : Change} : Stands (changes ++ [change]) peer key ↔
    if change.peer = peer then change.key? = some key else Stands changes peer key := by
  constructor
  · rintro ⟨earlier, later, h, quiet⟩
    rcases List.eq_nil_or_concat later with rfl | ⟨later, last, rfl⟩
    · obtain ⟨rfl, hlast⟩ := List.append_inj' h rfl
      obtain rfl := List.singleton_inj.1 hlast
      exact (if_pos rfl).mpr rfl
    · rw [List.concat_eq_append, ← List.cons_append, ← List.append_assoc] at h
      obtain ⟨rfl, hlast⟩ := List.append_inj' h rfl
      obtain rfl := List.singleton_inj.1 hlast
      rw [if_neg (quiet change (by simp))]
      exact ⟨earlier, later, rfl, fun other hother => quiet other (by simp [hother])⟩
  · intro h
    split at h
    next hpeer =>
      cases change with
      | establish other fresh =>
        cases hpeer
        cases h
        exact ⟨changes, [], rfl, List.forall_mem_nil _⟩
      | forget other => cases h
    next hpeer =>
      obtain ⟨earlier, later, rfl, quiet⟩ := h
      refine ⟨earlier, later ++ [change], by simp, fun other hother => ?_⟩
      rcases List.mem_append.1 hother with hbefore | hlast
      · exact quiet other hbefore
      · rwa [List.mem_singleton.1 hlast]

/-- What a ring holds for a peer is what stands for it. The induction takes changes off the end, where the last one
decides. -/
theorem lookup_run_eq_some_iff : (empty.run changes).2.lookup peer = some key ↔ Stands changes peer key := by
  induction changes using List.reverseRecOn with
  | nil =>
    refine ⟨fun h => ?_, fun ⟨earlier, later, h, _⟩ => ?_⟩
    · cases h
    · simp at h
  | append_singleton changes change ih =>
    rw [stands_concat, run_append]
    change ((empty.run changes).2.apply change).2.lookup peer = some key ↔ _
    rw [lookup_apply]
    split
    · rfl
    · exact ih

/-- A peer has a key exactly if one stands for it. -/
theorem has_run_iff : (empty.run changes).2.has peer = true ↔ ∃ key, Stands changes peer key := by
  rw [has_eq_isSome_lookup, Option.isSome_iff_exists]
  exact exists_congr fun key => lookup_run_eq_some_iff

end history

theorem state_eq_keyEstablished_iff (ring : KeyRing) (peer : ClientId) :
    ring.state peer = .keyEstablished ↔ ring.has peer = true := by
  rw [state]
  split
  next h => simp [h]
  next h => simp [h]

/-- A key for a peer that has one grows nothing. -/
theorem size_establish (ring : KeyRing) (peer : ClientId) (key : SymmetricKey) :
    (ring.establish peer key).size = if ring.has peer then ring.size else ring.size + 1 := by
  have hmap : (ring.establish peer key).toFinmap = ring.toFinmap.insert peer key :=
    toFinmap_apply ring (.establish peer key)
  have hkeys : (ring.establish peer key).toFinmap.keys = insert peer ring.toFinmap.keys := by
    ext other
    rw [hmap, Finset.mem_insert, Finmap.mem_keys, Finmap.mem_insert, Finmap.mem_keys]
  rw [← card_keys_toFinmap, hkeys, Finset.card_insert_eq_ite, card_keys_toFinmap]
  exact if_congr (Finmap.mem_keys.trans mem_toFinmap) rfl rfl

theorem isEmpty_iff (ring : KeyRing) : ring.isEmpty = true ↔ ∀ peer, ring.lookup peer = none := by
  rw [isEmpty_iff_size, ← card_keys_toFinmap, Finset.card_eq_zero, Finset.eq_empty_iff_forall_notMem]
  refine forall_congr' fun peer => ?_
  rw [Finmap.mem_keys, ← Finmap.lookup_eq_none, lookup_toFinmap]

/-- A key ring is the finite map that its changes make, one after the other, from the empty map. It holds for each peer
the key that stands after them, and says so; its size counts the peers that have a key, so a further key for one of them
does not grow it. Forgetting a peer tells whether a key stood for it just then. Changes for different peers can be made
in either order, whatever changes follow. -/
theorem ring_is_map_of_its_changes (changes : List Change) :
    let ring := (empty.run changes).2
    let map := changes.foldl Change.onMap ∅
    (∀ peer, ring.lookup peer = map.lookup peer) ∧ ring.size = map.keys.card ∧
    (∀ peer key, ring.lookup peer = some key ↔ Stands changes peer key) ∧
    (∀ peer, (ring.has peer = true ↔ (ring.lookup peer).isSome = true) ∧
      (ring.state peer = .keyEstablished ↔ (ring.lookup peer).isSome = true)) ∧
    (∀ earlier peer later, changes = earlier ++ .forget peer :: later →
      ∃ told, (empty.run changes).1[earlier.length]? = some (some told) ∧
        (told = true ↔ ∃ key, Stands earlier peer key)) ∧
    (∀ peer key, (ring.establish peer key).size = if ring.has peer then ring.size else ring.size + 1) ∧
    (ring.isEmpty = true ↔ ∀ peer, ring.lookup peer = none) ∧
    ∀ a b later, a.peer ≠ b.peer → ∃ toldA toldB told,
      (ring.run (a :: b :: later)).1 = toldA :: toldB :: told ∧
      (ring.run (b :: a :: later)).1 = toldB :: toldA :: told ∧
      Alike (ring.run (a :: b :: later)).2 (ring.run (b :: a :: later)).2 := by
  intro ring map
  have hmap : ring.toFinmap = map := toFinmap_run empty changes
  have hhas (peer : ClientId) : ring.has peer = true ↔ (ring.lookup peer).isSome = true := by
    rw [has_eq_isSome_lookup]
  refine ⟨fun peer => ?_, ?_, fun peer key => lookup_run_eq_some_iff, fun peer => ⟨hhas peer, ?_⟩, ?_,
    ring.size_establish, ring.isEmpty_iff, fun a b later h => ring.run_comm h later⟩
  · rw [← hmap, lookup_toFinmap]
  · rw [← hmap, card_keys_toFinmap]
  · rw [state_eq_keyEstablished_iff, hhas]
  · rintro earlier peer later rfl
    exact ⟨(empty.run earlier).2.has peer, told_run empty earlier (.forget peer) later, has_run_iff⟩

theorem forgotten_after_second_key :
    let bob : ClientId := .replicate 2
    let carol : ClientId := .replicate 3
    let key (b : UInt8) : SymmetricKey := ⟨.replicate 16 b⟩
    let earlier : List Change := [.establish bob (key 1), .establish carol (key 2), .establish bob (key 3)]
    let changes := earlier ++ [.forget bob]
    bob ≠ carol ∧ (empty.run earlier).2.size = 2 ∧ (empty.run changes).1[3]? = some (some true) ∧
      (empty.run changes).2.lookup bob = none ∧ (empty.run changes).2.lookup carol = some (key 2) ∧
      Alike ((empty.run changes).2.run [.forget carol, .establish bob (key 4)]).2
        ((empty.run changes).2.run [.establish bob (key 4), .forget carol]).2 := by
  intro bob carol key earlier changes
  have hpeers : carol ≠ bob := by decide
  obtain ⟨hlookup, -, hstands, -, htold, -, -, hcomm⟩ := ring_is_map_of_its_changes changes
  obtain ⟨told, hat, hiff⟩ := htold earlier bob [] rfl
  have hheld : told = true := hiff.2 ⟨key 3, earlier.take 2, [], rfl, List.forall_mem_nil _⟩
  obtain ⟨-, -, -, -, -, halike⟩ := hcomm (.forget carol) (.establish bob (key 4)) [] hpeers
  refine ⟨hpeers.symm, by decide, hheld ▸ hat, (hlookup bob).trans (Finmap.lookup_erase bob _), ?_, halike⟩
  exact (hstands carol (key 2)).2 ⟨earlier.take 1, [.establish bob (key 3), .forget bob], rfl, by decide⟩

end SealedPost.KeyRing
