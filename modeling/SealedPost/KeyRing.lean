import SealedPost.Keys

/-! The AES keys that a client holds, one for each peer. -/
namespace SealedPost

/-- The AES keys held, at most one for each peer. -/
structure KeyRing where
  entries : List (ClientId × SymmetricKey) := []
  distinct : (entries.map Prod.fst).Nodup := by simp

inductive PeerState where
  | noKey
  | keyEstablished
deriving DecidableEq

namespace KeyRing

def empty : KeyRing := {}

def lookup (ring : KeyRing) (peer : ClientId) : Option SymmetricKey :=
  (ring.entries.find? (·.1 = peer)).map Prod.snd

def has (ring : KeyRing) (peer : ClientId) : Bool :=
  ring.entries.any (·.1 = peer)

private theorem distinct_without (entries : List (ClientId × SymmetricKey)) (peer : ClientId)
    (h : (entries.map Prod.fst).Nodup) : ((entries.filter (·.1 ≠ peer)).map Prod.fst).Nodup :=
  h.sublist (List.filter_sublist.map Prod.fst)

def without (ring : KeyRing) (peer : ClientId) : KeyRing where
  entries := ring.entries.filter (·.1 ≠ peer)
  distinct := distinct_without ring.entries peer ring.distinct

def establish (ring : KeyRing) (peer : ClientId) (key : SymmetricKey) : KeyRing where
  entries := (peer, key) :: (ring.without peer).entries
  distinct := by
    rw [List.map_cons, List.nodup_cons]
    refine ⟨?_, (ring.without peer).distinct⟩
    simp [without]

/-- Drops the key for a peer and tells whether there was one. -/
def forget (ring : KeyRing) (peer : ClientId) : Bool × KeyRing :=
  (ring.has peer, ring.without peer)

def state (ring : KeyRing) (peer : ClientId) : PeerState :=
  if ring.has peer then .keyEstablished else .noKey

def size (ring : KeyRing) : Nat :=
  ring.entries.length

def isEmpty (ring : KeyRing) : Bool :=
  ring.entries.isEmpty

private theorem find?_other (entries : List (ClientId × SymmetricKey)) (peer other : ClientId) (h : other ≠ peer) :
    (entries.filter (·.1 ≠ peer)).find? (·.1 = other) = entries.find? (·.1 = other) := by
  induction entries with
  | nil => rfl
  | cons entry rest ih =>
    by_cases hp : entry.1 = peer
    · have ho : entry.1 ≠ other := fun ho => h (ho ▸ hp)
      simpa [hp, ho, Ne.symm h] using ih
    · by_cases ho : entry.1 = other <;> simp_all

@[simp] theorem lookup_without (ring : KeyRing) (peer other : ClientId) :
    (ring.without peer).lookup other = if other = peer then none else ring.lookup other := by
  split
  next h =>
    subst h
    simp [lookup, without]
  next h =>
    unfold lookup
    rw [← find?_other ring.entries peer other h]
    rfl

@[simp] theorem lookup_establish (ring : KeyRing) (peer other : ClientId) (key : SymmetricKey) :
    (ring.establish peer key).lookup other = if other = peer then some key else ring.lookup other := by
  by_cases h : other = peer
  · simp [lookup, establish, h]
  · have hw := lookup_without ring peer other
    rw [if_neg h] at hw ⊢
    rw [← hw]
    simp [lookup, establish, Ne.symm h]

theorem has_eq_isSome_lookup (ring : KeyRing) (peer : ClientId) :
    ring.has peer = (ring.lookup peer).isSome := by
  rw [lookup, Option.isSome_map, has, List.isSome_find?]

end KeyRing

end SealedPost
