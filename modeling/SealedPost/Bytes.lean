/-! Byte strings, numbers written in them, and byte strings of one fixed length. -/
namespace SealedPost

abbrev Bytes := List UInt8

namespace Bytes

/-- The number whose base-256 digits are the bytes, least significant first. -/
def natLE (bs : Bytes) : Nat :=
  bs.foldr (fun b acc => b.toNat + 256 * acc) 0

def ofNatLE : Nat → Nat → Bytes
  | 0, _ => []
  | width + 1, v => UInt8.ofNat (v % 256) :: ofNatLE width (v / 256)

/-- The number whose base-256 digits are the bytes, most significant first. -/
def natBE (bs : Bytes) : Nat :=
  bs.foldl (fun acc b => 256 * acc + b.toNat) 0

def ofNatBE (width v : Nat) : Bytes :=
  (ofNatLE width v).reverse

/-- Bytewise exclusive or, as long as the shorter argument. -/
def xor (xs ys : Bytes) : Bytes :=
  xs.zipWith (· ^^^ ·) ys

/-- A field of `width` bytes that starts with `bs` and is zero after it. -/
def padded (width : Nat) (bs : Bytes) : Bytes :=
  (bs ++ List.replicate (width - bs.length) 0).take width

/-- Drops the bytes of `lead` from the start of a byte string, if it starts with them. -/
def after? (lead bs : Bytes) : Option Bytes :=
  if lead = bs.take lead.length then some (bs.drop lead.length) else none

/-- The pieces of `n` bytes that a byte string falls into; the last one may be shorter. No pieces for
`n = 0`. -/
def pieces (n : Nat) (bs : Bytes) : List Bytes :=
  if n = 0 ∨ bs = [] then [] else bs.take n :: pieces n (bs.drop n)
termination_by bs.length
decreasing_by
  rename_i h
  have : bs.length ≠ 0 := fun h0 => h (.inr (List.length_eq_zero_iff.1 h0))
  simp only [List.length_drop]
  omega

@[simp] theorem length_ofNatLE (width v : Nat) : (ofNatLE width v).length = width := by
  induction width generalizing v with
  | zero => rfl
  | succ width ih => simp [ofNatLE, ih]

@[simp] theorem length_ofNatBE (width v : Nat) : (ofNatBE width v).length = width := by
  simp [ofNatBE]

@[simp] theorem length_padded (width : Nat) (bs : Bytes) : (padded width bs).length = width := by
  simp [padded]
  omega

@[simp] theorem length_xor (xs ys : Bytes) : (xor xs ys).length = min xs.length ys.length := by
  simp [xor]

theorem flatten_pieces (n : Nat) (bs : Bytes) (hn : n ≠ 0) : (pieces n bs).flatten = bs := by
  fun_induction pieces n bs with
  | case1 bs h => exact (h.resolve_left hn) ▸ rfl
  | case2 bs h ih => rw [List.flatten_cons, ih, List.take_append_drop]

end Bytes

structure Block (n : Nat) where
  toBytes : Bytes
  length_toBytes : toBytes.length = n
deriving DecidableEq

namespace Block

def ofBytes? (n : Nat) (bs : Bytes) : Option (Block n) :=
  if h : bs.length = n then some ⟨bs, h⟩ else none

def first? (n : Nat) (bs : Bytes) : Option (Block n) :=
  ofBytes? n (bs.take n)

def replicate (n : Nat) (b : UInt8) : Block n :=
  ⟨List.replicate n b, List.length_replicate⟩

/-- The byte string cut or zero-padded to length `n`. -/
def fit (n : Nat) (bs : Bytes) : Block n :=
  ⟨Bytes.padded n bs, Bytes.length_padded n bs⟩

theorem toBytes_fit {n : Nat} {bs : Bytes} (h : n ≤ bs.length) : (fit n bs).toBytes = bs.take n := by
  change (bs ++ List.replicate (n - bs.length) 0).take n = bs.take n
  rw [Nat.sub_eq_zero_of_le h, List.replicate_zero, List.append_nil]

end Block

end SealedPost
