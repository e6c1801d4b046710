import SealedPost.Bytes

/-! The hash function SHA-1 on byte strings. -/
namespace SealedPost.Sha1

def rotl (w : UInt32) (n : UInt32) : UInt32 :=
  w <<< n ||| w >>> (32 - n)

structure Digest where
  a : UInt32
  b : UInt32
  c : UInt32
  d : UInt32
  e : UInt32
deriving DecidableEq

def initial : Digest :=
  ⟨0x67452301, 0xEFCDAB89, 0x98BADCFE, 0x10325476, 0xC3D2E1F0⟩

def schedule : Nat → List UInt32 → List UInt32
  | 0, _ => []
  | count + 1, window =>
    let next := rotl (window.getD 13 0 ^^^ window.getD 8 0 ^^^ window.getD 2 0 ^^^ window.getD 0 0) 1
    window.getD 0 0 :: schedule count (window.drop 1 ++ [next])

def mix (t : Nat) (b c d : UInt32) : UInt32 :=
  if t < 20 then ((b &&& c) ||| (~~~b &&& d)) + 0x5A827999
  else if t < 40 then (b ^^^ c ^^^ d) + 0x6ED9EBA1
  else if t < 60 then ((b &&& c) ||| (b &&& d) ||| (c &&& d)) + 0x8F1BBCDC
  else (b ^^^ c ^^^ d) + 0xCA62C1D6

def rounds : Nat → Digest → List UInt32 → Digest
  | _, s, [] => s
  | t, s, w :: ws =>
    rounds (t + 1) ⟨rotl s.a 5 + mix t s.b s.c s.d + s.e + w, s.a, rotl s.b 30, s.c, s.d⟩ ws

def absorb (s : Digest) (block : Bytes) : Digest :=
  let words := (Bytes.pieces 4 block).map fun bs => UInt32.ofNat (Bytes.natBE bs)
  let r := rounds 0 s (schedule 80 words)
  ⟨s.a + r.a, s.b + r.b, s.c + r.c, s.d + r.d, s.e + r.e⟩

/-- The message with a one bit, zeros up to the last eight bytes of a block, and its length in bits. -/
def padMessage (bs : Bytes) : Bytes :=
  bs ++ 0x80 :: List.replicate ((119 - bs.length % 64) % 64) 0 ++ Bytes.ofNatBE 8 (8 * bs.length)

def Digest.toBytes (s : Digest) : Bytes :=
  [s.a, s.b, s.c, s.d, s.e].flatMap fun w => Bytes.ofNatBE 4 w.toNat

def hash (bs : Bytes) : Bytes :=
  ((Bytes.pieces 64 (padMessage bs)).foldl absorb initial).toBytes

def size : Nat := 20

@[simp] theorem length_hash (bs : Bytes) : (hash bs).length = size := by
  simp [hash, Digest.toBytes, size]

end SealedPost.Sha1
