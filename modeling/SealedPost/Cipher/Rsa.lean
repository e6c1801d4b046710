import SealedPost.Cipher.Oaep

/-! RSA on numbers, and OAEP encryption and decryption with it. -/
namespace SealedPost.Rsa

def powMod (b e m : Nat) : Nat :=
  if e = 0 then 1 % m
  else
    let h := powMod (b * b % m) (e / 2) m
    if e % 2 = 1 then b * h % m else h

/-- Integers `x` and `y` with `a * x + b * y` the greatest common divisor of `a` and `b`. -/
def bezout (a b : Nat) : Int × Int :=
  if b = 0 then (1, 0)
  else
    let r := bezout b (a % b)
    (r.2, r.1 - (a / b : Nat) * r.2)
termination_by b
decreasing_by exact Nat.mod_lt a (Nat.pos_of_ne_zero ‹_›)

def inverse (a m : Nat) : Nat :=
  ((bezout a m).1 % (m : Int)).toNat

structure Public where
  modulus : Nat
  exponent : Nat
deriving DecidableEq

structure Private where
  publicKey : Public
  exponent : Nat
  p : Nat
  q : Nat
deriving DecidableEq

namespace Public

/-- The keys in use: an odd exponent from 3 up to 33 bits and an odd modulus above it. The limit that the `rsa` library
puts on the size of a modulus is left out. -/
def IsUsable (key : Public) : Prop :=
  2 ≤ key.exponent ∧ key.exponent < 1 <<< 33 ∧ key.exponent % 2 = 1 ∧ key.exponent < key.modulus ∧
    key.modulus % 2 = 1

instance (key : Public) : Decidable key.IsUsable := by
  unfold IsUsable
  infer_instance

def size (key : Public) : Nat :=
  if key.modulus = 0 then 0 else (Nat.log2 key.modulus + 8) / 8

def apply (key : Public) (m : Nat) : Nat :=
  powMod m key.exponent key.modulus

def encrypt (key : Public) (seed message : Bytes) : Option Bytes :=
  (Oaep.pad key.size seed message).map fun padded =>
    Bytes.ofNatBE key.size (key.apply (Bytes.natBE padded))

end Public

namespace Private

/-- The keys in use: the public key is, the factors make the modulus, and the exponents undo each other
modulo each factor less one. Whether the factors are primes is not asked. -/
def IsUsable (key : Private) : Prop :=
  key.publicKey.IsUsable ∧ 2 ≤ key.p ∧ 2 ≤ key.q ∧ key.p * key.q = key.publicKey.modulus ∧
    key.publicKey.exponent * key.exponent % (key.p - 1) = 1 ∧
    key.publicKey.exponent * key.exponent % (key.q - 1) = 1

instance (key : Private) : Decidable key.IsUsable := by
  unfold IsUsable
  infer_instance

inductive Fault where
  | ciphertext
  | arithmetic
deriving DecidableEq

/-- The number below `p * q` that is `a` modulo `p` and `b` modulo `q`, where the two have no divisor in
common and `b` is below `q`. -/
def combine (p q a b : Nat) : Nat :=
  b + q * ((a + (p - b % p)) * inverse q p % p)

/-- Raises a number to the exponent: modulo each factor, with the exponent modulo the factor less one, where the
factors have no divisor in common, and else modulo their product. For primes both ways give the same. -/
def apply (key : Private) (c : Nat) : Nat :=
  if Nat.gcd key.p key.q = 1 then
    combine key.p key.q (powMod c (key.exponent % (key.p - 1)) key.p) (powMod c (key.exponent % (key.q - 1)) key.q)
  else powMod c key.exponent key.publicKey.modulus

/-- Decrypts a ciphertext of exactly the size of the modulus. A power that does not lead back to the
ciphertext shows a key whose factors are no primes. -/
def decrypt (key : Private) (ciphertext : Bytes) : Except Fault Bytes :=
  let k := key.publicKey.size
  let c := Bytes.natBE ciphertext
  if ciphertext.length ≠ k ∨ c ≥ key.publicKey.modulus then .error .ciphertext
  else
    let m := key.apply c
    if key.publicKey.apply m ≠ c then .error .arithmetic
    else match Oaep.unpad (Bytes.ofNatBE k m) with
      | some message => .ok message
      | none => .error .ciphertext

end Private

end SealedPost.Rsa
