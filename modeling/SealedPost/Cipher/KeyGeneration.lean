import SealedPost.Cipher.KeyForm

/-! Making RSA keys of 1024 bits with the exponent 17, whose public info fills the 160-byte field exactly. Where the
search for primes starts is up to the caller. -/
namespace SealedPost.Rsa

/-- The primes that trial division uses. The first of them are the bases of the probable prime test. -/
def smallPrimes : List Nat :=
  [2, 3, 5, 7, 11, 13, 17, 19, 23, 29, 31, 37, 41, 43, 47, 53, 59, 61, 67, 71, 73, 79, 83, 89, 97, 101, 103, 107,
    109, 113, 127, 131, 137, 139, 149, 151, 157, 163, 167, 173, 179, 181, 191, 193, 197, 199, 211, 223, 227, 229]

def meetsMinusOne (n x : Nat) : Nat → Bool
  | 0 => false
  | count + 1 => x == n - 1 || meetsMinusOne n (x * x % n) count

def oddPart (n : Nat) : Nat × Nat :=
  if h : n ≠ 0 ∧ n % 2 = 0 then
    let r := oddPart (n / 2)
    (r.1, r.2 + 1)
  else (n, 0)
termination_by n
decreasing_by omega

def isProbablePrime (n : Nat) : Bool :=
  smallPrimes.all (fun p => n % p ≠ 0) &&
    let (d, s) := oddPart (n - 1)
    (smallPrimes.take 24).all fun b =>
      let x := powMod b d n
      x == 1 || meetsMinusOne n x s

def freshExponent : Nat := 17

/-- The first odd number from `start` on, `count` of them tried, that is a probable prime and goes with the exponent
of fresh keys. -/
def findPrime (start : Nat) : Nat → Option Nat
  | 0 => none
  | count + 1 =>
    let n := start + (1 - start % 2)
    if Nat.gcd (n - 1) freshExponent = 1 ∧ isProbablePrime n then some n else findPrime (n + 2) count

/-- A number of 512 bits with the two highest ones set. The product of two such numbers has 1024 bits. -/
def primeStart (bs : Bytes) : Nat :=
  3 <<< 510 + Bytes.natBE bs % (1 <<< 510)

def keyPairOf (p q : Nat) : Except Failure KeyPair :=
  let key : Private := ⟨⟨p * q, freshExponent⟩, inverse freshExponent ((p - 1) * (q - 1)), p, q⟩
  (key.publicKey.toWire).map fun publicKey => ⟨⟨key.info (inverse q p)⟩, publicKey⟩

def generate (first second : Bytes) : Except Failure KeyPair :=
  match findPrime (primeStart first) 20000, findPrime (primeStart second) 20000 with
  | some p, some q => if p = q then .error .random else keyPairOf p q
  | _, _ => .error .random

end SealedPost.Rsa
