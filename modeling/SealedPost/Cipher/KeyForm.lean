import SealedPost.Cipher.Der
import SealedPost.Cipher.Rsa
import SealedPost.Keys

/-! The encoded forms of RSA keys: a public key in its 160-byte field, and a private key with its factors. -/
namespace SealedPost.Rsa

def algorithm : Bytes :=
  Der.element 0x30 (Der.element 0x06 [0x2A, 0x86, 0x48, 0x86, 0xF7, 0x0D, 0x01, 0x01, 0x01] ++ Der.element 0x05 [])

namespace Public

def info (key : Public) : Bytes :=
  Der.element 0x30 (algorithm ++
    Der.element 0x03 (0 :: Der.element 0x30 (Der.unsigned key.modulus ++ Der.unsigned key.exponent)))

def ofInfo? (bs : Bytes) : Option Public := do
  let body ← Der.whole? 0x30 bs
  let field ← Bytes.after? algorithm body
  let bits ← Der.whole? 0x03 field
  let inner ← Bytes.after? [0] bits
  let pair ← Der.whole? 0x30 inner
  match Der.unsignedList? 2 pair with
  | some ([modulus, exponent], []) =>
    let key : Public := ⟨modulus, exponent⟩
    if key.IsUsable then some key else none
  | _ => none

def toWire (key : Public) : Except Failure PublicKey :=
  if key.info.length ≤ 160 then .ok ⟨Block.fit 160 key.info⟩
  else .error (.invalidPublicKey 160 key.info.length)

/-- Reads the key from its 160-byte field. What follows the structure that the field starts with is not
looked at. -/
def ofWire (wire : PublicKey) : Except Failure Public :=
  match Der.announcedLength? wire.toBytes with
  | none => .error (.crypto .publicKeyNotDer)
  | some n =>
    if n > 160 then .error (.crypto .publicKeyNotDer)
    else match ofInfo? (wire.toBytes.take n) with
      | some key => .ok key
      | none => .error (.crypto .publicKeyMalformed)

end Public

namespace Private

/-- Drops the attributes, elements with tag 0, from the start of a byte string. Each takes two bytes or more, so
`fuel` bytes of it are enough. -/
def dropAttributes : Nat → Bytes → Option Bytes
  | 0, bs => some bs
  | fuel + 1, bs =>
    if bs.head? = some 0x80 ∨ bs.head? = some 0xA0 then
      match Der.anyElement? bs with
      | none => none
      | some (_, rest) => dropAttributes fuel rest
    else some bs

/-- Nothing but tagged extensions stands in the byte string. Each, whatever its number, holds exactly one element
and takes two bytes or more, so `fuel` bytes of it are enough. -/
def onlyExtensions : Nat → Bytes → Bool
  | _, [] => true
  | 0, _ => false
  | fuel + 1, tag :: bs =>
    0xA0 ≤ tag && tag ≤ 0xBE &&
      match Der.element? tag (tag :: bs) with
      | none => false
      | some (body, rest) => (Der.anyElement? body).any (fun r => r.2.isEmpty) && onlyExtensions fuel rest

/-- Reads the public key, a bit string of whole bytes with tag 1, if one stands at the start, and leaves the rest. -/
def publicField? : Bytes → Option (Option Bytes × Bytes)
  | [] => some (none, [])
  | tag :: bs =>
    if tag = 0x81 then
      match Der.element? tag (tag :: bs) with
      | some (0 :: bits, rest) => some (some bits, rest)
      | _ => none
    else if tag = 0xA1 then none
    else some (none, tag :: bs)

/-- What may follow the key in its info: attributes, then a public key exactly if `withPublic`, then
extensions. None of it is used. -/
def isSupplement (withPublic : Bool) (bs : Bytes) : Bool :=
  match dropAttributes bs.length bs with
  | none => false
  | some bs =>
    match publicField? bs with
    | none => false
    | some (field, rest) => field.isSome == withPublic && onlyExtensions rest.length rest

/-- Reads the version of a key info: 0 is one without a public key and 1 is one with it. -/
def version? (bs : Bytes) : Option (Bool × Bytes) :=
  match Der.unsigned? bs with
  | some (0, rest) => some (false, rest)
  | some (1, rest) => some (true, rest)
  | _ => none

/-- The private key info of a key: version 0, the algorithm, and the key with its factors and the numbers
that speed up its use. `inverse` is the inverse of `q` modulo `p`. -/
def info (key : Private) (inverse : Nat) : Bytes :=
  let fields := [0, key.publicKey.modulus, key.publicKey.exponent, key.exponent, key.p, key.q,
    key.exponent % (key.p - 1), key.exponent % (key.q - 1), inverse]
  Der.element 0x30 (Der.unsigned 0 ++ algorithm ++ Der.element 0x04 (Der.element 0x30 (fields.flatMap Der.unsigned)))

/-- Reads a private key info that is the whole byte string. The numbers that speed up the use of the key
are read and not used. -/
def ofInfo? (bs : Bytes) : Option Private := do
  let body ← Der.whole? 0x30 bs
  let (withPublic, rest) ← version? body
  let rest ← Bytes.after? algorithm rest
  let (octets, rest) ← Der.element? 0x04 rest
  guard (isSupplement withPublic rest)
  let fields ← Der.whole? 0x30 octets
  match Der.unsignedList? 9 fields with
  | some ([version, n, e, d, p, q, _, _, _], []) =>
    let key : Private := ⟨⟨n, e⟩, d, p, q⟩
    if version = 0 ∧ key.IsUsable then some key else none
  | _ => none

def ofKey (key : PrivateKey) : Except Failure Private :=
  match ofInfo? key.toBytes with
  | some key => .ok key
  | none => .error (.crypto .privateKeyUnreadable)

end Private

end SealedPost.Rsa
