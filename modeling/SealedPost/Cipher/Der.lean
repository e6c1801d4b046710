import SealedPost.Bytes

/-! The part of DER that RSA keys need: lengths, elements with a one-byte tag, and unsigned integers. Reading
accepts only what writing produces. -/
namespace SealedPost.Der

/-- The base-256 digits of a number, most significant first, without leading zeros. Zero has none. -/
def bigEndian (n : Nat) : Bytes :=
  if n = 0 then [] else bigEndian (n / 256) ++ [UInt8.ofNat (n % 256)]

/-- A length: below 128 one byte, else the count of its digits with the high bit set, and the digits. -/
def lengthBytes (n : Nat) : Bytes :=
  if n < 128 then [UInt8.ofNat n]
  else
    let digits := bigEndian n
    UInt8.ofNat (128 + digits.length) :: digits

def element (tag : UInt8) (body : Bytes) : Bytes :=
  tag :: lengthBytes body.length ++ body

/-- The body of an unsigned integer: its digits, after a zero byte if the first bit would be a sign. -/
def unsignedBody (n : Nat) : Bytes :=
  let digits := bigEndian n
  if 128 ≤ digits.headD 128 then 0 :: digits else digits

def unsigned (n : Nat) : Bytes :=
  element 0x02 (unsignedBody n)

/-- Reads a length of at most four digits and leaves the rest. -/
def length? : Bytes → Option (Nat × Bytes)
  | [] => none
  | b :: rest =>
    if b < 128 then some (b.toNat, rest)
    else
      let count := b.toNat - 128
      let digits := rest.take count
      let n := Bytes.natBE digits
      if count ≤ 4 ∧ b :: digits = lengthBytes n then some (n, rest.drop count) else none

def element? (tag : UInt8) : Bytes → Option (Bytes × Bytes)
  | [] => none
  | t :: bs =>
    if t = tag then
      match length? bs with
      | none => none
      | some (n, rest) => if n ≤ rest.length then some (rest.take n, rest.drop n) else none
    else none

/-- The tags in use: those of the universal types, and all others of one byte, whose number is below 31. -/
def isTag (tag : UInt8) : Bool :=
  [0x01, 0x02, 0x03, 0x04, 0x05, 0x06, 0x09, 0x0A, 0x0C, 0x12, 0x13, 0x14, 0x15, 0x16, 0x17, 0x18, 0x1A, 0x1E, 0x30,
    0x31].contains tag || (0x40 ≤ tag && tag % 32 ≠ 31)

/-- Reads an element with any tag in use: its body, which is not looked at, and the rest. -/
def anyElement? : Bytes → Option (Bytes × Bytes)
  | [] => none
  | tag :: bs => if isTag tag then element? tag (tag :: bs) else none

def unsigned? (bs : Bytes) : Option (Nat × Bytes) :=
  match element? 0x02 bs with
  | none => none
  | some (body, rest) =>
    let n := Bytes.natBE body
    if body = unsignedBody n then some (n, rest) else none

def unsignedList? : Nat → Bytes → Option (List Nat × Bytes)
  | 0, bs => some ([], bs)
  | count + 1, bs =>
    match unsigned? bs with
    | none => none
    | some (n, rest) => (unsignedList? count rest).map fun r => (n :: r.1, r.2)

def whole? (tag : UInt8) (bs : Bytes) : Option Bytes :=
  match element? tag bs with
  | some (body, []) => some body
  | _ => none

/-- The length of the sequence at the start of a byte string, header and body, as its header tells. At most
two length digits are read, and they need not be the shortest. -/
def announcedLength? : Bytes → Option Nat
  | tag :: first :: rest =>
    if tag ≠ 0x30 then none
    else if first < 128 then some (2 + first.toNat)
    else
      let count := first.toNat - 128
      if count = 0 ∨ count > 2 ∨ rest.length < count then none
      else some (2 + count + Bytes.natBE (rest.take count))
  | _ => none

end SealedPost.Der
