import SealedPost.Bytes
import SealedPost.Text.Decimal

/-! Base64 with the standard alphabet and required padding: writing it, and reading canonical text only. -/
namespace SealedPost.Base64

def symbol (n : Nat) : UInt8 :=
  if n < 26 then UInt8.ofNat (65 + n)
  else if n < 52 then UInt8.ofNat (71 + n)
  else if n < 62 then UInt8.ofNat (n - 4)
  else if n = 62 then 43
  else 47

def value? (b : UInt8) : Option Nat :=
  if 65 ≤ b ∧ b ≤ 90 then some (b.toNat - 65)
  else if 97 ≤ b ∧ b ≤ 122 then some (b.toNat - 71)
  else if 48 ≤ b ∧ b ≤ 57 then some (b.toNat + 4)
  else if b = 43 then some 62
  else if b = 47 then some 63
  else none

def pad : UInt8 := 61

/-- The symbols of a byte string: four for each three bytes, the last group padded. -/
def symbols : Bytes → Bytes
  | [] => []
  | [a] => [symbol (a.toNat / 4), symbol (a.toNat % 4 * 16), pad, pad]
  | [a, b] =>
    [symbol (a.toNat / 4), symbol (a.toNat % 4 * 16 + b.toNat / 16), symbol (b.toNat % 16 * 4), pad]
  | a :: b :: c :: rest =>
    symbol (a.toNat / 4) :: symbol (a.toNat % 4 * 16 + b.toNat / 16) ::
      symbol (b.toNat % 16 * 4 + c.toNat / 64) :: symbol (c.toNat % 64) :: symbols rest

def encode (bs : Bytes) : String :=
  String.ofList ((symbols bs).map fun b => Char.ofNat b.toNat)

inductive Fault where
  | invalidSymbol (offset : Nat) (byte : UInt8)
  | invalidLength (length : Nat)
  | invalidPadding
  | invalidLastSymbol (offset : Nat) (byte : UInt8)
deriving DecidableEq

def Fault.message : Fault → String
  | .invalidSymbol offset byte =>
    "Invalid symbol " ++ Decimal.text byte.toNat ++ ", offset " ++ Decimal.text offset ++ "."
  | .invalidLength length => "Invalid input length: " ++ Decimal.text length
  | .invalidPadding => "Invalid padding"
  | .invalidLastSymbol offset byte =>
    "Invalid last symbol " ++ Decimal.text byte.toNat ++ ", offset " ++ Decimal.text offset ++ "."

def values (offset : Nat) : Bytes → Except Fault (List Nat)
  | [] => .ok []
  | b :: rest =>
    match value? b with
    | none => .error (.invalidSymbol offset b)
    | some v => (values (offset + 1) rest).map (v :: ·)

def bytesOfValues : List Nat → Bytes
  | a :: b :: c :: d :: rest =>
    UInt8.ofNat (a * 4 + b / 16) :: UInt8.ofNat (b % 16 * 16 + c / 4) :: UInt8.ofNat (c % 4 * 64 + d) ::
      bytesOfValues rest
  | _ => []

/-- What the last group holds: its symbols with their numbers, and the offset and count of its padding. -/
structure LastGroup where
  symbols : List (UInt8 × Nat) := []
  firstPad : Option Nat := none
  pads : Nat := 0

/-- Reads the last group, which starts at `start`, from its place `place` on. Padding stands in the last two
of four places, and nothing but padding follows it. -/
def lastGroup (start : Nat) (seen : LastGroup) (place : Nat) : Bytes → Except Fault LastGroup
  | [] => .ok seen
  | b :: rest =>
    if b = pad then
      if place < 2 then .error (.invalidSymbol (start + place) b)
      else
        let first := seen.firstPad.getD (start + place)
        lastGroup start ⟨seen.symbols, some first, seen.pads + 1⟩ (place + 1) rest
    else match seen.firstPad with
      | some first => .error (.invalidSymbol first pad)
      | none => match value? b with
        | none => .error (.invalidSymbol (start + place) b)
        | some v => lastGroup start ⟨seen.symbols ++ [(b, v)], none, seen.pads⟩ (place + 1) rest

/-- The bytes of the last group. Its symbols and padding fill the group, and the bits that belong to no byte
are zero. -/
def bytesOfLast (start : Nat) (group : LastGroup) : Except Fault Bytes :=
  if group.symbols.length < 2 then .error (.invalidLength (start + group.symbols.length))
  else if (group.symbols.length + group.pads) % 4 ≠ 0 then .error .invalidPadding
  else match group.symbols with
    | [(_, a), (last, b)] =>
      if b % 16 ≠ 0 then .error (.invalidLastSymbol (start + 1) last)
      else .ok [UInt8.ofNat (a * 4 + b / 16)]
    | [(_, a), (_, b), (last, c)] =>
      if c % 4 ≠ 0 then .error (.invalidLastSymbol (start + 2) last)
      else .ok [UInt8.ofNat (a * 4 + b / 16), UInt8.ofNat (b % 16 * 16 + c / 4)]
    | group => .ok (bytesOfValues (group.map Prod.snd))

/-- Where the last group of a form of length `n` starts. It is never empty unless the form is. -/
def lastStart (n : Nat) : Nat :=
  if n % 4 = 0 then n - 4 else n - n % 4

/-- Reads the Base64 form of a byte string. A stray byte that alone overhangs the groups is named before
anything else; then the first bad symbol before the last group, then those in it. -/
def decode (form : Bytes) : Except Fault Bytes := do
  if form = [] then return []
  let n := form.length
  let last := form.getLastD 0
  if n % 4 = 1 ∧ last ≠ pad ∧ value? last = none then throw (.invalidSymbol (n - 1) last)
  let start := lastStart n
  let body ← values 0 (form.take start)
  let group ← lastGroup start {} 0 (form.drop start)
  return bytesOfValues body ++ (← bytesOfLast start group)

end SealedPost.Base64
