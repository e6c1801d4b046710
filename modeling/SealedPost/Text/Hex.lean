import SealedPost.Bytes
import SealedPost.Text.Decimal
import SealedPost.Text.Quoted

/-! Hexadecimal text: two digits for each byte, the high one first. -/
namespace SealedPost.Hex

def digitPair (b : UInt8) : List Char :=
  [Text.hexDigit (b.toNat / 16), Text.hexDigit (b.toNat % 16)]

def text (bs : Bytes) : String :=
  String.ofList (bs.flatMap digitPair)

/-- Why a text is not the hexadecimal form of a byte string of the wanted length. The odd character is
given as the byte read at that place. -/
inductive Fault where
  | oddLength
  | wrongLength
  | invalidCharacter (byte : UInt8) (position : Nat)
deriving DecidableEq

def Fault.message : Fault → String
  | .oddLength => "Odd number of digits"
  | .wrongLength => "Invalid string length"
  | .invalidCharacter byte position =>
    "Invalid character " ++ Text.quotedChar (Char.ofNat byte.toNat) ++ " at position " ++ Decimal.text position

def digitValue? (b : UInt8) : Option Nat :=
  if 48 ≤ b ∧ b ≤ 57 then some (b.toNat - 48)
  else if 65 ≤ b ∧ b ≤ 70 then some (b.toNat - 55)
  else if 97 ≤ b ∧ b ≤ 102 then some (b.toNat - 87)
  else none

def digitAt (position : Nat) (b : UInt8) : Except Fault Nat :=
  match digitValue? b with
  | some v => .ok v
  | none => .error (.invalidCharacter b position)

def pairsFrom (position : Nat) : Bytes → Except Fault Bytes
  | high :: low :: rest => do
    let h ← digitAt position high
    let l ← digitAt (position + 1) low
    let bs ← pairsFrom (position + 2) rest
    return UInt8.ofNat (16 * h + l) :: bs
  | _ => .ok []

/-- Reads exactly `n` bytes from the UTF-8 form of a text. The length is judged before the digits. -/
def decode (n : Nat) (form : Bytes) : Except Fault Bytes :=
  if form.length % 2 ≠ 0 then .error .oddLength
  else if form.length ≠ 2 * n then .error .wrongLength
  else pairsFrom 0 form

end SealedPost.Hex
