/-! Decimal numbers: writing them, and reading those up to a limit. -/
namespace SealedPost.Decimal

def digit (n : Nat) : Char :=
  Char.ofNat (48 + n)

def digits (n : Nat) : List Char :=
  if n < 10 then [digit n] else digits (n / 10) ++ [digit (n % 10)]

def text (n : Nat) : String :=
  String.ofList (digits n)

inductive Fault where
  | empty
  | invalidDigit
  | tooLarge
deriving DecidableEq

def Fault.message : Fault → String
  | .empty => "cannot parse integer from empty string"
  | .invalidDigit => "invalid digit found in string"
  | .tooLarge => "number too large to fit in target type"

/-- The number that starts with the digits of `value` and goes on with `cs`. The first character that is
no digit, or that passes the limit, decides the fault. -/
def parseFrom (limit value : Nat) : List Char → Except Fault Nat
  | [] => .ok value
  | c :: cs =>
    if c.isDigit then
      let value := 10 * value + (c.toNat - 48)
      if value ≤ limit then parseFrom limit value cs else .error .tooLarge
    else .error .invalidDigit

/-- Reads a number up to `limit`: digits, after one plus sign at most. -/
def parse (limit : Nat) : List Char → Except Fault Nat
  | [] => .error .empty
  | ['+'] => .error .invalidDigit
  | '+' :: cs => parseFrom limit 0 cs
  | cs => parseFrom limit 0 cs

end SealedPost.Decimal
