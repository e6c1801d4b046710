import SealedPost.Bytes

/-! UTF-8 text: writing it, and reading it with or without ill-formed pieces. -/
namespace SealedPost.Utf8

def encode (s : String) : Bytes :=
  s.toList.flatMap String.utf8EncodeChar

/-- A character of which some bytes are read: its value so far, how many bytes follow the next one, and
the range the next one must be in. -/
structure Begun where
  value : Nat
  after : Nat
  low : UInt8
  high : UInt8
deriving DecidableEq

/-- What the first byte of a longer character promises. No byte starts an overlong form, a surrogate or
a value above the last code point. -/
def begin? (b : UInt8) : Option Begun :=
  if 0xC2 ≤ b ∧ b ≤ 0xDF then some ⟨b.toNat % 32, 0, 0x80, 0xBF⟩
  else if b = 0xE0 then some ⟨0, 1, 0xA0, 0xBF⟩
  else if b = 0xED then some ⟨13, 1, 0x80, 0x9F⟩
  else if 0xE1 ≤ b ∧ b ≤ 0xEF then some ⟨b.toNat % 16, 1, 0x80, 0xBF⟩
  else if b = 0xF0 then some ⟨0, 2, 0x90, 0xBF⟩
  else if 0xF1 ≤ b ∧ b ≤ 0xF3 then some ⟨b.toNat % 8, 2, 0x80, 0xBF⟩
  else if b = 0xF4 then some ⟨4, 2, 0x80, 0x8F⟩
  else none

/-- What a byte gives where no character is begun: a character, an ill-formed piece (`none`), or the
beginning of a longer character. -/
def startAt (b : UInt8) : List (Option Char) × Option Begun :=
  if b < 0x80 then ([some (Char.ofNat b.toNat)], none)
  else match begin? b with
    | none => ([none], none)
    | some begun => ([], some begun)

/-- What a byte gives after the character `begun`. A byte that cannot continue it ends an ill-formed piece and
starts anew. -/
def step (begun : Option Begun) (b : UInt8) : List (Option Char) × Option Begun :=
  match begun with
  | none => startAt b
  | some c =>
    if c.low ≤ b ∧ b ≤ c.high then
      let value := 64 * c.value + b.toNat % 64
      match c.after with
      | 0 => ([some (Char.ofNat value)], none)
      | after + 1 => ([], some ⟨value, after, 0x80, 0xBF⟩)
    else
      let r := startAt b
      (none :: r.1, r.2)

/-- The characters of a byte string that continues the character `begun`. Each maximal ill-formed piece
is one `none`. -/
def scan (begun : Option Begun) : Bytes → List (Option Char)
  | [] => match begun with
    | none => []
    | some _ => [none]
  | b :: rest =>
    let r := step begun b
    r.1 ++ scan r.2 rest

def decode? (bs : Bytes) : Option String :=
  ((scan none bs).mapM id).map String.ofList

/-- The text of a byte string, with U+FFFD for each maximal ill-formed piece. -/
def decodeLossy (bs : Bytes) : String :=
  String.ofList ((scan none bs).map (·.getD '\uFFFD'))

end SealedPost.Utf8
