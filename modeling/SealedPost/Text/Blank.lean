/-! White space as a property of characters, and trimming it off both ends of a text. -/
namespace SealedPost.Text

/-- The Unicode property White_Space. -/
def isBlank (c : Char) : Bool :=
  let n := c.toNat
  (9 ≤ n && n ≤ 13) || n == 0x20 || n == 0x85 || n == 0xA0 || n == 0x1680 ||
    (0x2000 ≤ n && n ≤ 0x200A) || n == 0x2028 || n == 0x2029 || n == 0x202F || n == 0x205F || n == 0x3000

def trimRight : List Char → List Char
  | [] => []
  | c :: cs => match trimRight cs with
    | [] => if isBlank c then [] else [c]
    | rest => c :: rest

def trimChars (cs : List Char) : List Char :=
  trimRight (cs.dropWhile isBlank)

def trim (s : String) : String :=
  String.ofList (trimChars s.toList)

end SealedPost.Text
