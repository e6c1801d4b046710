import SealedPost.Cipher.Sha1

/-! OAEP padding with SHA-1, its mask generator MGF1, and the empty label. -/
namespace SealedPost.Oaep

def mask (seed : Bytes) (n : Nat) : Bytes :=
  ((List.range ((n + Sha1.size - 1) / Sha1.size)).flatMap fun i =>
    Sha1.hash (seed ++ Bytes.ofNatBE 4 i)).take n

def labelHash : Bytes :=
  Sha1.hash []

def overhead : Nat := 2 * Sha1.size + 2

/-- Pads a message to `k` bytes under a seed of twenty bytes, if it has at most `k - 42`. -/
def pad (k : Nat) (seed message : Bytes) : Option Bytes :=
  if message.length + overhead ≤ k then
    let block := labelHash ++ List.replicate (k - message.length - overhead) 0 ++ 1 :: message
    let maskedBlock := Bytes.xor block (mask seed block.length)
    let maskedSeed := Bytes.xor seed (mask maskedBlock Sha1.size)
    some (0 :: maskedSeed ++ maskedBlock)
  else none

def afterOne : Bytes → Option Bytes
  | [] => none
  | b :: rest => if b = 0 then afterOne rest else if b = 1 then some rest else none

def unpad (padded : Bytes) : Option Bytes :=
  if padded.length < overhead then none
  else
    let maskedSeed := (padded.drop 1).take Sha1.size
    let maskedBlock := padded.drop (1 + Sha1.size)
    let seed := Bytes.xor maskedSeed (mask maskedBlock Sha1.size)
    let block := Bytes.xor maskedBlock (mask seed maskedBlock.length)
    if padded.headD 1 = 0 ∧ block.take Sha1.size = labelHash then afterOne (block.drop Sha1.size) else none

end SealedPost.Oaep
