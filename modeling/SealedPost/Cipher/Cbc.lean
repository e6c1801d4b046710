import SealedPost.Cipher.Aes

/-! AES in cipher block chaining mode with an all-zero first vector and padding to whole blocks. Peers rely on the
zero vector. -/
namespace SealedPost.Cbc

def zeroVector : Bytes :=
  List.replicate 16 0

/-- The bytes that fill the last block: `n` times the byte `n`, from one to sixteen. -/
def padding (length : Nat) : Bytes :=
  let n := 16 - length % 16
  List.replicate n (UInt8.ofNat n)

def dropPadding (bs : Bytes) : Option Bytes :=
  let n := (bs.getLastD 0).toNat
  let kept := bs.length - n
  if 1 ≤ n ∧ n ≤ 16 ∧ n ≤ bs.length ∧ bs.drop kept = List.replicate n (UInt8.ofNat n) then some (bs.take kept)
  else none

def chain (encrypt : Bytes → Bytes) (vector : Bytes) : List Bytes → Bytes
  | [] => []
  | block :: blocks =>
    let sealed := encrypt (Bytes.xor vector block)
    sealed ++ chain encrypt sealed blocks

def unchain (decrypt : Bytes → Bytes) (vector : Bytes) : List Bytes → Bytes
  | [] => []
  | block :: blocks => Bytes.xor vector (decrypt block) ++ unchain decrypt block blocks

def encrypt (key plaintext : Bytes) : Bytes :=
  chain (Aes.encryptBlock key) zeroVector (Bytes.pieces 16 (plaintext ++ padding plaintext.length))

/-- Decrypts whole blocks, one at least, that end in padding. -/
def decrypt (key ciphertext : Bytes) : Option Bytes :=
  if ciphertext = [] ∨ ciphertext.length % 16 ≠ 0 then none
  else dropPadding (unchain (Aes.decryptBlock key) zeroVector (Bytes.pieces 16 ciphertext))

end SealedPost.Cbc
