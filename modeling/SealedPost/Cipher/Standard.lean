import SealedPost.Cipher.Cbc
import SealedPost.Cipher.KeyForm
import SealedPost.Cipher.Suite
import SealedPost.Text.Base64
import SealedPost.Text.Blank
import SealedPost.Text.Utf8

/-! The cryptography that clients and relay agree on: RSA with OAEP for keys, AES in chaining mode for content,
Base64 for keys in text. -/
namespace SealedPost.Standard

def derivePublicKey (key : PrivateKey) : Except Failure PublicKey := do
  let key ← Rsa.Private.ofKey key
  key.publicKey.toWire

def wrap (key : PublicKey) (seed message : Bytes) : Except Failure Bytes := do
  let key ← Rsa.Public.ofWire key
  match key.encrypt seed message with
  | some ciphertext => return ciphertext
  | none => throw (.crypto .messageTooLong)

def unwrap (key : PrivateKey) (ciphertext : Bytes) : Except Failure Bytes := do
  let key ← Rsa.Private.ofKey key
  match key.decrypt ciphertext with
  | .ok message => return message
  | .error .ciphertext => throw (.decryption .rsa)
  | .error .arithmetic => throw (.decryption .rsaArithmetic)

def encrypt (key : SymmetricKey) (plaintext : Bytes) : Bytes :=
  Cbc.encrypt key.toBytes plaintext

def decrypt (key : SymmetricKey) (ciphertext : Bytes) : Except Failure Bytes :=
  match Cbc.decrypt key.toBytes ciphertext with
  | some plaintext => .ok plaintext
  | none => .error (.decryption .aes)

/-- Reads canonical Base64 with white space around it. -/
def decodeBase64 (text : String) : Except Failure Bytes :=
  match Base64.decode (Utf8.encode (Text.trim text)) with
  | .ok bs => .ok bs
  | .error fault => .error (.config (.base64 fault))

def ciphers : Ciphers := { derivePublicKey, unwrap, encrypt, decrypt }

def suite {m : Type → Type} [Monad m] (source : KeySource m) : CipherSuite m where
  toCiphers := ciphers
  freshKeyPair := source.freshKeyPair
  freshSymmetricKey := source.freshSymmetricKey
  wrap key message := do
    let seed ← source.freshSeed
    return wrap key seed message

end SealedPost.Standard
