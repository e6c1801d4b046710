import SealedPost.Cipher.Suite

/-! A suite that hides nothing: one byte of a key marks what is wrapped or encrypted with it. It shows in examples which
key a session used. -/
namespace SealedPost.Transparent

def mark (bs : Bytes) : UInt8 :=
  bs.headD 0

/-- A public key is its private key's mark throughout. -/
def derivePublicKey (key : PrivateKey) : Except Failure PublicKey :=
  .ok ⟨Block.replicate 160 (mark key.toBytes)⟩

def unwrap (key : PrivateKey) : Bytes → Except Failure Bytes
  | [] => .error (.decryption (.stated "RSA decryption failed"))
  | b :: rest =>
    if b = mark key.toBytes then .ok rest else .error (.decryption (.stated "RSA decryption failed"))

def encrypt (key : SymmetricKey) (plaintext : Bytes) : Bytes :=
  mark key.toBytes :: plaintext.map (· ^^^ mark key.toBytes)

def decrypt (key : SymmetricKey) : Bytes → Except Failure Bytes
  | [] => .error (.decryption .aes)
  | b :: rest =>
    if b = mark key.toBytes then .ok (rest.map (· ^^^ mark key.toBytes)) else .error (.decryption .aes)

def ciphers : Ciphers := { derivePublicKey, unwrap, encrypt, decrypt }

def suite {m : Type → Type} [Monad m] (source : KeySource m) : CipherSuite m where
  toCiphers := ciphers
  freshKeyPair := source.freshKeyPair
  freshSymmetricKey := source.freshSymmetricKey
  wrap key message := pure (.ok (mark key.toBytes :: message))

end SealedPost.Transparent
