import SealedPost.Keys

/-! What a client needs of cryptography, as records of functions that a session is run with. -/
namespace SealedPost

structure Ciphers where
  /-- The wire form of the public key that belongs to a private key. -/
  derivePublicKey : PrivateKey → Except Failure PublicKey
  /-- Opens what was wrapped for the owner of the private key. -/
  unwrap : PrivateKey → Bytes → Except Failure Bytes
  encrypt : SymmetricKey → Bytes → Bytes
  decrypt : SymmetricKey → Bytes → Except Failure Bytes

structure KeySource (m : Type → Type) where
  freshKeyPair : m (Except Failure KeyPair)
  freshSymmetricKey : m (Except Failure SymmetricKey)
  /-- A seed of twenty bytes for one wrapping. -/
  freshSeed : m Bytes

structure CipherSuite (m : Type → Type) extends Ciphers where
  freshKeyPair : m (Except Failure KeyPair)
  freshSymmetricKey : m (Except Failure SymmetricKey)
  /-- Encrypts a short message for the owner of a public key. -/
  wrap : PublicKey → Bytes → m (Except Failure Bytes)

def KeySource.lift {m n : Type → Type} [MonadLiftT m n] (source : KeySource m) : KeySource n where
  freshKeyPair := monadLift source.freshKeyPair
  freshSymmetricKey := monadLift source.freshSymmetricKey
  freshSeed := monadLift source.freshSeed

def CipherSuite.lift {m n : Type → Type} [MonadLiftT m n] (suite : CipherSuite m) : CipherSuite n where
  toCiphers := suite.toCiphers
  freshKeyPair := monadLift suite.freshKeyPair
  freshSymmetricKey := monadLift suite.freshSymmetricKey
  wrap key message := monadLift (suite.wrap key message)

end SealedPost
