import SealedPost.Failure

/-! The keys of a client as byte strings: a public and a private RSA key, and AES keys. -/
namespace SealedPost

structure PublicKey extends Block 160
deriving DecidableEq

/-- A private RSA key as its encoded bytes, which need not be the encoding of a usable key. -/
structure PrivateKey where
  toBytes : Bytes
deriving DecidableEq

structure SymmetricKey extends Block 16
deriving DecidableEq

structure KeyPair where
  privateKey : PrivateKey
  publicKey : PublicKey
deriving DecidableEq

def PublicKey.ofBytes (bs : Bytes) : Except Failure PublicKey :=
  match Block.ofBytes? 160 bs with
  | some block => .ok ⟨block⟩
  | none => .error (.invalidPublicKey 160 bs.length)

def SymmetricKey.ofBytes (bs : Bytes) : Except Failure SymmetricKey :=
  match Block.ofBytes? 16 bs with
  | some block => .ok ⟨block⟩
  | none => .error (.crypto (.symmetricKeySize bs.length))

end SealedPost
