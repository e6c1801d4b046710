import SealedPost.Cipher.Suite

/-! Keys laid out in advance, as a source of fresh ones that gives the same each time. -/
namespace SealedPost

/-- Keys that are laid out in advance, and what is given when they run out. -/
structure KeySupply where
  pairs : List (Except Failure KeyPair) := []
  keys : List (Except Failure SymmetricKey) := []
  pairAfter : Except Failure KeyPair := .error .random
  keyAfter : Except Failure SymmetricKey := .error .random
  seedsDrawn : Nat := 0

namespace KeySupply

def takePair (supply : KeySupply) : Except Failure KeyPair × KeySupply :=
  match supply.pairs with
  | [] => (supply.pairAfter, supply)
  | pair :: pairs => (pair, { supply with pairs })

def takeKey (supply : KeySupply) : Except Failure SymmetricKey × KeySupply :=
  match supply.keys with
  | [] => (supply.keyAfter, supply)
  | key :: keys => (key, { supply with keys })

def takeSeed (supply : KeySupply) : Bytes × KeySupply :=
  (Bytes.ofNatBE 20 supply.seedsDrawn, { supply with seedsDrawn := supply.seedsDrawn + 1 })

def source : KeySource (StateM KeySupply) where
  freshKeyPair := modifyGet takePair
  freshSymmetricKey := modifyGet takeKey
  freshSeed := modifyGet takeSeed

end KeySupply

end SealedPost
