import SealedPost.Text.Hex

/-! Client ids: the sixteen bytes by which a relay knows a client. -/
namespace SealedPost

structure ClientId extends Block 16
deriving DecidableEq

namespace ClientId

/-- The all-zero id that stands where no id is assigned yet. -/
def unassigned : ClientId := ⟨Block.replicate 16 0⟩

def isUnassigned (id : ClientId) : Bool :=
  id.toBytes == unassigned.toBytes

def first? (bs : Bytes) : Option ClientId :=
  (Block.first? 16 bs).map mk

def replicate (b : UInt8) : ClientId := ⟨Block.replicate 16 b⟩

/-- The id as 32 lowercase hexadecimal digits. -/
def hex (id : ClientId) : String :=
  Hex.text id.toBytes

def order (a b : ClientId) : Ordering :=
  compare (Bytes.natBE a.toBytes) (Bytes.natBE b.toBytes)

end ClientId

end SealedPost
