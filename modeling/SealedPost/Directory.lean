import SealedPost.Wire.Request

/-! The relay's directory of clients: records of an id and a name. -/
namespace SealedPost

structure Peer where
  id : ClientId
  name : String
deriving DecidableEq

namespace Peer

def recordSize : Nat := 271

def encode (p : Peer) : Bytes :=
  p.id.toBytes ++ nameField p.name

/-- Reads a record of 271 bytes. The name ends at the first zero, and each ill-formed piece of it reads as
U+FFFD. -/
def ofRecord (record : Bytes) : Peer where
  id := ⟨Block.fit 16 record⟩
  name := Utf8.decodeLossy ((record.drop 16).takeWhile (· ≠ 0))

end Peer

/-- The clients that the relay last told of, in its order and with its duplicates. -/
structure Directory where
  peers : List Peer := []
deriving DecidableEq

namespace Directory

/-- The records at the start of a payload. A rest of fewer than 271 bytes is left out. -/
def parsePeers (payload : Bytes) : List Peer :=
  ((Bytes.pieces Peer.recordSize payload).filter (·.length = Peer.recordSize)).map Peer.ofRecord

def ofPayload (payload : Bytes) : Directory :=
  ⟨parsePeers payload⟩

def find? (d : Directory) (name : String) : Option Peer :=
  d.peers.find? (·.name = name)

def nameOf? (d : Directory) (id : ClientId) : Option String :=
  (d.peers.find? (·.id = id)).map Peer.name

end Directory

end SealedPost
