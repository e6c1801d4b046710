import SealedPost.Failure
import SealedPost.Wire.Code

/-! The fixed headers of requests and responses, as bytes and back. -/
namespace SealedPost

structure RequestHeader where
  clientId : ClientId
  version : UInt8
  code : UInt16
  payloadSize : UInt32
deriving DecidableEq

structure ResponseHeader where
  version : UInt8
  code : UInt16
  payloadSize : UInt32
deriving DecidableEq

namespace ResponseHeader

def size : Nat := 7

/-- Version (1), code (2) and payload size (4), numbers least significant byte first. -/
def encode (h : ResponseHeader) : Bytes :=
  h.version :: Bytes.ofNatLE 2 h.code.toNat ++ Bytes.ofNatLE 4 h.payloadSize.toNat

def decode (bs : Bytes) : Except Failure ResponseHeader :=
  if bs.length < size then .error (.framing (.responseHeader bs.length))
  else .ok {
    version := bs.headD 0
    code := UInt16.ofNat (Bytes.natLE ((bs.drop 1).take 2))
    payloadSize := UInt32.ofNat (Bytes.natLE ((bs.drop 3).take 4)) }

def responseCode? (h : ResponseHeader) : Option ResponseCode :=
  ResponseCode.ofNumber? h.code

end ResponseHeader

namespace RequestHeader

def size : Nat := 23

/-- Client id (16), version (1), code (2) and payload size (4), numbers least significant byte first. -/
def encode (h : RequestHeader) : Bytes :=
  h.clientId.toBytes ++ h.version :: Bytes.ofNatLE 2 h.code.toNat ++ Bytes.ofNatLE 4 h.payloadSize.toNat

def decode (bs : Bytes) : Except Failure RequestHeader :=
  if bs.length < size then .error (.framing (.requestHeader bs.length))
  else .ok {
    clientId := ⟨Block.fit 16 bs⟩
    version := (bs.drop 16).headD 0
    code := UInt16.ofNat (Bytes.natLE ((bs.drop 17).take 2))
    payloadSize := UInt32.ofNat (Bytes.natLE ((bs.drop 19).take 4)) }

end RequestHeader

end SealedPost
