import SealedPost.Keys
import SealedPost.Wire.Header

/-! Responses of the relay, and the payloads of two kinds of them. -/
namespace SealedPost

structure Response where
  header : ResponseHeader
  payload : Bytes
deriving DecidableEq

namespace Response

/-- The payload, if the response carries the expected code. The general error comes before any other
judgement of the code. -/
def payloadFor (expected : ResponseCode) (r : Response) : Except Failure Bytes :=
  match r.header.responseCode? with
  | some .generalError => .error .serverRejected
  | some code =>
    if code = expected then .ok r.payload
    else .error (.unexpectedResponse expected.number r.header.code)
  | none => .error (.unexpectedResponse expected.number r.header.code)

def ofPayload (code : ResponseCode) (payload : Bytes) : Response :=
  ⟨⟨protocolVersion, code.number, UInt32.ofNat payload.length⟩, payload⟩

def encode (r : Response) : Bytes :=
  r.header.encode ++ r.payload

end Response

structure KeyAnswer where
  clientId : ClientId
  publicKey : PublicKey
deriving DecidableEq

namespace KeyAnswer

/-- Reads the client id (16) and the key (160) from the start of a payload. -/
def decode (bs : Bytes) : Except Failure KeyAnswer :=
  if bs.length < 176 then .error (.truncatedPayload 176)
  else .ok ⟨⟨Block.fit 16 bs⟩, ⟨Block.fit 160 (bs.drop 16)⟩⟩

end KeyAnswer

/-- The relay's word that a message is queued for its recipient. -/
structure Receipt where
  recipient : ClientId
  messageId : UInt32
deriving DecidableEq

namespace Receipt

/-- Reads the recipient (16) and the message id (4) from the start of a payload. -/
def decode (bs : Bytes) : Except Failure Receipt :=
  if bs.length < 20 then .error (.truncatedPayload 20)
  else .ok ⟨⟨Block.fit 16 bs⟩, UInt32.ofNat (Bytes.natLE ((bs.drop 16).take 4))⟩

end Receipt

end SealedPost
