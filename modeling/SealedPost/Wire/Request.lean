import SealedPost.Keys
import SealedPost.Text.Utf8
import SealedPost.Wire.Header

/-! Requests to the relay by what they ask, and their bytes. -/
namespace SealedPost

def nameFieldSize : Nat := 255

/-- The field that carries a name: its UTF-8 form cut to 254 bytes and zero-padded to 255, so that a zero
always ends it. The cut may fall inside a character. -/
def nameField (name : String) : Bytes :=
  Bytes.padded nameFieldSize ((Utf8.encode name).take (nameFieldSize - 1))

/-- A request to the relay. A message carries no more content than its size fields can tell. -/
inductive Request where
  | register (username : String) (key : PublicKey)
  | clientList (sender : ClientId)
  | publicKey (sender target : ClientId)
  | sendMessage (sender target : ClientId) (kind : MessageKind) (content : Bytes)
      (fits : content.length + 21 < 1 <<< 32)
  | waitingMessages (sender : ClientId)
deriving DecidableEq

namespace Request

/-- Addresses content to a client, if the size of the content fits its field and so does the size of the whole
payload, which is 21 bytes more. -/
def message (sender target : ClientId) (kind : MessageKind) (content : Bytes) : Except Failure Request :=
  if content.length ≥ 1 <<< 32 then .error (.payloadTooLarge content.length)
  else if fits : content.length + 21 < 1 <<< 32 then .ok (.sendMessage sender target kind content fits)
  else .error (.payloadTooLarge (content.length + 21))

def code : Request → RequestCode
  | register .. => .register
  | clientList .. => .clientList
  | publicKey .. => .publicKey
  | sendMessage .. => .sendMessage
  | waitingMessages .. => .waitingMessages

/-- The id in the header. A registration has none yet and carries zeros. -/
def sender : Request → ClientId
  | register .. => .unassigned
  | clientList sender => sender
  | publicKey sender _ => sender
  | sendMessage sender .. => sender
  | waitingMessages sender => sender

/-- What follows the header. A registration has the name field and the key; a message has its target, the kind
byte, the size of the content and the content. -/
def payload : Request → Bytes
  | register username key => nameField username ++ key.toBytes
  | clientList _ => []
  | publicKey _ target => target.toBytes
  | sendMessage _ target kind content _ =>
    target.toBytes ++ kind.byte :: Bytes.ofNatLE 4 content.length ++ content
  | waitingMessages _ => []

def header (r : Request) : RequestHeader where
  clientId := r.sender
  version := protocolVersion
  code := r.code.number
  payloadSize := UInt32.ofNat r.payload.length

def encode (r : Request) : Bytes :=
  r.header.encode ++ r.payload

end Request

end SealedPost
