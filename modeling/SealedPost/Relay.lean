import SealedPost.Directory
import SealedPost.Link
import SealedPost.Queue
import SealedPost.Wire.Response

/-! A relay that keeps its word: it gives out ids, tells of clients and keys, and hands on messages in order. -/
namespace SealedPost

structure RelayClient where
  id : ClientId
  name : String
  publicKey : PublicKey
deriving DecidableEq

structure Relay where
  clients : List RelayClient := []
  /-- The messages that wait, with the clients they wait for, in the order of arrival. -/
  waiting : List (ClientId × QueuedMessage) := []
  lastMessageId : Nat := 0
  requests : Nat := 0
  /-- Registrations are answered with too few bytes, and not kept. -/
  answersRegistrationShort : Bool := false
  /-- The ids that are given out, one after the other. -/
  idFor : Nat → ClientId := fun n => .replicate (UInt8.ofNat (n + 1))

namespace Relay

def queue (relay : Relay) (target : ClientId) : List QueuedMessage :=
  (relay.waiting.filter (·.1 = target)).map Prod.snd

def enqueue (relay : Relay) (target : ClientId) (message : QueuedMessage) : Relay :=
  { relay with waiting := relay.waiting ++ [(target, message)] }

/-- Puts other messages in place of those that wait for a client. They go behind all that wait. -/
def replaceQueue (relay : Relay) (target : ClientId) (messages : List QueuedMessage) : Relay :=
  { relay with waiting := relay.waiting.filter (·.1 ≠ target) ++ messages.map fun m => (target, m) }

def removeAt (relay : Relay) (target : ClientId) (index : Nat) : Bool × Relay :=
  let queue := relay.queue target
  if index < queue.length then (true, relay.replaceQueue target (queue.eraseIdx index)) else (false, relay)

/-- Moves the queue of one client behind that of another and tells how many messages moved. Moved to the same
client, the queue stays as it is. -/
def moveQueue (relay : Relay) (source target : ClientId) : Nat × Relay :=
  let moved := relay.queue source
  let relay := relay.replaceQueue source []
  (moved.length, { relay with waiting := relay.waiting ++ moved.map fun m => (target, m) })

def nameInField (field : Bytes) : String :=
  Utf8.decodeLossy (field.takeWhile (· ≠ 0))

def register (relay : Relay) (payload : Bytes) : Response × Relay :=
  let name := nameInField (payload.take nameFieldSize)
  if relay.clients.any (·.name = name) then (.ofPayload .generalError [], relay)
  else if relay.answersRegistrationShort then (.ofPayload .registerOk (List.replicate 10 0x11), relay)
  else
    let id := relay.idFor relay.clients.length
    let client : RelayClient := ⟨id, name, ⟨Block.fit 160 (payload.drop nameFieldSize)⟩⟩
    (.ofPayload .registerOk id.toBytes, { relay with clients := relay.clients ++ [client] })

def listClients (relay : Relay) (asker : ClientId) : Response :=
  .ofPayload .clientList
    ((relay.clients.filter (·.id ≠ asker)).flatMap fun client => Peer.encode ⟨client.id, client.name⟩)

def tellKey (relay : Relay) (target : ClientId) : Response :=
  match relay.clients.find? (·.id = target) with
  | some client => .ofPayload .publicKey (client.id.toBytes ++ client.publicKey.toBytes)
  | none => .ofPayload .generalError []

/-- Takes a message for a client and numbers it. The sender is who the header says. -/
def accept (relay : Relay) (sender : ClientId) (payload : Bytes) : Response × Relay :=
  let target : ClientId := ⟨Block.fit 16 payload⟩
  let messageId := relay.lastMessageId + 1
  let message : QueuedMessage := {
    messageId := UInt32.ofNat messageId
    sender
    kind := .ofByte ((payload.drop 16).headD 0)
    content := payload.drop 21 }
  (.ofPayload .messageSent (target.toBytes ++ Bytes.ofNatLE 4 messageId),
    { relay.enqueue target message with lastMessageId := messageId })

def handOut (relay : Relay) (asker : ClientId) : Response × Relay :=
  (.ofPayload .waitingMessages ((relay.queue asker).flatMap QueuedMessage.encode), relay.replaceQueue asker [])

/-- Answers one whole request. There is no answer to bytes that are none. -/
def handle (relay : Relay) (request : Bytes) : Option Response × Relay :=
  let relay := { relay with requests := relay.requests + 1 }
  match RequestHeader.decode request with
  | .error _ => (none, relay)
  | .ok header =>
    let payload := request.drop RequestHeader.size
    match RequestCode.ofNumber? header.code with
    | none => (none, relay)
    | some .register => let r := relay.register payload; (some r.1, r.2)
    | some .clientList => (some (relay.listClients header.clientId), relay)
    | some .publicKey => (some (relay.tellKey ⟨Block.fit 16 payload⟩), relay)
    | some .sendMessage => let r := relay.accept header.clientId payload; (some r.1, r.2)
    | some .waitingMessages => let r := relay.handOut header.clientId; (some r.1, r.2)

end Relay

structure RelayLine where
  relay : Relay
  inbound : Bytes := []

namespace RelayLine

def answer (request : Bytes) (line : RelayLine) : Except LinkFault Unit × RelayLine :=
  let (response, relay) := line.relay.handle request
  let reply := match response with
    | some response => response.encode
    | none => []
  (.ok (), { relay, inbound := line.inbound ++ reply })

def take (count : Nat) (line : RelayLine) : Except LinkFault Bytes × RelayLine :=
  if line.inbound.length < count then (.error (.endOfStream "end of stream"), line)
  else (.ok (line.inbound.take count), { line with inbound := line.inbound.drop count })

/-- The link to the relay. A connection always opens, and what is left in it is lost when it closes. -/
def link {m : Type → Type} [Monad m] : Link (StateT RelayLine m) where
  connect := pure (.ok ())
  send request := modifyGet (answer request)
  receive count := modifyGet (take count)
  disconnect := modify ({ · with inbound := [] })

end RelayLine

end SealedPost
