import SealedPost.Session.Exchange

/-! What a client does with its relay. Each operation opens one connection, makes its round trips one after another,
and closes the connection before it returns. -/
namespace SealedPost.Session

variable {m : Type → Type} [Monad m] (env : Surroundings m)

def ownId : Action m ClientId := do
  match (← get).identity with
  | some identity => return identity.id
  | none => throw .notRegistered

def refreshDirectory (id : ClientId) : Action m Unit := do
  let payload ← roundTrip env (.clientList id) .clientList
  modify ({ · with directory := .ofPayload payload })

/-- Asks for a client's public key. The answer names a client itself, which need not be the one asked for. -/
def lookupKey (id peer : ClientId) : Action m KeyAnswer := do
  let payload ← roundTrip env (.publicKey id peer) .publicKey
  Action.ofExcept (KeyAnswer.decode payload)

def deliver (id peer : ClientId) (kind : MessageKind) (content : Bytes) : Action m Receipt := do
  let request ← Action.ofExcept (Request.message id peer kind content)
  let payload ← roundTrip env request .messageSent
  Action.ofExcept (Receipt.decode payload)

def register (username : String) : Action m ClientId := do
  match (← get).identity with
  | some identity => throw (.alreadyRegistered identity.username)
  | none =>
    let pair ← Action.draw env.suite.freshKeyPair
    let payload ← withConnection env (roundTrip env (.register username pair.publicKey) .registerOk)
    match ClientId.first? payload with
    | none => throw (.truncatedPayload 16)
    | some id =>
      modify ({ · with identity := some ⟨username, id, pair.privateKey, pair.publicKey⟩ })
      return id

def clientList : Action m Directory := do
  let id ← ownId
  withConnection env (refreshDirectory env id)
  return (← get).directory

def findPeer (name : String) : Action m Peer := do
  let directory ← clientList env
  match directory.find? name with
  | some peer => return peer
  | none => throw (.peerNotFound name)

def fetchPublicKey (peer : ClientId) : Action m KeyAnswer := do
  let id ← ownId
  withConnection env (lookupKey env id peer)

def requestKey (peer : ClientId) : Action m Receipt := do
  let id ← ownId
  withConnection env (deliver env id peer .keyRequest [])

/-- Sends a client a fresh key, wrapped with its public key, and holds the key once the relay has the message. -/
def sendKey (peer : ClientId) : Action m Receipt := do
  let id ← ownId
  let (key, receipt) ← withConnection env do
    let answer ← lookupKey env id peer
    let key ← Action.draw env.suite.freshSymmetricKey
    let wrapped ← Action.draw (env.suite.wrap answer.publicKey key.toBytes)
    let receipt ← deliver env id peer .keySend wrapped
    return (key, receipt)
  modify fun s => { s with keys := s.keys.establish peer key }
  return receipt

/-- Sends a client content encrypted under the key held for it. Without one the relay is not asked. -/
def sendContent (peer : ClientId) (kind : MessageKind) (plaintext : Bytes) : Action m Receipt := do
  let id ← ownId
  match (← get).keys.lookup peer with
  | none => throw (.channelNotEstablished peer)
  | some key => withConnection env (deliver env id peer kind (env.suite.encrypt key plaintext))

def sendText (peer : ClientId) (text : String) : Action m Receipt :=
  sendContent env peer .text (Utf8.encode text)

def sendFile (peer : ClientId) (contents : Bytes) : Action m Receipt :=
  sendContent env peer .file contents

/-- Asks for the directory and for the messages that wait, and takes them in. -/
def fetchWaiting : Action m (List ReceivedMessage) := do
  let id ← ownId
  let payload ← withConnection env do
    refreshDirectory env id
    roundTrip env (.waitingMessages id) .waitingMessages
  modifyGet fun s => s.absorbAll env.suite.toCiphers (parseQueue payload)

end SealedPost.Session
