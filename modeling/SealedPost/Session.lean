import SealedPost.Directory
import SealedPost.Identity
import SealedPost.KeyRing
import SealedPost.Queue

/-! The state of a client, and what it makes of the messages that wait for it. -/
namespace SealedPost

/-- What a client knows: who it is, the keys it shares, and the directory it was last told. -/
structure Session where
  identity : Option Identity := none
  keys : KeyRing := .empty
  directory : Directory := {}

inductive Outcome where
  /-- The sender asks for a key. -/
  | keyRequested
  /-- The sender's key was unwrapped and is held from now on. -/
  | keyEstablished
  /-- The sender's key did not unwrap; nothing changed. -/
  | keyRejected (reason : Failure)
  | text (text : String)
  | file (contents : Bytes)
  /-- A key is held for the sender, but the content does not open with it. -/
  | undecryptable (ciphertext : Bytes) (reason : Failure)
  /-- No key is held for the sender. -/
  | noKey (ciphertext : Bytes)
  | unknown (content : Bytes)
deriving DecidableEq

structure ReceivedMessage where
  messageId : UInt32
  sender : ClientId
  senderName : Option String
  kind : MessageKind
  outcome : Outcome
deriving DecidableEq

namespace Session

def unwrapKey (ciphers : Ciphers) (s : Session) (wrapped : Bytes) : Except Failure SymmetricKey :=
  match s.identity with
  | none => .error .notRegistered
  | some identity =>
    match ciphers.unwrap identity.privateKey wrapped with
    | .error e => .error e
    | .ok bs =>
      match Block.ofBytes? 16 bs with
      | some block => .ok ⟨block⟩
      | none => .error (.decryption (.keySize bs.length))

def openContent (ciphers : Ciphers) (s : Session) (sender : ClientId) (content : Bytes)
    (opened : Bytes → Outcome) : Outcome :=
  match s.keys.lookup sender with
  | none => .noKey content
  | some key =>
    match ciphers.decrypt key content with
    | .ok plaintext => opened plaintext
    | .error e => .undecryptable content e

/-- What comes of a message, and the keys held after it. An empty text has nothing to open, but shows only where
a key is held. -/
def judge (ciphers : Ciphers) (s : Session) (m : QueuedMessage) : Outcome × KeyRing :=
  match m.kind with
  | .keyRequest => (.keyRequested, s.keys)
  | .keySend =>
    match s.unwrapKey ciphers m.content with
    | .ok key => (.keyEstablished, s.keys.establish m.sender key)
    | .error e => (.keyRejected e, s.keys)
  | .text =>
    if m.content = [] ∧ s.keys.has m.sender = true then (.text "", s.keys)
    else (s.openContent ciphers m.sender m.content fun bs => .text (Utf8.decodeLossy bs), s.keys)
  | .file => (s.openContent ciphers m.sender m.content .file, s.keys)
  | .unknown _ => (.unknown m.content, s.keys)

/-- Takes in one message. Only the keys can change. -/
def absorb (ciphers : Ciphers) (s : Session) (m : QueuedMessage) : ReceivedMessage × Session :=
  let (outcome, keys) := s.judge ciphers m
  ({ messageId := m.messageId
     sender := m.sender
     senderName := s.directory.nameOf? m.sender
     kind := m.kind
     outcome }, { s with keys })

/-- Takes in messages in order, each with the keys that those before it left. -/
def absorbAll (ciphers : Ciphers) (s : Session) : List QueuedMessage → List ReceivedMessage × Session
  | [] => ([], s)
  | m :: ms =>
    let (received, s) := s.absorb ciphers m
    let (rest, s) := absorbAll ciphers s ms
    (received :: rest, s)

end Session

end SealedPost
