import SealedPost.Cipher.Suite
import SealedPost.Link
import SealedPost.Session
import SealedPost.Wire.Response

/-! One connection to the relay: sending a request, reading the response, and closing whatever happens. -/
namespace SealedPost

structure Surroundings (m : Type → Type) where
  link : Link m
  suite : CipherSuite m

/-- A step of a session that may fail. What it changed before it failed stays. -/
abbrev Action (m : Type → Type) := ExceptT Failure (StateT Session m)

namespace Action

variable {m : Type → Type} [Monad m] {α : Type}

/-- Calls something outside the session, which fails in its own terms. -/
def call {ε : Type} (asFailure : ε → Failure) (x : m (Except ε α)) : Action m α :=
  ExceptT.mk do
    let outcome ← (monadLift x : StateT Session m (Except ε α))
    return outcome.mapError asFailure

def draw (x : m (Except Failure α)) : Action m α :=
  call (fun e => e) x

def ofExcept (outcome : Except Failure α) : Action m α :=
  ExceptT.mk (pure outcome)

def attempt (action : Action m α) : Action m (Except Failure α) :=
  ExceptT.mk (Except.ok <$> action.run)

def perform (x : m α) : Action m α :=
  ExceptT.mk do
    let result ← (monadLift x : StateT Session m α)
    return .ok result

end Action

namespace Session

variable {m : Type → Type} [Monad m] (env : Surroundings m)

def transportFailure (fault : LinkFault) : Failure :=
  .transport fault.message

/-- A link fault as a failure, where the end of the stream means something of its own. -/
def failureAtEnd (atEnd : Failure) : LinkFault → Failure
  | .endOfStream _ => atEnd
  | fault => transportFailure fault

def readResponse : Action m Response := do
  let head ← Action.call (failureAtEnd (.framing .closedEarly)) (env.link.receive ResponseHeader.size)
  let header ← Action.ofExcept (ResponseHeader.decode head)
  let size := header.payloadSize.toNat
  let payload ←
    if size = 0 then pure []
    else Action.call (failureAtEnd (.truncatedPayload size)) (env.link.receive size)
  if payload.length = size then return ⟨header, payload⟩ else throw (.truncatedPayload size)

def roundTrip (request : Request) (expected : ResponseCode) : Action m Bytes := do
  Action.call transportFailure (env.link.send request.encode)
  let response ← readResponse env
  Action.ofExcept (response.payloadFor expected)

/-- Opens a connection, runs an action in it, and closes it however the action ends. -/
def withConnection {α : Type} (action : Action m α) : Action m α := do
  Action.call transportFailure env.link.connect
  let outcome ← Action.attempt action
  Action.perform env.link.disconnect
  Action.ofExcept outcome

end Session

end SealedPost
