import SealedPost.Bytes

/-! The byte stream between a client and its relay, as a record of calls, and the log of the calls made. -/
namespace SealedPost

inductive LinkFault where
  | endOfStream (reason : String)
  | notConnected
  | invalidAddress
  | invalidPort
  | stated (reason : String)
deriving DecidableEq

def LinkFault.message : LinkFault → String
  | .endOfStream reason => reason
  | .notConnected => "not connected to server"
  | .invalidAddress => "invalid socket address"
  | .invalidPort => "invalid port value"
  | .stated reason => reason

/-- The calls on a link. One connection is open at a time. -/
structure Link (m : Type → Type) where
  connect : m (Except LinkFault Unit)
  /-- Writes every byte or fails. -/
  send : Bytes → m (Except LinkFault Unit)
  /-- Waits for exactly this many bytes, or fails with the end of the stream. -/
  receive : Nat → m (Except LinkFault Bytes)
  disconnect : m Unit

inductive Call where
  | connect
  | send (bytes : Bytes)
  | receive (count : Nat)
  | disconnect
deriving DecidableEq

namespace Link

def lift {m n : Type → Type} [MonadLiftT m n] (link : Link m) : Link n where
  connect := monadLift link.connect
  send bytes := monadLift (link.send bytes)
  receive count := monadLift (link.receive count)
  disconnect := monadLift link.disconnect

/-- The link with a log of the calls made on it, in order, failed ones included. -/
def recorded {m : Type → Type} [Monad m] (link : Link m) : Link (StateT (List Call) m) where
  connect := do modify (· ++ [.connect]); monadLift link.connect
  send bytes := do modify (· ++ [.send bytes]); monadLift (link.send bytes)
  receive count := do modify (· ++ [.receive count]); monadLift (link.receive count)
  disconnect := do modify (· ++ [.disconnect]); monadLift link.disconnect

end Link

end SealedPost
