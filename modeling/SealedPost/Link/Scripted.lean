import SealedPost.Link

/-! A link that plays back a script: what the relay replies to each request, and where the link fails. -/
namespace SealedPost

structure ScriptedReply where
  sendFault : Option LinkFault := none
  reply : Bytes := []
  /-- The call to receive that fails, counted from one, and how. -/
  receiveFault : Option (Nat × LinkFault) := none
  /-- The call to receive, counted from one, that takes one byte less than asked. -/
  shortAt : Option Nat := none

structure ScriptedLink where
  script : List ScriptedReply := []
  /-- The next call to connect fails. -/
  connectFault : Option LinkFault := none
  /-- Bytes that arrived and are not received. -/
  inbound : Bytes := []
  /-- What happens to the last request. -/
  current : ScriptedReply := {}
  /-- Calls to receive since the last request. -/
  received : Nat := 0
  /-- Requests so far, failed ones included. -/
  requests : Nat := 0

namespace ScriptedLink

/-- Takes bytes off a stream, which is lost if it holds too few. -/
def takeInbound (inbound : Bytes) (count : Nat) : Except LinkFault Bytes × Bytes :=
  if inbound.length < count then (.error (.endOfStream "end of stream"), [])
  else (.ok (inbound.take count), inbound.drop count)

def open? (s : ScriptedLink) : Except LinkFault Unit × ScriptedLink :=
  match s.connectFault with
  | some fault => (.error fault, { s with inbound := [], connectFault := none })
  | none => (.ok (), { s with inbound := [] })

def answer (s : ScriptedLink) : Except LinkFault Unit × ScriptedLink :=
  let current := s.script.headD {}
  let s := { s with script := s.script.drop 1, current, received := 0, requests := s.requests + 1 }
  match current.sendFault with
  | some fault => (.error fault, s)
  | none => (.ok (), { s with inbound := s.inbound ++ current.reply })

/-- Receives as many bytes as asked, or one less where the script says so. -/
def takeAsked (count : Nat) (s : ScriptedLink) : Except LinkFault Bytes × ScriptedLink :=
  let count := if s.current.shortAt = some s.received then count - 1 else count
  let r := takeInbound s.inbound count
  (r.1, { s with inbound := r.2 })

def take (count : Nat) (s : ScriptedLink) : Except LinkFault Bytes × ScriptedLink :=
  let s := { s with received := s.received + 1 }
  match s.current.receiveFault with
  | some (failing, fault) => if failing = s.received then (.error fault, s) else takeAsked count s
  | none => takeAsked count s

def link {m : Type → Type} [Monad m] : Link (StateT ScriptedLink m) where
  connect := modifyGet open?
  send _ := modifyGet answer
  receive count := modifyGet (take count)
  disconnect := pure ()

end ScriptedLink

end SealedPost
