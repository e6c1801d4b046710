import SealedPost.Failure
import SealedPost.Link
import SealedPost.Text.Blank
import SealedPost.Text.Lines
import SealedPost.Text.Utf8

/-! Where a relay listens: reading the line of a server file and the address of a link. -/
namespace SealedPost

structure Endpoint where
  host : String
  port : Nat
deriving DecidableEq

namespace Endpoint

def lastPort : Nat := 65535

def standard : Endpoint := ⟨"127.0.0.1", 1357⟩

def text (e : Endpoint) : String :=
  e.host ++ ":" ++ Decimal.text e.port

/-- The characters before and after the last colon, if there is one. -/
def splitAtLastColon : List Char → Option (List Char × List Char)
  | [] => none
  | c :: cs =>
    match splitAtLastColon cs with
    | some (before, after) => some (c :: before, after)
    | none => if c = ':' then some ([], cs) else none

/-- Reads a port with white space around it. The line is only quoted. -/
def portOf (line port : List Char) : Except Failure Nat :=
  match Decimal.parse lastPort (Text.trimChars port) with
  | .ok n => .ok n
  | .error fault => .error (.config (.port (String.ofList line) fault))

/-- Reads the line of a server file: a host, a colon and a port, or a port alone for the local host. Hosts may
hold colons, but not nothing. -/
def ofLine (line : String) : Except Failure Endpoint :=
  let line := Text.trimChars line.toList
  match splitAtLastColon line with
  | none => (portOf line line).map fun port => ⟨standard.host, port⟩
  | some ([], _) => .error (.config (.missingHost (String.ofList line)))
  | some (host, port) =>
    (portOf line port).map fun port => ⟨String.ofList (Text.trimChars host), port⟩

def ofFile (path : String) (contents : Except FileFault Bytes) : Except Failure Endpoint :=
  match contents with
  | .error fault => .error (.config (.serverFile path fault))
  | .ok bs =>
    match Utf8.decode? bs with
    | none => .error (.config (.serverFile path .notText))
    | some text =>
      match Text.lines text with
      | [] => .error (.config (.emptyServerFile path))
      | line :: _ => ofLine line

/-- Reads the address that a link is to connect to. Nothing is trimmed. -/
def ofAddress (address : String) : Except LinkFault Endpoint :=
  match splitAtLastColon address.toList with
  | none => .error .invalidAddress
  | some (host, port) =>
    match Decimal.parse lastPort port with
    | .ok n => .ok ⟨String.ofList host, n⟩
    | .error _ => .error .invalidPort

end Endpoint

/-- A link without a connection, as it is before the first connect and after a disconnect. Connecting tells
what is wrong with the address, or calls `reach` with it. -/
def Link.closed {m : Type → Type} [Monad m] (address : String)
    (reach : Endpoint → m (Except LinkFault Unit)) : Link m where
  connect := match Endpoint.ofAddress address with
    | .error fault => pure (.error fault)
    | .ok endpoint => reach endpoint
  send _ := pure (.error .notConnected)
  receive _ := pure (.error .notConnected)
  disconnect := pure ()

end SealedPost
