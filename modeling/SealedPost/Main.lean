import Std.Async.DNS
import Std.Async.TCP
import SealedPost.Cipher.KeyGeneration
import SealedPost.Menu
import SealedPost.Options

/-! The client as a program: the menu on the standard streams, files of the system, and a TCP connection. -/
namespace SealedPost

open Std.Async Std.Net

abbrev SocketM := StateT (Option TCP.Socket.Client) IO

def linkFaultOf (e : IO.Error) : LinkFault :=
  .stated (toString e)

/-- What an input or output error is to a file. Some steps give the system's error number negated. -/
def fileFaultOf : IO.Error → FileFault
  | .noFileOrDirectory .. => .notFound
  | .inappropriateType _ code _ => if min code (0 - code) = 20 then .notDirectory else .isDirectory
  | e@(.invalidArgument _ code _) => if min code (0 - code) = 36 then .nameTooLong else .stated (toString e)
  | e => .stated (toString e)

def guarded {ε α : Type} (asFault : IO.Error → ε) (step : IO α) : IO (Except ε α) := do
  try
    return .ok (← step)
  catch e =>
    return .error (asFault e)

def onFile {α : Type} (path : String) (step : IO α) : IO (Except FileFault α) := do
  if '\x00' ∈ path.toList then return .error .zeroInPath else guarded fileFaultOf step

/-- Connects to the first address of the host. -/
def openSocket (endpoint : Endpoint) : IO TCP.Socket.Client := do
  let addresses ← (DNS.getAddrInfo endpoint.host (Decimal.text endpoint.port)).block
  match addresses[0]? with
  | none => throw (IO.userError "no address for the host")
  | some address =>
    let socket ← TCP.Socket.Client.mk
    let port := UInt16.ofNat endpoint.port
    let target : SocketAddress := match address with
      | .v4 addr => .v4 ⟨addr, port⟩
      | .v6 addr => .v6 ⟨addr, port⟩
    (socket.connect target).block
    return socket

/-- Receives until `count` bytes have arrived or the peer has closed. -/
partial def receiveAll (socket : TCP.Socket.Client) (count : Nat) (arrived : ByteArray) : IO ByteArray := do
  if arrived.size ≥ count then return arrived
  match ← (socket.recv? (UInt64.ofNat (count - arrived.size))).block with
  | none => return arrived
  | some more => receiveAll socket count (arrived ++ more)

def tcpLink (address : String) : Link SocketM :=
  let closed : Link SocketM := Link.closed address fun endpoint => do
    match ← guarded linkFaultOf (openSocket endpoint) with
    | .ok socket => set (some socket); return .ok ()
    | .error fault => return .error fault
  { connect := closed.connect
    send := fun bytes => do
      match ← get with
      | none => closed.send bytes
      | some socket => guarded linkFaultOf (socket.send ⟨bytes.toArray⟩).block
    receive := fun count => do
      match ← get with
      | none => closed.receive count
      | some socket =>
        match ← guarded linkFaultOf (receiveAll socket count .empty) with
        | .error fault => return .error fault
        | .ok arrived =>
          if arrived.size < count then
            return .error (.endOfStream ("connection closed after " ++ Decimal.text arrived.size ++ " of " ++
              Decimal.text count ++ " bytes"))
          else return .ok arrived.toList
    disconnect := do
      if let some socket := ← get then
        let _ ← guarded linkFaultOf socket.shutdown.block
      set (none : Option TCP.Socket.Client) }

def randomBytes (count : Nat) : IO Bytes := do
  return (← IO.getRandomBytes (USize.ofNat count)).toList

def systemKeys : KeySource IO where
  freshKeyPair := do return Rsa.generate (← randomBytes 64) (← randomBytes 64)
  freshSymmetricKey := do return SymmetricKey.ofBytes (← randomBytes 16)
  freshSeed := randomBytes 20

/-- Reads the bytes of a line with its end. -/
partial def readLineBytes (input : IO.FS.Stream) (line : ByteArray) : IO ByteArray := do
  let more ← input.read 1
  if more.isEmpty then return line
  let line := line ++ more
  if more[0]? = some 10 then return line else readLineBytes input line

def systemTerminal (address : String) : Terminal SocketM where
  link := tcpLink address
  suite := (Standard.suite systemKeys).lift
  say line := do
    let output ← IO.getStdout
    output.putStrLn line
    output.flush
  readLine := do
    let line ← readLineBytes (← IO.getStdin) .empty
    return if line.isEmpty then none else some line.toList
  readFile path := onFile path do return (← IO.FS.readBinFile path).toList
  writeFile path contents := onFile path (IO.FS.writeBinFile path ⟨contents.toArray⟩)

/-- Shows the menu until it is left. -/
partial def turnUntilLeft (terminal : Terminal SocketM) (config : Config) : Action SocketM Unit := do
  if ← Menu.turn terminal config then turnUntilLeft terminal config

def configOf (options : Options) : IO Config := do
  let named ← IO.getEnv "MESSAGEU_SERVER"
  let options := { options with server := options.server <|> named }
  let serverFile : Except FileFault Bytes ← onFile options.serverFile do
    return (← IO.FS.readBinFile options.serverFile).toList
  let temporary := (← IO.getEnv "TMPDIR").getD "/tmp"
  return options.toConfig serverFile temporary

def runProgram (options : Options) : IO UInt32 := do
  let config ← configOf options
  let terminal := systemTerminal config.server
  let session : Action SocketM Unit := do
    Menu.start terminal config
    turnUntilLeft terminal config
  let ((outcome, _), _) ← (session.run.run {}).run none
  match outcome with
  | .ok _ => return 0
  | .error e =>
    IO.eprintln ("Fatal error: " ++ e.message)
    return 1

end SealedPost

def main (arguments : List String) : IO UInt32 :=
  match SealedPost.Options.parse? {} arguments with
  | some options => SealedPost.runProgram options
  | none => do
    IO.eprintln "options: --server, --server-info, --my-info, --download-dir, each with a value"
    return 2
