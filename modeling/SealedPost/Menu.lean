import SealedPost.Menu.Show
import SealedPost.Session.Operations

/-! The interactive client: a menu and the actions behind it. -/
namespace SealedPost.Menu

def text : String :=
  "\nMessageU client at your service.\n\n110) Register\n120) Request for clients list\n130) Request for public key\n" ++
  "140) Request for waiting messages\n150) Send a text message\n151) Send a request for symmetric key\n" ++
  "152) Send your symmetric key\n153) Send a file\n0) Exit client\n?"

variable {m : Type → Type} [Monad m] (terminal : Terminal m)

def askPeer : Action m (String × Peer) := do
  let name ← askName terminal
  let peer ← Session.findPeer terminal.toSurroundings name
  return (name, peer)

/-- Registers, then writes the identity file. The identity is in use even where the file cannot be written. -/
def register (config : Config) : Action m Unit := do
  let name ← askName terminal
  let id ← Session.register terminal.toSurroundings name
  if let some identity := (← get).identity then
    Action.call (fun fault => .config (.identityFile config.identityFile fault))
      (terminal.writeFile config.identityFile (Utf8.encode identity.toText))
  say terminal ("Registered as " ++ name ++ " with id " ++ id.hex)

def listClients : Action m Unit := do
  let directory ← Session.clientList terminal.toSurroundings
  if directory.peers.isEmpty then say terminal "No other clients registered."
  for peer in directory.peers do
    say terminal (peer.id.hex ++ "  " ++ peer.name)

def showPublicKey : Action m Unit := do
  let (name, peer) ← askPeer terminal
  let answer ← Session.fetchPublicKey terminal.toSurroundings peer.id
  say terminal ("Public key of " ++ name ++ ":")
  say terminal (Base64.encode answer.publicKey.toBytes)

def showWaiting (config : Config) : Action m Unit := do
  let messages ← Session.fetchWaiting terminal.toSurroundings
  if messages.isEmpty then say terminal "No waiting messages."
  Action.perform (showMessages terminal config messages)

/-- Sends a text. The end of the input is an empty text. -/
def sendText : Action m Unit := do
  let (name, peer) ← askPeer terminal
  let text := (← ask terminal "Enter message:").getD ""
  let _ ← Session.sendText terminal.toSurroundings peer.id text
  say terminal ("Message sent to " ++ name ++ ".")

def requestKey : Action m Unit := do
  let (name, peer) ← askPeer terminal
  let _ ← Session.requestKey terminal.toSurroundings peer.id
  say terminal ("Sent to " ++ name ++ ".")

def sendKey : Action m Unit := do
  let (name, peer) ← askPeer terminal
  let _ ← Session.sendKey terminal.toSurroundings peer.id
  say terminal ("Sent to " ++ name ++ ".")

def sendFile : Action m Unit := do
  let (name, peer) ← askPeer terminal
  let path ← askFor terminal "Enter file path:" "file path"
  let contents ← Action.call (fun fault => .config (.attachment path fault)) (terminal.readFile path)
  let _ ← Session.sendFile terminal.toSurroundings peer.id contents
  say terminal ("File sent to " ++ name ++ ".")

def act (config : Config) : Choice → Action m Unit
  | .register => register terminal config
  | .listClients => listClients terminal
  | .showPublicKey => showPublicKey terminal
  | .showWaiting => showWaiting terminal config
  | .sendText => sendText terminal
  | .requestKey => requestKey terminal
  | .sendKey => sendKey terminal
  | .sendFile => sendFile terminal
  | .leave => pure ()

def failureLine : Failure → String
  | .serverRejected => "server responded with an error"
  | e => "Error: " ++ e.message

def report (action : Action m Unit) : Action m Unit := do
  match ← Action.attempt action with
  | .ok _ => pure ()
  | .error e => say terminal (failureLine e)

/-- Shows the menu once and acts on the choice. Tells whether to go on; fails only where the choice cannot be
read. -/
def turn (config : Config) : Action m Bool := do
  match ← ask terminal text with
  | none => return false
  | some answer =>
    match Choice.ofText? answer with
    | none =>
      say terminal ("Unknown option " ++ Text.quoted answer)
      return true
    | some .leave => return false
    | some choice =>
      report terminal (act terminal config choice)
      return true

/-- Shows the menu until it is left, at most `count` times. -/
def turns (config : Config) : Nat → Action m Unit
  | 0 => pure ()
  | count + 1 => do
    if ← turn terminal config then turns config count

def start (config : Config) : Action m Unit := do
  let contents ← Action.perform (terminal.readFile config.identityFile)
  let identity ← Action.ofExcept (Identity.ofFile terminal.suite.toCiphers config.identityFile contents)
  if let some identity := identity then
    say terminal ("Welcome back, " ++ identity.username ++ ".")
  modify ({ · with identity })

/-- A whole run of the client that shows the menu at most `count` times. -/
def run (config : Config) (count : Nat) : Action m Unit := do
  start terminal config
  turns terminal config count

end SealedPost.Menu
