import SealedPost.Files
import SealedPost.Menu.Terminal

/-! Printing received messages, each with its end marked, and saving the files among them. -/
namespace SealedPost.Menu

variable {m : Type → Type} [Monad m] (terminal : Terminal m)

def downloadPath (config : Config) (messageId : UInt32) : String :=
  FileStore.join config.downloads ("received_" ++ Decimal.text messageId.toNat ++ ".bin")

/-- What is printed as the content of a message. A file is saved first. -/
def contentLine (config : Config) (message : ReceivedMessage) : m String :=
  match message.outcome with
  | .keyRequested => pure "Request for symmetric key"
  | .keyEstablished => pure "symmetric key received"
  | .keyRejected reason => pure ("can't decrypt symmetric key (" ++ reason.message ++ ")")
  | .text text => pure text
  | .file contents => do
    let path := downloadPath config message.messageId
    match ← terminal.writeFile path contents with
    | .ok _ => return path
    | .error fault => return "[Failed to save file: " ++ fault.message ++ "]"
  | .undecryptable _ _ => pure "can't decrypt message"
  | .noKey _ => pure "can't decrypt message (no symmetric key)"
  | .unknown content => pure ("unknown message type, " ++ Decimal.text content.length ++ " bytes")

/-- Prints a message. A file that cannot be saved is told of in its place. -/
def showMessage (config : Config) (message : ReceivedMessage) : m Unit := do
  terminal.say ("From: " ++ message.senderName.getD message.sender.hex)
  terminal.say "Content:"
  terminal.say (← contentLine terminal config message)
  terminal.say "-----<EOM>-----"
  terminal.say ""

def showMessages (config : Config) : List ReceivedMessage → m Unit
  | [] => pure ()
  | message :: messages => do
    showMessage terminal config message
    showMessages config messages

end SealedPost.Menu
