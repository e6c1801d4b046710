import SealedPost.Session.Exchange

/-! The terminal that the menu is run with, what it is told, and asking for a line. -/
namespace SealedPost

structure Config where
  server : String
  serverFile : String
  identityFile : String
  downloads : String

structure Terminal (m : Type → Type) extends Surroundings m where
  say : String → m Unit
  /-- Reads the bytes of a line with its end, or nothing where the input ends. -/
  readLine : m (Option Bytes)
  readFile : String → m (Except FileFault Bytes)
  writeFile : String → Bytes → m (Except FileFault Unit)

inductive Choice where
  | register
  | listClients
  | showPublicKey
  | showWaiting
  | sendText
  | requestKey
  | sendKey
  | sendFile
  | leave
deriving DecidableEq

def Choice.ofText? (text : String) : Option Choice :=
  match text with
  | "110" => some register
  | "120" => some listClients
  | "130" => some showPublicKey
  | "140" => some showWaiting
  | "150" => some sendText
  | "151" => some requestKey
  | "152" => some sendKey
  | "153" => some sendFile
  | "0" => some leave
  | _ => none

namespace Menu

variable {m : Type → Type} [Monad m] (terminal : Terminal m)

def say (line : String) : Action m Unit :=
  Action.perform (terminal.say line)

/-- Prints a question and reads a line, without the white space around it. There is none where the input ends. -/
def ask (question : String) : Action m (Option String) := do
  say terminal question
  match ← Action.perform terminal.readLine with
  | none => return none
  | some line =>
    match Utf8.decode? line with
    | none => throw (.transport notTextMessage)
    | some line => return some (Text.trim line)

def askFor (question what : String) : Action m String := do
  match ← ask terminal question with
  | none => throw (.missingInput what)
  | some answer => if answer = "" then throw (.missingInput what) else return answer

def askName : Action m String :=
  askFor terminal "Enter username:" "username"

end Menu

end SealedPost
