import SealedPost.Menu

/-! A terminal and files as a value, on which the menu runs without the world outside. -/
namespace SealedPost

structure Desktop where
  /-- The lines to come, each with its end. -/
  unread : List Bytes := []
  printed : List String := []
  files : FileStore := {}

namespace Desktop

/-- A desktop with this input, which falls into lines after each line feed, and these files. -/
def ofInput (input : Bytes) (files : FileStore) : Desktop :=
  { unread := Text.splitAfter (· == 10) input, files }

def takeLine (d : Desktop) : Option Bytes × Desktop :=
  match d.unread with
  | [] => (none, d)
  | line :: unread => (some line, { d with unread })

def write (path : String) (contents : Bytes) (d : Desktop) : Except FileFault Unit × Desktop :=
  let r := d.files.write path contents
  (r.1, { d with files := r.2 })

def terminal {m : Type → Type} [Monad m] (env : Surroundings m) : Terminal (StateT Desktop m) where
  link := env.link.lift
  suite := env.suite.lift
  say line := modify fun d => { d with printed := d.printed ++ [line] }
  readLine := modifyGet takeLine
  readFile path := modifyGet fun d => (d.files.read path, d)
  writeFile path contents := modifyGet (write path contents)

/-- Runs the client on a desktop. The menu is shown once for each line at most, and once at the end of the
input. -/
def runClient {m : Type → Type} [Monad m] (env : Surroundings m) (config : Config) (desktop : Desktop) :
    m ((Except Failure Unit × Session) × Desktop) :=
  (((Menu.run (terminal env) config (desktop.unread.length + 1)).run).run {}).run desktop

end Desktop

end SealedPost
