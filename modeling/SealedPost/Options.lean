import SealedPost.Endpoint
import SealedPost.Menu.Terminal

/-! The command line of the client. -/
namespace SealedPost

structure Options where
  server : Option String := none
  serverFile : String := "server.info"
  identityFile : String := "my.info"
  downloads : Option String := none
deriving DecidableEq

namespace Options

def set? (options : Options) (name value : String) : Option Options :=
  match name with
  | "--server" => some { options with server := some value }
  | "--server-info" => some { options with serverFile := value }
  | "--my-info" => some { options with identityFile := value }
  | "--download-dir" => some { options with downloads := some value }
  | _ => none

def splitArgument (argument : String) : Option (String × String) :=
  let cs := argument.toList
  match cs.dropWhile (· ≠ '=') with
  | [] => none
  | _ :: value => some (String.ofList (cs.takeWhile (· ≠ '=')), String.ofList value)

def parse? (options : Options) : List String → Option Options
  | [] => some options
  | [argument] => (splitArgument argument).bind fun (name, value) => options.set? name value
  | argument :: next :: rest =>
    match splitArgument argument with
    | some (name, value) => (options.set? name value).bind fun options => options.parse? (next :: rest)
    | none => (options.set? argument next).bind fun options => options.parse? rest

/-- The configuration that options stand for. A server on the command line is used as it is; else the server
file decides, whose contents are given, and the standard endpoint where that file says nothing useful. -/
def toConfig (options : Options) (serverFile : Except FileFault Bytes) (temporary : String) : Config where
  server := match options.server with
    | some server => server
    | none => match Endpoint.ofFile options.serverFile serverFile with
      | .ok endpoint => endpoint.text
      | .error _ => Endpoint.standard.text
  serverFile := options.serverFile
  identityFile := options.identityFile
  downloads := options.downloads.getD temporary

end Options

end SealedPost
