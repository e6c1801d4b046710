import SealedPost.Bytes
import SealedPost.FileFault

/-! Files as a value: a tree of directories, files and links, and the paths that lead to them. -/
namespace SealedPost

/-- A place in a tree of files: the names that lead to it from the root, the last one first. -/
abbrev Place := List String

/-- Directories, files with their contents, and links, by place. The root is a directory without being named. -/
structure FileStore where
  directories : List Place := []
  files : List (Place × Bytes) := []
  /-- What each link stands for: a symbolic link for the place where it ends, where something is or could be made, or
  for why it ends nowhere; a further name of a file for the place of this file. -/
  links : List (Place × Except FileFault Place) := []
  /-- The directory where paths that do not start with a slash begin. -/
  here : Place := []

namespace FileStore

/-- The names between the slashes of a path. Two slashes in a row have the empty name between them. -/
def names : List Char → List (List Char)
  | [] => [[]]
  | c :: rest =>
    if c = '/' then [] :: names rest
    else match names rest with
      | [] => [[c]]
      | name :: more => (c :: name) :: more

/-- The place that a name leads to. The empty name and `.` stay, `..` goes up, and a link leads to what it stands
for. -/
def step (store : FileStore) (place : Place) (name : String) : Except FileFault Place :=
  if name = "" ∨ name = "." then .ok place
  else if name = ".." then .ok place.tail
  else (store.links.lookup (name :: place)).getD (.ok (name :: place))

def isDirectory (store : FileStore) (place : Place) : Bool :=
  place.isEmpty || store.directories.contains place

/-- Follows names from a place. All but the last must lead to directories, and a name has at most 255 bytes. -/
def walk (store : FileStore) : Place → List String → Except FileFault Place
  | place, [] => .ok place
  | place, name :: more =>
    if store.isDirectory place then
      if name.utf8ByteSize ≤ 255 then
        match store.step place name with
        | .error fault => .error fault
        | .ok target => walk store target more
      else .error .nameTooLong
    else if (store.files.lookup place).isSome then .error .notDirectory
    else .error .notFound

/-- The place that a path names, where something is or could be made. -/
def locate (store : FileStore) (path : String) : Except FileFault Place :=
  if '\x00' ∈ path.toList then .error .zeroInPath
  else if path = "" then .error .notFound
  else if 4096 ≤ path.utf8ByteSize then .error .nameTooLong
  else
    let start := if path.toList.head? = some '/' then [] else store.here
    store.walk start ((names path.toList).map String.ofList)

def read (store : FileStore) (path : String) : Except FileFault Bytes :=
  match store.locate path with
  | .error fault => .error fault
  | .ok place =>
    if store.isDirectory place then .error .isDirectory
    else match store.files.lookup place with
      | some contents => .ok contents
      | none => .error .notFound

def join (directory name : String) : String :=
  if directory = "" ∨ directory.toList.getLast? = some '/' then directory ++ name
  else directory ++ "/" ++ name

def put (store : FileStore) (place : Place) (contents : Bytes) : FileStore :=
  { store with files := (place, contents) :: store.files.filter (·.1 ≠ place) }

/-- Gives a file new contents, and makes it if its directory is there. A failed write changes nothing. -/
def write (store : FileStore) (path : String) (contents : Bytes) : Except FileFault Unit × FileStore :=
  match store.locate path with
  | .error fault => (.error fault, store)
  | .ok place => if store.isDirectory place then (.error .isDirectory, store) else (.ok (), store.put place contents)

end FileStore

end SealedPost
