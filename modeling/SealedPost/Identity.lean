import SealedPost.Cipher.Standard
import SealedPost.Text.Lines

/-! The identity of a registered client, and the file that keeps it. -/
namespace SealedPost

/-- Reads an id from 32 hexadecimal digits of either case, with white space around them. -/
def ClientId.ofText (text : String) : Except Failure ClientId :=
  match Hex.decode 16 (Utf8.encode (Text.trim text)) with
  | .ok bs => .ok ⟨Block.fit 16 bs⟩
  | .error fault => .error (.config (.clientId text fault))

structure Identity where
  username : String
  id : ClientId
  privateKey : PrivateKey
  publicKey : PublicKey
deriving DecidableEq

namespace Identity

/-- The text of an identity file: the name, the id in hexadecimal and the private key in Base64, a line each.
The public key follows from the private one and is not written. -/
def toText (identity : Identity) : String :=
  identity.username ++ "\n" ++ identity.id.hex ++ "\n" ++ Base64.encode identity.privateKey.toBytes ++ "\n"

def field (path : String) (what : IdentityField) : List String → Except Failure String
  | [] => .error (.config (.missingField path what))
  | line :: _ =>
    if Text.trim line = "" then .error (.config (.missingField path what)) else .ok line

/-- Reads the text of the identity file at `path`. Lines after the third are not looked at. -/
def ofText (ciphers : Ciphers) (path text : String) : Except Failure Identity := do
  let lines := Text.lines text
  let username ← field path .username lines
  let id ← ClientId.ofText (← field path .clientId (lines.drop 1))
  let privateKey := ⟨← Standard.decodeBase64 (← field path .privateKey (lines.drop 2))⟩
  let publicKey ← ciphers.derivePublicKey privateKey
  return { username, id, privateKey, publicKey }

/-- Reads the identity file at `path` from what reading it gave. No file means no identity. -/
def ofFile (ciphers : Ciphers) (path : String) (contents : Except FileFault Bytes) :
    Except Failure (Option Identity) :=
  match contents with
  | .error .notFound => .ok none
  | .error fault => .error (.config (.identityFile path fault))
  | .ok bs =>
    match Utf8.decode? bs with
    | none => .error (.config (.identityFile path .notText))
    | some text => (ofText ciphers path text).map some

end Identity

end SealedPost
