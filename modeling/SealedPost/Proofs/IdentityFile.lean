import SealedPost.Files
import SealedPost.Identity
import SealedPost.Proofs.Base64
import SealedPost.Proofs.Hex

/-! The identity file: what is written to it is read back, if the name fits its line. -/
namespace SealedPost

namespace Identity

variable {identity : Identity} {ciphers : Ciphers}

private theorem field_of_fits {line : String} (fits : Text.FitsLine line) (path : String) (what : IdentityField)
    (more : List String) : field path what (line :: more) = .ok line :=
  if_neg fits.trim_ne

private theorem fitsLine_hex (id : ClientId) : Text.FitsLine id.hex := by
  refine .of_plain (fun _ => Hex.isBlank_of_mem_text) (Hex.text_ne_empty fun hnil => ?_)
  have hlength := id.length_toBytes
  rw [hnil] at hlength
  cases hlength

private theorem fitsLine_base64 {bs : Bytes} (h : bs ≠ []) : Text.FitsLine (Base64.encode bs) :=
  .of_plain (fun _ => Base64.isBlank_of_mem_encode) (Base64.encode_ne_empty h)

/-- The file of an identity has three lines if the name fits one. -/
theorem lines_toText (fits : Text.FitsLine identity.username) (keyed : identity.privateKey.toBytes ≠ []) :
    Text.lines identity.toText =
      [identity.username, identity.id.hex, Base64.encode identity.privateKey.toBytes] := by
  have hid := fitsLine_hex identity.id
  have hkey := fitsLine_base64 keyed
  have htext : identity.toText = identity.username ++ "\n" ++ (identity.id.hex ++ "\n" ++
      (Base64.encode identity.privateKey.toBytes ++ "\n" ++ "")) := by
    simp [toText, String.append_assoc]
  rw [htext, Text.lines_append fits.whole fits.ends, Text.lines_append hid.whole hid.ends,
    Text.lines_append hkey.whole hkey.ends]
  rfl

/-- An identity is read back from its own text. -/
theorem ofText_toText (fits : Text.FitsLine identity.username) (keyed : identity.privateKey.toBytes ≠ [])
    (derives : ciphers.derivePublicKey identity.privateKey = .ok identity.publicKey) (path : String) :
    ofText ciphers path identity.toText = .ok identity := by
  have hname := field_of_fits fits path .username
  have hid := field_of_fits (fitsLine_hex identity.id) path .clientId
  have hkey := field_of_fits (fitsLine_base64 keyed) path .privateKey
  simp only [ofText, lines_toText fits keyed, List.drop_succ_cons, List.drop_zero, hname, hid, hkey,
    ClientId.ofText_hex, Standard.decodeBase64_encode, derives, bind, Except.bind]
  rfl

end Identity

end SealedPost
