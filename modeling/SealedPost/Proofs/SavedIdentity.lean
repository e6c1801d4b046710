import SealedPost.Proofs.Registration

/-! A saved identity is loaded back exactly if its name fits a line, as every name does that was asked for. -/
namespace SealedPost

namespace Desktop

theorem lined_ofInput (input : Bytes) (files : FileStore) : (ofInput input files).Lined := by
  intro line hline hin
  have hend := Text.ends_of_mem_dropLast hline hin
  cases hend

end Desktop

namespace Menu
open SealedPost.Action

theorem fitsLine_askName {w : Type} (env : Surroundings (StateM w)) (s : Session) {d : Desktop} (lined : d.Lined)
    (y : w) {name : String} (h : ((askName (Desktop.terminal env)).exec s d y).result = .ok name) :
    Text.FitsLine name := by
  obtain ⟨result, hend, hname⟩ := exec_askName env s d y
  rw [hend] at h
  obtain ⟨hanswer, hne⟩ := hname name h
  exact Desktop.fitsLine_answer lined hanswer hne

end Menu

namespace Identity

variable {identity loaded : Identity} {ciphers : Ciphers} {path text line : String} {lines : List String}
  {what : IdentityField}

theorem field_eq_ok_iff : field path what lines = .ok line ↔ lines.head? = some line ∧ Text.trim line ≠ "" := by
  cases lines with
  | nil => exact ⟨fun h => (nomatch h), fun h => (nomatch h.1)⟩
  | cons first more =>
    rw [field, List.head?_cons, Option.some.injEq]
    split
    · next hblank =>
      refine ⟨fun h => (nomatch h), ?_⟩
      rintro ⟨rfl, hne⟩
      exact absurd hblank hne
    · next hne =>
      constructor
      · intro h
        obtain rfl := Except.ok.inj h
        exact ⟨rfl, hne⟩
      · rintro ⟨rfl, -⟩
        rfl

/-- The name of an identity that is read is the first line as it stands. -/
theorem field_of_ofText (h : ofText ciphers path text = .ok loaded) :
    field path .username (Text.lines text) = .ok loaded.username := by
  simp only [ofText, bind_eq_ok_iff] at h
  obtain ⟨username, hname, _, _, _, _, _, _, _, _, _, _, hloaded⟩ := h
  obtain rfl := Except.ok.inj hloaded
  exact hname

/-- A name is read back from the first line exactly if it fits a line. -/
theorem fitsLine_iff_field (path : String) :
    Text.FitsLine identity.username ↔
      field path .username (Text.lines identity.toText) = .ok identity.username := by
  have htext : identity.toText = identity.username ++ "\n" ++
      (identity.id.hex ++ "\n" ++ Base64.encode identity.privateKey.toBytes ++ "\n") := by
    simp only [toText, String.append_assoc]
  rw [field_eq_ok_iff, htext]
  exact (Text.fitsLine_iff _).trans and_comm

theorem ofFile_encode (path text : String) :
    ofFile ciphers path (.ok (Utf8.encode text)) = (ofText ciphers path text).map some := by
  simp only [ofFile, Utf8.decode?_encode]

/-- An identity with a private key that is accepted is loaded back from the file it is saved to exactly if its name has
something to see, no line feed, and no carriage return at its end. Its public key is then the one of the private key.
Every name that is asked for at the terminal is such a name. -/
theorem loads_back_iff_name_fits_a_line {derived : PublicKey} {files after : FileStore}
    (derives : Standard.derivePublicKey identity.privateKey = .ok derived)
    (saved : files.write path (Utf8.encode identity.toText) = (.ok (), after)) :
    (ofFile Standard.ciphers path (after.read path) = .ok (some { identity with publicKey := derived }) ↔
      Text.FitsLine identity.username) ∧
    ∀ (w : Type) (env : Surroundings (StateM w)) (s : Session) (d : Desktop) (y : w) (name : String), d.Lined →
      ((Menu.askName (Desktop.terminal env)).exec s d y).result = .ok name → Text.FitsLine name := by
  refine ⟨?_, fun w env s d y name lined h => Menu.fitsLine_askName env s lined y h⟩
  rw [FileStore.read_of_write saved, ofFile_encode]
  constructor
  · intro h
    cases hread : ofText Standard.ciphers path identity.toText with
    | error e =>
      rw [hread] at h
      cases h
    | ok loaded =>
      rw [hread] at h
      obtain rfl := Option.some.inj (Except.ok.inj h)
      have hname := field_of_ofText hread
      exact (fitsLine_iff_field path).2 hname
  · intro fits
    have keyed := Menu.ne_nil_of_derivePublicKey derives
    have hload : ofText Standard.ciphers path identity.toText = .ok { identity with publicKey := derived } :=
      @ofText_toText { identity with publicKey := derived } Standard.ciphers fits keyed derives path
    rw [hload]
    rfl

/-- A small key under two names. The one that was asked for comes back, and the other ends in a carriage return. -/
theorem name_ending_in_return_is_lost :
    let env : Surroundings (StateM Unit) := {
      link := {
        connect := pure (.ok ())
        send _ := pure (.ok ())
        receive _ := pure (.ok [])
        disconnect := pure () }
      suite := {
        Standard.ciphers with
        freshKeyPair := pure (.error .random)
        freshSymmetricKey := pure (.error .random)
        wrap _ message := pure (.ok message) } }
    let key : PrivateKey := ⟨Rsa.Private.info ⟨⟨15, 3⟩, 3, 3, 5⟩ 2⟩
    let named (name : String) : Identity := ⟨name, .replicate 1, key, ⟨.fit 160 (Rsa.Public.info ⟨15, 3⟩)⟩⟩
    let saved (name : String) := FileStore.write {} "my.info" (Utf8.encode (named name).toText)
    let typed := Desktop.ofInput (Utf8.encode " ann \r\n") {}
    ((Menu.askName (Desktop.terminal env)).exec {} typed ()).result = .ok "ann" ∧
      ofFile Standard.ciphers "my.info" ((saved "ann").2.read "my.info") = .ok (some (named "ann")) ∧
      ofFile Standard.ciphers "my.info" ((saved "ann\r").2.read "my.info") ≠ .ok (some (named "ann\r")) := by
  intro env key named saved typed
  have derives : Standard.derivePublicKey key = .ok ⟨.fit 160 (Rsa.Public.info ⟨15, 3⟩)⟩ := by decide +kernel
  have written (name : String) : saved name = (.ok (), (saved name).2) := by rfl
  have hasked : ((Menu.askName (Desktop.terminal env)).exec {} typed ()).result = .ok "ann" := by decide +kernel
  have hfirst := loads_back_iff_name_fits_a_line derives (written "ann")
  have hsecond := loads_back_iff_name_fits_a_line derives (written "ann\r")
  have fits : Text.FitsLine "ann" := hfirst.2 Unit env {} typed () "ann" (Desktop.lined_ofInput _ _) hasked
  exact ⟨hasked, hfirst.1.2 fits, fun h => (hsecond.1.1 h).ends (by decide)⟩

end Identity

end SealedPost
