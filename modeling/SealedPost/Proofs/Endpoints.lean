import SealedPost.Endpoint
import SealedPost.Proofs.Decimal
import SealedPost.Proofs.Lines

/-! Which lines of a server file name an endpoint, and the one form that all of them come to. -/
namespace SealedPost

namespace Endpoint

theorem splitAtLastColon_eq_none_iff {cs : List Char} : splitAtLastColon cs = none ↔ ':' ∉ cs := by
  induction cs with
  | nil => simp [splitAtLastColon]
  | cons c cs ih =>
    rw [splitAtLastColon, List.mem_cons, not_or]
    cases hsplit : splitAtLastColon cs with
    | some parts =>
      have hin : ':' ∈ cs := Decidable.of_not_not fun h => by simp [ih.2 h] at hsplit
      exact ⟨fun h => (nomatch h), fun h => absurd hin h.2⟩
    | none =>
      dsimp only
      split
      · next hc => exact ⟨fun h => (nomatch h), fun h => absurd hc.symm h.1⟩
      · next hc => exact ⟨fun _ => ⟨Ne.symm hc, ih.1 hsplit⟩, fun _ => rfl⟩

/-- The last colon is the one that no colon follows. -/
theorem splitAtLastColon_eq_some_iff {cs before after : List Char} :
    splitAtLastColon cs = some (before, after) ↔ cs = before ++ ':' :: after ∧ ':' ∉ after := by
  constructor
  · intro h
    induction cs generalizing before with
    | nil => cases h
    | cons c cs ih =>
      rw [splitAtLastColon] at h
      split at h
      · next first last hsplit =>
        obtain ⟨rfl, rfl⟩ := Prod.mk.inj (Option.some.inj h)
        obtain ⟨rfl, plain⟩ := ih hsplit
        exact ⟨rfl, plain⟩
      · next hsplit =>
        split at h
        · next hc =>
          obtain ⟨rfl, rfl⟩ := Prod.mk.inj (Option.some.inj h)
          exact ⟨congrArg (· :: cs) hc, splitAtLastColon_eq_none_iff.1 hsplit⟩
        · cases h
  · rintro ⟨rfl, plain⟩
    induction before with
    | nil =>
      rw [List.nil_append, splitAtLastColon, splitAtLastColon_eq_none_iff.2 plain]
      rfl
    | cons c before ih => rw [List.cons_append, splitAtLastColon, ih]

/-- What a line names when the white space around it is off. A port alone stands for the local host. Else what is before
the last colon, if there is anything, is the host. -/
inductive Names : List Char → Endpoint → Prop
  | alone {port : List Char} {n : Nat} (plain : ':' ∉ port) (reads : Decimal.Reads 65535 port n) :
      Names port ⟨"127.0.0.1", n⟩
  | hosted {host port : List Char} {n : Nat} (named : host ≠ []) (plain : ':' ∉ port)
      (reads : Decimal.Reads 65535 (Text.trimChars port) n) :
      Names (host ++ ':' :: port) ⟨String.ofList (Text.trimChars host), n⟩

theorem names_of_plain_iff {port : List Char} {e : Endpoint} (plain : ':' ∉ port) :
    Names port e ↔ ∃ n, Decimal.Reads 65535 port n ∧ e = ⟨"127.0.0.1", n⟩ := by
  constructor
  · intro h
    cases h with
    | alone _ reads => exact ⟨_, reads, rfl⟩
    | hosted => simp at plain
  · rintro ⟨n, reads, rfl⟩
    exact .alone plain reads

theorem names_append_iff {host port : List Char} {e : Endpoint} (plain : ':' ∉ port) :
    Names (host ++ ':' :: port) e ↔
      host ≠ [] ∧ ∃ n, Decimal.Reads 65535 (Text.trimChars port) n ∧ e = ⟨String.ofList (Text.trimChars host), n⟩ := by
  constructor
  · intro h
    generalize hcs : host ++ ':' :: port = cs at h
    cases h with
    | alone plain' _ => simp [← hcs] at plain'
    | @hosted host' port' n named plain' reads =>
      -- There is one last colon only.
      have hsplit := splitAtLastColon_eq_some_iff.2 ⟨hcs, plain'⟩
      rw [splitAtLastColon_eq_some_iff.2 ⟨rfl, plain⟩] at hsplit
      obtain ⟨rfl, rfl⟩ := Prod.mk.inj (Option.some.inj hsplit)
      exact ⟨named, n, reads, rfl⟩
  · rintro ⟨named, n, reads, rfl⟩
    exact .hosted named plain reads

private theorem map_portOf_eq_ok_iff {line port : List Char} {host : String} {e : Endpoint} :
    (portOf line port).map (fun port => (⟨host, port⟩ : Endpoint)) = .ok e ↔
      ∃ n, Decimal.Reads 65535 (Text.trimChars port) n ∧ e = ⟨host, n⟩ := by
  have hparse (n : Nat) :
      Decimal.parse lastPort (Text.trimChars port) = .ok n ↔ Decimal.Reads 65535 (Text.trimChars port) n :=
    Decimal.parse_eq_ok_iff
  simp only [← hparse, portOf]
  cases Decimal.parse lastPort (Text.trimChars port) with
  | error fault => exact ⟨fun h => (nomatch h), fun ⟨_, h, _⟩ => (nomatch h)⟩
  | ok n =>
    constructor
    · intro h
      exact ⟨n, rfl, (Except.ok.inj h).symm⟩
    · rintro ⟨m, hm, rfl⟩
      obtain rfl := Except.ok.inj hm
      rfl

/-- Exactly the lines that name an endpoint are read, as that endpoint. -/
theorem ofLine_eq_ok_iff {line : String} {e : Endpoint} :
    ofLine line = .ok e ↔ Names (Text.trimChars line.toList) e := by
  rw [ofLine]
  cases hsplit : splitAtLastColon (Text.trimChars line.toList) with
  | none =>
    dsimp only
    rw [map_portOf_eq_ok_iff, Text.trimChars_trimChars, names_of_plain_iff (splitAtLastColon_eq_none_iff.1 hsplit)]
    rfl
  | some parts =>
    obtain ⟨host, port⟩ := parts
    obtain ⟨hline, plain⟩ := splitAtLastColon_eq_some_iff.1 hsplit
    rw [hline, names_append_iff plain]
    cases host with
    | nil => exact ⟨fun h => (nomatch h), fun h => absurd rfl h.1⟩
    | cons c host =>
      dsimp only
      rw [map_portOf_eq_ok_iff, and_iff_right (List.cons_ne_nil c host)]

/-- The host that a trimmed line names is not empty, and has no white space around it. -/
theorem Names.host_trimmed {cs : List Char} {e : Endpoint} (trimmed : Text.trimChars cs = cs) (h : Names cs e) :
    e.host ≠ "" ∧ Text.trim e.host = e.host := by
  cases h with
  | alone =>
    have hlocal : Text.trim "127.0.0.1" = "127.0.0.1" := by decide
    exact ⟨by simp, hlocal⟩
  | @hosted host port n named =>
    constructor
    · obtain ⟨c, more, rfl⟩ := List.exists_cons_of_ne_nil named
      -- The first character of the host is the first of the line.
      have hhead : (Text.trimChars (c :: more ++ ':' :: port)).head? = some c := by rw [trimmed]; rfl
      have hfirst := Text.isBlank_head_trimChars hhead
      intro hempty
      have hblank := (Text.trimChars_eq_nil_iff _).1 (String.ofList_eq_empty_iff.1 hempty) c List.mem_cons_self
      rw [hfirst] at hblank
      cases hblank
    · rw [Text.trim, String.toList_ofList, Text.trimChars_trimChars]

theorem Names.port_le {cs : List Char} {e : Endpoint} (h : Names cs e) : e.port ≤ 65535 := by
  cases h with
  | alone _ reads => exact reads.fits
  | hosted _ _ reads => exact reads.fits

private theorem visible_of_isDigit {c : Char} (h : c.isDigit = true) : Text.isBlank c = false ∧ c ≠ ':' := by
  simp only [Char.isDigit, Bool.and_eq_true, decide_eq_true_eq, ge_iff_le, UInt32.le_iff_toNat_le] at h
  have hlow : 48 ≤ c.toNat := h.1
  have hhigh : c.toNat ≤ 57 := h.2
  constructor
  · simp only [Text.isBlank, Bool.or_eq_false_iff, Bool.and_eq_false_iff, beq_eq_false_iff_ne, decide_eq_false_iff_not]
    omega
  · rintro rfl
    exact absurd hhigh (by decide)

/-- An endpoint is read from its text, if its host could have been read. -/
theorem ofLine_text {e : Endpoint} (named : e.host ≠ "") (trimmed : Text.trim e.host = e.host) (fits : e.port ≤ 65535) :
    ofLine e.text = .ok e := by
  have visible : ∀ c ∈ Decimal.digits e.port, Text.isBlank c = false ∧ c ≠ ':' :=
    fun c hc => visible_of_isDigit (Decimal.isDigit_of_mem_digits hc)
  have plain : ':' ∉ Decimal.digits e.port := fun hin => (visible _ hin).2 rfl
  have hhost : Text.trimChars e.host.toList = e.host.toList := by
    rw [← String.toList_ofList (l := Text.trimChars e.host.toList)]
    exact congrArg String.toList trimmed
  have hport : Text.trimChars (Decimal.digits e.port) = Decimal.digits e.port :=
    Text.trimChars_of_ends (fun c hc => (visible c (List.mem_of_head? hc)).1)
      fun c hc => (visible c (List.mem_of_getLast? hc)).1
  have htext : e.text.toList = e.host.toList ++ ':' :: Decimal.digits e.port := by
    simp [text, Decimal.text]
  have hline : Text.trimChars e.text.toList = e.text.toList := by
    obtain ⟨c, more, hcs⟩ := List.exists_cons_of_ne_nil (show e.host.toList ≠ [] by simpa using named)
    rw [htext]
    refine Text.trimChars_of_ends (fun d hd => ?_) (fun d hd => (visible d ?_).1)
    · rw [hcs, List.cons_append, List.head?_cons, Option.mem_some_iff] at hd
      have hhead : (Text.trimChars e.host.toList).head? = some d := by rw [hhost, hcs, hd, List.head?_cons]
      exact Text.isBlank_head_trimChars hhead
    · rw [List.getLast?_append_of_ne_nil _ (by simp), List.getLast?_cons_of_ne_nil (Decimal.digits_ne_nil _)] at hd
      exact List.mem_of_getLast? hd
  rw [ofLine_eq_ok_iff, hline, htext, names_append_iff plain, hport, hhost, String.ofList_toList]
  exact ⟨by simpa using named, e.port, Decimal.reads_digits fits, rfl⟩

/-- A line is read exactly if, without the white space around it, it is a port or a host and a port with a colon between
them, where a host may hold colons but is not empty, and a port is a number up to 65535 with a plus sign or zeros in
front of it or none. What is read is written as the host without white space around it, a colon and the port in plain
decimal, and this text is read as the same again. -/
theorem lines_name_an_endpoint (line : String) :
    (∀ e, ofLine line = .ok e ↔ Names (Text.trim line).toList e) ∧
    ∀ e, ofLine line = .ok e → e.text = e.host ++ ":" ++ toString e.port ∧ e.host ≠ "" ∧ Text.trim e.host = e.host ∧
      ofLine e.text = .ok e := by
  have hline : (Text.trim line).toList = Text.trimChars line.toList := String.toList_ofList
  refine ⟨fun e => by rw [hline, ofLine_eq_ok_iff], fun e h => ?_⟩
  have names := ofLine_eq_ok_iff.1 h
  obtain ⟨named, trimmed⟩ := names.host_trimmed (Text.trimChars_trimChars _)
  exact ⟨by rw [text, Decimal.text_eq_toString], named, trimmed, ofLine_text named trimmed names.port_le⟩

/-- A host with colons in it, between wide spaces. -/
theorem signed_port_comes_to_plain :
    ofLine "\u3000[::1] :\t+00080\r" = .ok ⟨"[::1]", 80⟩ ∧ ofLine "[::1]:80" = .ok ⟨"[::1]", 80⟩ := by
  have hread : ofLine "\u3000[::1] :\t+00080\r" = .ok ⟨"[::1]", 80⟩ := by decide +kernel
  have h := (lines_name_an_endpoint "\u3000[::1] :\t+00080\r").2 _ hread
  have htext : (⟨"[::1]", 80⟩ : Endpoint).text = "[::1]:80" := by decide +kernel
  rw [htext] at h
  exact ⟨hread, h.2.2.2⟩

end Endpoint

end SealedPost
