import Mathlib.Data.List.DropRight
import SealedPost.Proofs.Utf8
import SealedPost.Text.Blank
import SealedPost.Text.Lines

/-! Lines of a text, and the text that is left of a line without the white space around it. -/
namespace SealedPost

namespace Text

theorem splitAfter_append {α : Type} {ends : α → Bool} {line : List α} {stop : α} (h : ∀ a ∈ line, ends a = false)
    (hstop : ends stop = true) (rest : List α) :
    splitAfter ends (line ++ stop :: rest) = (line ++ [stop]) :: splitAfter ends rest := by
  induction line with
  | nil => simp [splitAfter, hstop]
  | cons a line ih =>
    have ha : ends a = false := h a (by simp)
    rw [List.cons_append, splitAfter, ih fun b hb => h b (by simp [hb])]
    simp [ha]

/-- Only the last element of a piece can end it. -/
theorem ends_of_mem_dropLast {α : Type} {ends : α → Bool} {as piece : List α} {a : α} (h : piece ∈ splitAfter ends as)
    (ha : a ∈ piece.dropLast) : ends a = false := by
  induction as generalizing piece with
  | nil => cases h
  | cons b rest ih =>
    rw [splitAfter] at h
    split at h
    · rcases List.mem_cons.1 h with rfl | hlater
      · cases ha
      · exact ih hlater ha
    · next hb =>
      cases hsplit : splitAfter ends rest with
      | nil =>
        rw [hsplit] at h
        obtain rfl := List.mem_singleton.1 h
        cases ha
      | cons first pieces =>
        rw [hsplit] at h ih
        rcases List.mem_cons.1 h with rfl | hlater
        · cases first with
          | nil => cases ha
          | cons c cs =>
            rcases List.mem_cons.1 ha with rfl | hin
            · exact Bool.eq_false_iff.2 hb
            · exact ih List.mem_cons_self hin
        · exact ih (List.mem_cons_of_mem _ hlater) ha

theorem newline_notMem_withoutEnd {line : List Char} (h : '\n' ∉ line.dropLast) : '\n' ∉ withoutEnd line := by
  intro hin
  unfold withoutEnd at hin
  split at hin
  · dsimp only at hin
    split at hin
    · exact h (List.dropLast_subset _ hin)
    · exact h hin
  · next hlast =>
    rcases List.eq_nil_or_concat' line with rfl | ⟨body, c, rfl⟩
    · cases hin
    · rw [List.dropLast_concat] at h
      rw [List.getLast?_concat] at hlast
      rcases List.mem_append.1 hin with hbody | hc
      · exact h hbody
      · exact hlast (congrArg some (List.mem_singleton.1 hc).symm)

theorem newline_notMem_of_mem_lines {s line : String} (h : line ∈ lines s) : '\n' ∉ line.toList := by
  obtain ⟨piece, hpiece, rfl⟩ := List.mem_map.1 h
  rw [String.toList_ofList]
  exact newline_notMem_withoutEnd fun hin => absurd (ends_of_mem_dropLast hpiece hin) (by decide)

theorem withoutEnd_of_newline {line : List Char} (h : line.getLast? ≠ some '\r') :
    withoutEnd (line ++ ['\n']) = line := by
  simp [withoutEnd, h]

/-- A carriage return at the end of a line is lost with the line feed. -/
theorem withoutEnd_of_return {line : List Char} (h : line.getLast? = some '\r') :
    withoutEnd (line ++ ['\n']) = line.dropLast := by
  simp [withoutEnd, h]

/-- A line feed ends the first line. -/
theorem lines_line_feed {line : String} (whole : '\n' ∉ line.toList) (rest : String) :
    lines (line ++ "\n" ++ rest) = String.ofList (withoutEnd (line.toList ++ ['\n'])) :: lines rest := by
  have hwhole : ∀ c ∈ line.toList, (c == '\n') = false := by
    intro c hc
    exact beq_false_of_ne fun hn => whole (hn ▸ hc)
  have htext : (line ++ "\n" ++ rest).toList = line.toList ++ '\n' :: rest.toList := by simp
  rw [lines, htext, splitAfter_append hwhole (by simp), List.map_cons]
  rfl

/-- A line is read back as it was written. -/
theorem lines_append {line : String} (whole : '\n' ∉ line.toList) (h : line.toList.getLast? ≠ some '\r')
    (rest : String) : lines (line ++ "\n" ++ rest) = line :: lines rest := by
  rw [lines_line_feed whole, withoutEnd_of_newline h, String.ofList_toList]

private theorem trimRight_append (cs : List Char) (c : Char) :
    trimRight (cs ++ [c]) = if isBlank c then trimRight cs else cs ++ [c] := by
  induction cs with
  | nil => simp [trimRight]
  | cons d cs ih =>
    rw [List.cons_append, trimRight, ih]
    cases isBlank c with
    | true => rfl
    | false => cases cs <;> rfl

theorem trimRight_eq (cs : List Char) : trimRight cs = cs.rdropWhile isBlank := by
  induction cs using List.reverseRecOn with
  | nil => rfl
  | append_singleton cs c ih => rw [trimRight_append, List.rdropWhile_concat, ih]

theorem trimChars_subset (cs : List Char) : trimChars cs ⊆ cs := by
  rw [trimChars, trimRight_eq]
  exact fun c hc => (List.dropWhile_suffix _).subset ((List.rdropWhile_prefix _ _).subset hc)

theorem trimChars_append_blank {c : Char} (h : isBlank c = true) (cs : List Char) :
    trimChars (cs ++ [c]) = trimChars cs := by
  rw [trimChars, trimChars, trimRight_eq, trimRight_eq, List.dropWhile_append]
  split
  · next hall =>
    rw [List.isEmpty_iff.1 hall, List.dropWhile_cons_of_pos h]
    rfl
  · exact List.rdropWhile_concat_pos _ _ _ h

theorem trimChars_append_blanks {v : List Char} (h : ∀ c ∈ v, isBlank c = true) (cs : List Char) :
    trimChars (cs ++ v) = trimChars cs := by
  induction v using List.reverseRecOn with
  | nil => rw [List.append_nil]
  | append_singleton v c ih =>
    rw [← List.append_assoc, trimChars_append_blank (h c (by simp)), ih fun d hd => h d (by simp [hd])]

/-- White space around a text does not count. -/
theorem trim_blanks_around {u v : String} (hu : ∀ c ∈ u.toList, isBlank c = true)
    (hv : ∀ c ∈ v.toList, isBlank c = true) (s : String) : trim (u ++ s ++ v) = trim s := by
  rw [trim, trim, String.toList_append, String.toList_append, trimChars_append_blanks hv, trimChars, trimChars,
    List.dropWhile_append_of_pos hu]

theorem isBlank_getLast_trimChars {cs : List Char} {c : Char} (h : (trimChars cs).getLast? = some c) :
    isBlank c = false := by
  rw [trimChars, trimRight_eq] at h
  have hne : (cs.dropWhile isBlank).rdropWhile isBlank ≠ [] := by
    intro hnil
    rw [hnil] at h
    cases h
  rw [List.getLast?_eq_some_getLast hne, Option.some.injEq] at h
  simpa [h] using List.rdropWhile_last_not isBlank _ hne

theorem isBlank_head_trimChars {cs : List Char} {c : Char} (h : (trimChars cs).head? = some c) : isBlank c = false := by
  rw [trimChars, trimRight_eq] at h
  have hfirst : (cs.dropWhile isBlank).head? = some c := by
    obtain ⟨more, hmore⟩ := List.rdropWhile_prefix isBlank (cs.dropWhile isBlank)
    rw [← hmore, List.head?_append, h]
    rfl
  have hnot := List.head?_dropWhile_not isBlank cs
  rw [hfirst] at hnot
  simpa using hnot

/-- A text that neither starts nor ends with white space is left as it is. -/
theorem trimChars_of_ends {cs : List Char} (starts : ∀ c ∈ cs.head?, isBlank c = false)
    (ends : ∀ c ∈ cs.getLast?, isBlank c = false) : trimChars cs = cs := by
  have hleft : cs.dropWhile isBlank = cs := by
    refine List.dropWhile_eq_self_iff.2 fun hpos => ?_
    rw [starts _ (by simp [List.head?_eq_getElem?, hpos])]
    simp
  rw [trimChars, hleft, trimRight_eq, List.rdropWhile_eq_self_iff]
  intro hne
  simp [ends _ (List.getLast?_eq_some_getLast hne)]

theorem trimChars_trimChars (cs : List Char) : trimChars (trimChars cs) = trimChars cs :=
  trimChars_of_ends (fun _ h => isBlank_head_trimChars h) fun _ h => isBlank_getLast_trimChars h

theorem trimChars_eq_nil_iff (cs : List Char) : trimChars cs = [] ↔ ∀ c ∈ cs, isBlank c = true := by
  rw [trimChars, trimRight_eq, List.rdropWhile_eq_nil_iff]
  constructor
  · intro h
    rw [← List.dropWhile_eq_nil_iff]
    refine List.eq_nil_iff_length_eq_zero.2 (Nat.eq_zero_of_not_pos fun hpos => ?_)
    have hfirst : ¬isBlank (cs.dropWhile isBlank)[0] = true :=
      List.dropWhile_eq_self_iff.1 (List.dropWhile_idempotent _ _) hpos
    exact hfirst (h _ (List.getElem_mem hpos))
  · exact fun h c hc => h c ((List.dropWhile_suffix _).subset hc)

theorem trim_eq_empty_iff (s : String) : trim s = "" ↔ ∀ c ∈ s.toList, isBlank c = true := by
  rw [← trimChars_eq_nil_iff, trim, String.ofList_eq_empty_iff]

theorem trim_ne_empty_iff (s : String) : trim s ≠ "" ↔ ∃ c ∈ s.toList, isBlank c = false := by
  simp only [ne_eq, trim_eq_empty_iff, Classical.not_forall, Bool.not_eq_true, exists_prop]

/-- Text without white space is left as it is. -/
theorem trim_of_plain {s : String} (h : ∀ c ∈ s.toList, isBlank c = false) : trim s = s := by
  have hsame : trimChars s.toList = s.toList :=
    trimChars_of_ends (fun c hc => h c (List.mem_of_head? hc)) fun c hc => h c (List.mem_of_getLast? hc)
  rw [trim, hsame, String.ofList_toList]

/-- A text that is one line and is not blank. -/
structure FitsLine (s : String) : Prop where
  visible : ∃ c ∈ s.toList, isBlank c = false
  whole : '\n' ∉ s.toList
  ends : s.toList.getLast? ≠ some '\r'

theorem FitsLine.trim_ne {s : String} (h : FitsLine s) : trim s ≠ "" :=
  (trim_ne_empty_iff s).2 h.visible

theorem FitsLine.of_plain {s : String} (h : ∀ c ∈ s.toList, isBlank c = false) (hne : s ≠ "") : FitsLine s where
  visible := by
    obtain ⟨c, hc⟩ := List.exists_mem_of_ne_nil s.toList (by simpa using hne)
    exact ⟨c, hc, h c hc⟩
  whole hin := absurd (h _ hin) (by decide)
  ends hlast := absurd (h _ (List.mem_of_getLast? hlast)) (by decide)

/-- A text fits a line exactly if it is not blank and is read back when a line feed follows. -/
theorem fitsLine_iff {s : String} (rest : String) :
    FitsLine s ↔ trim s ≠ "" ∧ (lines (s ++ "\n" ++ rest)).head? = some s := by
  constructor
  · intro fits
    exact ⟨fits.trim_ne, by rw [lines_append fits.whole fits.ends]; rfl⟩
  · rintro ⟨hne, hfirst⟩
    have whole : '\n' ∉ s.toList := newline_notMem_of_mem_lines (List.mem_of_head? hfirst)
    refine ⟨(trim_ne_empty_iff s).1 hne, whole, fun hlast => ?_⟩
    -- A carriage return at the end is lost, so the line that is read back is shorter.
    rw [lines_line_feed whole, List.head?_cons, Option.some.injEq, withoutEnd_of_return hlast] at hfirst
    have hsame : s.toList.dropLast = s.toList := by rw [← String.toList_ofList (l := s.toList.dropLast), hfirst]
    have hlength := congrArg List.length hsame
    rw [List.length_dropLast] at hlength
    have hnil : s.toList = [] := List.eq_nil_of_length_eq_zero (by omega)
    rw [hnil] at hlast
    cases hlast

/-- What a typed line leaves without the white space around it is one line. -/
theorem fitsLine_trim {line : Bytes} {s : String} (whole : 10 ∉ line.dropLast) (h : Utf8.decode? line = some s)
    (hne : trim s ≠ "") : FitsLine (trim s) := by
  obtain ⟨body, hbody, hs⟩ := Utf8.decode?_line whole h
  have htrim : trimChars s.toList = trimChars body := by
    rcases hs with hs | hs
    · rw [hs]
    · rw [hs, trimChars_append_blank (by decide)]
  have htext : (trim s).toList = trimChars body := by rw [trim, String.toList_ofList, htrim]
  have hlast {c : Char} (hc : (trim s).toList.getLast? = some c) : isBlank c = false :=
    isBlank_getLast_trimChars (htext ▸ hc)
  refine ⟨?_, fun hin => hbody (trimChars_subset _ (htext ▸ hin)), fun hc => absurd (hlast hc) (by decide)⟩
  have hsome : (trim s).toList ≠ [] := by simpa using hne
  exact ⟨_, List.getLast_mem hsome, hlast (List.getLast?_eq_some_getLast hsome)⟩

end Text

end SealedPost
