import SealedPost.Proofs.Bytes
import SealedPost.Text.Utf8

/-! Text that is written as UTF-8 is read back unchanged, and with one replacement where a cut leaves a part of a
character at its end. -/
namespace SealedPost.Utf8

private theorem begin?_two {n : Nat} (hlow : 2 ≤ n) (hhigh : n < 32) :
    begin? (UInt8.ofNat (n + 0xC0)) = some ⟨n, 0, 0x80, 0xBF⟩ := by
  have hb : (UInt8.ofNat (n + 0xC0)).toNat = n + 0xC0 := Bytes.toNat_ofNat_of_lt (by omega)
  have hin : 0xC2 ≤ UInt8.ofNat (n + 0xC0) ∧ UInt8.ofNat (n + 0xC0) ≤ 0xDF := by
    rw [UInt8.le_iff_toNat_le, UInt8.le_iff_toNat_le, hb]
    exact ⟨by change 0xC2 ≤ _; omega, by change _ ≤ 0xDF; omega⟩
  rw [begin?, if_pos hin, hb]
  congr 2
  omega

private theorem begin?_three : ∀ n < 16, begin? (UInt8.ofNat (n + 0xE0)) =
    some ⟨n, 1, if n = 0 then 0xA0 else 0x80, if n = 13 then 0x9F else 0xBF⟩ := by
  decide

private theorem begin?_four : ∀ n < 5, begin? (UInt8.ofNat (n + 0xF0)) =
    some ⟨n, 2, if n = 0 then 0x90 else 0x80, if n = 4 then 0x8F else 0xBF⟩ := by
  decide

section scan

variable {n value after : Nat} {low high : UInt8} {begun : Begun} (rest : Bytes)

private theorem scan_lead (hn : 0x80 ≤ n) (hb : n < 256) (h : begin? (UInt8.ofNat n) = some begun) :
    scan none (UInt8.ofNat n :: rest) = scan (some begun) rest := by
  have hlong : ¬UInt8.ofNat n < 0x80 := by
    rw [UInt8.lt_iff_toNat_lt, Bytes.toNat_ofNat_of_lt hb]
    exact Nat.not_lt.2 hn
  simp only [scan, step, startAt, if_neg hlong, h, List.nil_append]

private theorem in_range (hlow : low.toNat ≤ n % 64 + 0x80) (hhigh : n % 64 + 0x80 ≤ high.toNat) :
    low ≤ UInt8.ofNat (n % 64 + 0x80) ∧ UInt8.ofNat (n % 64 + 0x80) ≤ high := by
  rw [UInt8.le_iff_toNat_le, UInt8.le_iff_toNat_le, Bytes.toNat_ofNat_of_lt (by omega)]
  exact ⟨hlow, hhigh⟩

private theorem low_bits : (UInt8.ofNat (n % 64 + 0x80)).toNat % 64 = n % 64 := by
  rw [Bytes.toNat_ofNat_of_lt (by omega)]
  omega

private theorem scan_middle (hlow : low.toNat ≤ n % 64 + 0x80) (hhigh : n % 64 + 0x80 ≤ high.toNat) :
    scan (some ⟨value, after + 1, low, high⟩) (UInt8.ofNat (n % 64 + 0x80) :: rest) =
      scan (some ⟨64 * value + n % 64, after, 0x80, 0xBF⟩) rest := by
  simp only [scan, step, if_pos (in_range hlow hhigh), low_bits, List.nil_append]

private theorem scan_last (hlow : low.toNat ≤ n % 64 + 0x80) (hhigh : n % 64 + 0x80 ≤ high.toNat) :
    scan (some ⟨value, 0, low, high⟩) (UInt8.ofNat (n % 64 + 0x80) :: rest) =
      some (Char.ofNat (64 * value + n % 64)) :: scan none rest := by
  simp only [scan, step, if_pos (in_range hlow hhigh), low_bits, List.cons_append, List.nil_append]

end scan

/-- The bytes of one character give that character, whatever follows them. -/
theorem scan_encodeChar (c : Char) (rest : Bytes) :
    scan none (String.utf8EncodeChar c ++ rest) = some c :: scan none rest := by
  have hvalid : c.toNat < 0xD800 ∨ 0xDFFF < c.toNat ∧ c.toNat < 0x110000 := c.valid
  have hc : Char.ofNat c.toNat = c := Char.ofNat_toNat c
  have hval : c.val.toNat = c.toNat := rfl
  generalize c.toNat = v at hvalid hc hval
  have h80 : (0x80 : UInt8).toNat = 0x80 := rfl
  have hBF : (0xBF : UInt8).toNat = 0xBF := rfl
  unfold String.utf8EncodeChar
  simp only [hval]
  split
  · next h =>
    have hb : (UInt8.ofNat v).toNat = v := Bytes.toNat_ofNat_of_lt (by omega)
    have hlow : UInt8.ofNat v < 0x80 := by
      rw [UInt8.lt_iff_toNat_lt, hb]
      change v < 0x80
      omega
    simp only [List.cons_append, List.nil_append, scan, step, startAt, if_pos hlow, hb, hc]
  split
  · next h₁ h₂ =>
    have hlead := begin?_two (n := v / 64 % 32) (by omega) (by omega)
    simp only [List.cons_append, List.nil_append]
    rw [scan_lead _ (by omega) (by omega) hlead, scan_last _ (by omega) (by omega),
      show 64 * (v / 64 % 32) + v % 64 = v by omega, hc]
  split
  · next h₁ h₂ h₃ =>
    have hlead := begin?_three (v / 4096 % 16) (by omega)
    have hlow : (if v / 4096 % 16 = 0 then 0xA0 else 0x80 : UInt8).toNat ≤ v / 64 % 64 + 0x80 := by
      split
      · change 0xA0 ≤ _; omega
      · change 0x80 ≤ _; omega
    have hhigh : v / 64 % 64 + 0x80 ≤ (if v / 4096 % 16 = 13 then 0x9F else 0xBF : UInt8).toNat := by
      split
      · change _ ≤ 0x9F; omega
      · change _ ≤ 0xBF; omega
    simp only [List.cons_append, List.nil_append]
    rw [scan_lead _ (by omega) (by omega) hlead, scan_middle _ hlow hhigh, scan_last _ (by omega) (by omega),
      show 64 * (64 * (v / 4096 % 16) + v / 64 % 64) + v % 64 = v by omega, hc]
  · next h₁ h₂ h₃ =>
    have hlead := begin?_four (v / 262144 % 8) (by omega)
    have hlow : (if v / 262144 % 8 = 0 then 0x90 else 0x80 : UInt8).toNat ≤ v / 4096 % 64 + 0x80 := by
      split
      · change 0x90 ≤ _; omega
      · change 0x80 ≤ _; omega
    have hhigh : v / 4096 % 64 + 0x80 ≤ (if v / 262144 % 8 = 4 then 0x8F else 0xBF : UInt8).toNat := by
      split
      · change _ ≤ 0x8F; omega
      · change _ ≤ 0xBF; omega
    simp only [List.cons_append, List.nil_append]
    rw [scan_lead _ (by omega) (by omega) hlead, scan_middle _ hlow hhigh, scan_middle _ (by omega) (by omega),
      scan_last _ (by omega) (by omega),
      show 64 * (64 * (64 * (v / 262144 % 8) + v / 4096 % 64) + v / 64 % 64) + v % 64 = v by omega, hc]

/-- What the bytes of a part keep from one to the next they keep in all, and reading goes on behind them with whatever
follows. -/
private theorem scan_append_keeping (gives : Option Char → Prop) (holds : Option Begun → Prop) (bs : Bytes)
    (keeps : ∀ b ∈ bs, ∀ begun, holds begun → (∀ c ∈ (step begun b).1, gives c) ∧ holds (step begun b).2)
    {begun : Option Begun} (start : holds begun) : ∃ read after, (∀ c ∈ read, gives c) ∧ holds after ∧
      ∀ rest, scan begun (bs ++ rest) = read ++ scan after rest := by
  induction bs generalizing begun with
  | nil => exact ⟨[], begun, by simp, start, fun _ => rfl⟩
  | cons b bs ih =>
    obtain ⟨hnow, hlater⟩ := keeps b List.mem_cons_self begun start
    obtain ⟨read, after, hread, hafter, hscan⟩ := ih (fun d hd => keeps d (List.mem_cons_of_mem b hd)) hlater
    refine ⟨(step begun b).1 ++ read, after, List.forall_mem_append.2 ⟨hnow, hread⟩, hafter, fun rest => ?_⟩
    rw [List.cons_append, scan, hscan, List.append_assoc]

/-- A character that is begun has a value already, or what continues it gives it one. -/
def Begun.Grown (c : Begun) : Prop :=
  0x80 ≤ c.low ∧ c.high ≤ 0xBF ∧ (1 ≤ c.value ∨ 0x90 ≤ c.low)

instance (c : Begun) : Decidable c.Grown :=
  inferInstanceAs (Decidable (_ ∧ _))

private theorem begin?_grown : ∀ n < 256, ∀ begun ∈ begin? (UInt8.ofNat n), begun.Grown := by
  decide +kernel

private theorem eq_ten_of_ofNat {n : Nat} (h : Char.ofNat n = '\n') : n = 10 := by
  have hn := congrArg Char.toNat h
  by_cases hv : n.isValidChar
  · rw [Char.ofNat, dif_pos hv] at hn
    exact hn
  · rw [Char.ofNat, dif_neg hv] at hn
    cases hn

section lineFeed

variable {begun : Option Begun} {b : UInt8}

private theorem startAt_of_ne (h : b ≠ 10) :
    some '\n' ∉ (startAt b).1 ∧ ∀ c ∈ (startAt b).2, c.Grown := by
  have hb : UInt8.ofNat b.toNat = b := UInt8.ofNat_toNat
  unfold startAt
  split
  · refine ⟨fun hin => h ?_, fun c hc => nomatch hc⟩
    have hten := eq_ten_of_ofNat (Option.some.inj (List.mem_singleton.1 hin)).symm
    rw [← hb, hten]
    rfl
  · have hbegin := begin?_grown b.toNat b.toNat_lt
    rw [hb] at hbegin
    split
    · exact ⟨by simp, fun c hc => nomatch hc⟩
    · next begun hbegun => exact ⟨by simp, fun c hc => hbegin c (hbegun.trans hc)⟩

/-- No other byte gives a line feed. -/
private theorem step_of_ne (grown : ∀ c ∈ begun, c.Grown) (h : b ≠ 10) :
    some '\n' ∉ (step begun b).1 ∧ ∀ c ∈ (step begun b).2, c.Grown := by
  have hstart := startAt_of_ne h
  unfold step
  split
  · exact hstart
  · next c =>
    obtain ⟨hlow, hhigh, hvalue⟩ := grown c rfl
    rw [UInt8.le_iff_toNat_le] at hlow hhigh hvalue
    have h80 : (0x80 : UInt8).toNat = 0x80 := rfl
    have h90 : (0x90 : UInt8).toNat = 0x90 := rfl
    have hBF : (0xBF : UInt8).toNat = 0xBF := rfl
    split
    · next hin =>
      rw [UInt8.le_iff_toNat_le, UInt8.le_iff_toNat_le] at hin
      have hbig : 16 ≤ 64 * c.value + b.toNat % 64 := by omega
      split
      · refine ⟨fun hnew => ?_, fun c hc => nomatch hc⟩
        have hten := eq_ten_of_ofNat (Option.some.inj (List.mem_singleton.1 hnew)).symm
        omega
      · refine ⟨by simp, fun c hc => ?_⟩
        cases hc
        exact ⟨UInt8.le_refl _, UInt8.le_refl _, .inl (Nat.le_trans (by decide) hbig)⟩
    · exact ⟨by simpa using hstart.1, hstart.2⟩

private theorem scan_append_of_notMem {bs : Bytes} (h : 10 ∉ bs) (grown : ∀ c ∈ begun, c.Grown) :
    ∃ read after, some '\n' ∉ read ∧ (∀ c ∈ after, c.Grown) ∧
      ∀ rest, scan begun (bs ++ rest) = read ++ scan after rest := by
  have keeps : ∀ b ∈ bs, ∀ begun : Option Begun, (∀ c ∈ begun, c.Grown) →
      (∀ c ∈ (step begun b).1, c ≠ some '\n') ∧ ∀ c ∈ (step begun b).2, c.Grown := by
    intro b hb begun grown
    obtain ⟨hnow, hlater⟩ := step_of_ne grown fun hten => h (hten ▸ hb)
    exact ⟨fun c hc hnew => hnow (hnew ▸ hc), hlater⟩
  obtain ⟨read, after, hread, hafter, hscan⟩ := scan_append_keeping (· ≠ some '\n') _ bs keeps grown
  exact ⟨read, after, fun hin => hread _ hin rfl, hafter, hscan⟩

end lineFeed

private theorem eq_map_some_of_mapM {read : List (Option Char)} {cs : List Char} (h : read.mapM id = some cs) :
    read = cs.map some := by
  induction read generalizing cs with
  | nil =>
    cases h
    rfl
  | cons c read ih =>
    rw [List.mapM_cons] at h
    obtain ⟨d, rfl, hrest⟩ := Option.bind_eq_some_iff.1 h
    obtain ⟨ds, hds, hcs⟩ := Option.bind_eq_some_iff.1 hrest
    cases hcs
    rw [ih hds, List.map_cons]

theorem scan_of_decode? {bs : Bytes} {s : String} (h : decode? bs = some s) : scan none bs = s.toList.map some := by
  obtain ⟨cs, hcs, rfl⟩ := Option.map_eq_some_iff.1 h
  rw [String.toList_ofList, eq_map_some_of_mapM hcs]

/-- The text of a line has no line feed but the one at its end. -/
theorem decode?_line {line : Bytes} {s : String} (whole : 10 ∉ line.dropLast) (h : decode? line = some s) :
    ∃ body, '\n' ∉ body ∧ (s.toList = body ∨ s.toList = body ++ ['\n']) := by
  have hscan := scan_of_decode? h
  have fresh : ∀ c ∈ (none : Option Begun), c.Grown := fun _ hc => nomatch hc
  rcases line.eq_nil_or_concat with rfl | ⟨bs, b, rfl⟩
  · exact ⟨s.toList, by simp [List.map_eq_nil_iff.1 hscan.symm], .inl rfl⟩
  rw [List.concat_eq_append] at hscan whole
  rw [List.dropLast_concat] at whole
  by_cases hb : b = 10
  · subst hb
    obtain ⟨read, after, hread, hafter, happend⟩ := scan_append_of_notMem whole fresh
    rw [happend] at hscan
    cases after with
    | none =>
      obtain ⟨body, last, hs, hbody, hlast⟩ := List.map_eq_append_iff.1 hscan.symm
      refine ⟨body, fun hin => hread (hbody ▸ List.mem_map_of_mem hin), .inr ?_⟩
      have hnew : last.map some = ['\n'].map some := hlast
      rw [hs, (List.map_inj_right fun _ _ => Option.some.inj).1 hnew]
    | some c =>
      -- The byte of a line feed does not go on with a character that is begun.
      have hout : ¬(c.low ≤ 10 ∧ 10 ≤ c.high) := fun hin =>
        absurd (UInt8.le_trans (hafter c rfl).1 hin.1) (by decide)
      have hnone : none ∈ s.toList.map some := by
        rw [← hscan, scan, step, if_neg hout]
        simp
      simp at hnone
  · have hall : 10 ∉ bs ++ [b] := by simp [whole, Ne.symm hb]
    obtain ⟨read, after, hread, -, happend⟩ := scan_append_of_notMem hall fresh
    have hend := happend []
    rw [List.append_nil, hscan] at hend
    refine ⟨s.toList, fun hin => ?_, .inl rfl⟩
    have hnew : some '\n' ∈ read ++ scan after [] := hend ▸ List.mem_map_of_mem hin
    rcases List.mem_append.1 hnew with hin | hin
    · exact hread hin
    · cases after <;> simp [scan] at hin

theorem encode_ofList (cs : List Char) : encode (String.ofList cs) = cs.flatMap String.utf8EncodeChar := by
  rw [encode, String.toList_ofList]

/-- Whole characters at the front are read first. -/
theorem scan_flatMap_append (cs : List Char) (rest : Bytes) :
    scan none (cs.flatMap String.utf8EncodeChar ++ rest) = cs.map some ++ scan none rest := by
  induction cs with
  | nil => rfl
  | cons c cs ih => rw [List.flatMap_cons, List.append_assoc, scan_encodeChar, ih, List.map_cons, List.cons_append]

theorem scan_encode (s : String) : scan none (encode s) = s.toList.map some := by
  have hall := scan_flatMap_append s.toList []
  rwa [List.append_nil, scan, List.append_nil] at hall

/-- Text is read back as it was written. -/
theorem decodeLossy_encode (s : String) : decodeLossy (encode s) = s := by
  have hplain : (fun c : Option Char => c.getD '\uFFFD') ∘ some = id := rfl
  rw [decodeLossy, scan_encode, List.map_map, hplain, List.map_id, String.ofList_toList]

/-- No two texts have one UTF-8 form. -/
theorem encode_injective : Function.Injective encode :=
  Function.LeftInverse.injective decodeLossy_encode

theorem decode?_encode (s : String) : decode? (encode s) = some s := by
  have hall (cs : List Char) : (cs.map some).mapM id = some cs := by
    induction cs with
    | nil => rfl
    | cons c cs ih =>
      rw [List.map_cons, List.mapM_cons, ih]
      rfl
  rw [decode?, scan_encode, hall, Option.map_some, String.ofList_toList]

/-- Reading goes on where it was, whatever follows. -/
theorem scan_append (begun : Option Begun) (bs : Bytes) :
    ∃ read after, ∀ rest, scan begun (bs ++ rest) = read ++ scan after rest := by
  obtain ⟨read, after, -, -, hscan⟩ := scan_append_keeping (fun _ => True) (fun _ => True) bs
    (fun _ _ _ _ => ⟨fun _ _ => trivial, trivial⟩) (trivial : True)
  exact ⟨read, after, hscan⟩

private theorem startAt_begins {b : UInt8} (h : (startAt b).1 = []) : (startAt b).2 ≠ none := by
  unfold startAt at h ⊢
  by_cases hone : b < 0x80
  · rw [if_pos hone] at h
    cases h
  · rw [if_neg hone] at h ⊢
    cases hbegin : begin? b with
    | none =>
      rw [hbegin] at h
      cases h
    | some begun => exact Option.some_ne_none begun

/-- A byte that gives nothing yet leaves a character begun. -/
private theorem step_begins {begun : Option Begun} {b : UInt8} (h : (step begun b).1 = []) :
    (step begun b).2 ≠ none := by
  cases begun with
  | none => exact startAt_begins h
  | some c =>
    unfold step at h ⊢
    dsimp only at h ⊢
    by_cases hin : c.low ≤ b ∧ b ≤ c.high
    · rw [if_pos hin] at h ⊢
      cases hafter : c.after with
      | zero =>
        rw [hafter] at h
        cases h
      | succ after => exact Option.some_ne_none _
    · rw [if_neg hin] at h
      cases h

/-- Whatever is there comes to something. -/
theorem scan_eq_nil {begun : Option Begun} {bs : Bytes} (h : scan begun bs = []) : begun = none ∧ bs = [] := by
  induction bs generalizing begun with
  | nil =>
    cases begun with
    | none => exact ⟨rfl, rfl⟩
    | some c => cases h
  | cons b bs ih =>
    obtain ⟨hnow, hlater⟩ := List.append_eq_nil_iff.1 h
    exact absurd (ih hlater).1 (step_begins hnow)

/-- The front of a character, cut off before its end, is one ill-formed piece. -/
theorem scan_take_encodeChar {c : Char} {k : Nat} (hpos : 0 < k) (hcut : k < (String.utf8EncodeChar c).length) :
    scan none ((String.utf8EncodeChar c).take k) = [none] := by
  obtain ⟨read, after, hscan⟩ := scan_append none ((String.utf8EncodeChar c).take k)
  have hfront : scan none ((String.utf8EncodeChar c).take k) = read ++ scan after [] := by
    rw [← hscan, List.append_nil]
  have hwhole : read ++ scan after ((String.utf8EncodeChar c).drop k) = [some c] := by
    rw [← hscan, List.take_append_drop]
    simpa [scan] using scan_encodeChar c []
  -- The rest of the character is not empty, so it gives the character, and the front has given nothing yet.
  have hread : read = [] := by
    rcases List.append_eq_singleton_iff.1 hwhole with ⟨hnil, -⟩ | ⟨-, hlater⟩
    · exact hnil
    · have hdrop := List.drop_eq_nil_iff.1 (scan_eq_nil hlater).2
      omega
  rw [hread, List.nil_append] at hfront
  rw [hfront]
  cases after with
  | none =>
    rcases List.take_eq_nil_iff.1 (scan_eq_nil hfront).2 with hzero | hnil
    · exact absurd hzero (Nat.ne_of_gt hpos)
    · rw [hnil] at hcut
      cases hcut
  | some begun => rfl

/-- Cut to a number of bytes, a text keeps characters at its front as they are, and may keep a part of the next one. -/
theorem take_flatMap (cs : List Char) (room : Nat) : ∃ kept rest, cs = kept ++ rest ∧
    (kept.flatMap String.utf8EncodeChar).length ≤ room ∧
    ((cs.flatMap String.utf8EncodeChar).take room = kept.flatMap String.utf8EncodeChar ∨
      ∃ c more, rest = c :: more ∧ (kept.flatMap String.utf8EncodeChar).length < room ∧
        room < ((kept ++ [c]).flatMap String.utf8EncodeChar).length) := by
  induction cs generalizing room with
  | nil => exact ⟨[], [], rfl, Nat.zero_le _, .inl List.take_nil⟩
  | cons c cs ih =>
    by_cases hfits : (String.utf8EncodeChar c).length ≤ room
    · obtain ⟨kept, rest, rfl, hkept, hcut⟩ := ih (room - (String.utf8EncodeChar c).length)
      refine ⟨c :: kept, rest, rfl, by rw [List.flatMap_cons, List.length_append]; omega, ?_⟩
      rcases hcut with htake | ⟨d, more, rfl, hstarts, hends⟩
      · refine .inl ?_
        rw [List.flatMap_cons, List.take_append, List.take_of_length_le hfits, htake, ← List.flatMap_cons]
      · refine .inr ⟨d, more, rfl, ?_, ?_⟩
        · rw [List.flatMap_cons, List.length_append]
          omega
        · rw [List.cons_append, List.flatMap_cons, List.length_append]
          omega
    · refine ⟨[], c :: cs, rfl, Nat.zero_le _, ?_⟩
      rcases Nat.eq_zero_or_pos room with rfl | hpos
      · exact .inl List.take_zero
      · exact .inr ⟨c, cs, rfl, hpos, by simpa using hfits⟩

/-- What is left of a character that is cut is one ill-formed piece after the characters before it. -/
theorem scan_take_flatMap {before : List Char} {c : Char} {room : Nat}
    (starts : (before.flatMap String.utf8EncodeChar).length < room)
    (ends : room < ((before ++ [c]).flatMap String.utf8EncodeChar).length) (more : List Char) :
    scan none (((before ++ c :: more).flatMap String.utf8EncodeChar).take room) = before.map some ++ [none] := by
  rw [List.flatMap_append, List.flatMap_singleton, List.length_append] at ends
  rw [List.flatMap_append, List.take_append, List.take_of_length_le (Nat.le_of_lt starts), scan_flatMap_append,
    List.flatMap_cons, List.take_append_of_le_length (by omega), scan_take_encodeChar (by omega) (by omega)]

end SealedPost.Utf8
