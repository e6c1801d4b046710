import SealedPost.Text.Decimal

/-! Decimal numbers as texts: what reads as a number, and the one plain form that a number is written in. -/
namespace SealedPost.Decimal

/-- A text that reads as a number: decimal digits, with or without zeros in front, after one plus sign at most. -/
structure Reads (limit : Nat) (cs : List Char) (n : Nat) : Prop where
  fits : n ≤ limit
  written : ∃ ds, ds ≠ [] ∧ (∀ c ∈ ds, c.isDigit = true) ∧ Nat.ofDigitChars 10 ds 0 = n ∧ (cs = ds ∨ cs = '+' :: ds)

private theorem digit_eq_digitChar : ∀ n < 10, digit n = Nat.digitChar n := by
  decide

theorem digits_eq_toDigits (n : Nat) : digits n = Nat.toDigits 10 n := by
  fun_induction digits n with
  | case1 n h => rw [Nat.toDigits_of_lt_base h, digit_eq_digitChar n h]
  | case2 n h ih =>
    rw [ih, digit_eq_digitChar _ (Nat.mod_lt _ (by decide)), ← Nat.toDigits_of_base_le (by decide) (Nat.le_of_not_lt h)]

/-- A number is written plainly. -/
theorem text_eq_toString (n : Nat) : text n = toString n := by
  rw [text, digits_eq_toDigits, Nat.toString_eq_repr, Nat.repr_eq_ofList_toDigits]

private theorem le_ofDigitChars (cs : List Char) (value : Nat) : value ≤ Nat.ofDigitChars 10 cs value := by
  induction cs generalizing value with
  | nil => exact Nat.le_refl value
  | cons c cs ih =>
    rw [Nat.ofDigitChars_cons]
    have hnext := ih (10 * value + (c.toNat - '0'.toNat))
    omega

/-- Digits that are still to be read go on with the value of those before them. -/
theorem parseFrom_eq_ok_iff {limit value n : Nat} {cs : List Char} (h : value ≤ limit) :
    parseFrom limit value cs = .ok n ↔
      (∀ c ∈ cs, c.isDigit = true) ∧ Nat.ofDigitChars 10 cs value = n ∧ n ≤ limit := by
  induction cs generalizing value with
  | nil =>
    rw [parseFrom, Nat.ofDigitChars_nil, Except.ok.injEq]
    constructor
    · rintro rfl
      exact ⟨by simp, rfl, h⟩
    · exact fun hread => hread.2.1
  | cons c cs ih =>
    have hzero : '0'.toNat = 48 := rfl
    rw [parseFrom, Nat.ofDigitChars_cons, List.forall_mem_cons, hzero]
    dsimp only
    split
    · next hdigit =>
      split
      · next hnext => rw [ih hnext, and_iff_right hdigit]
      · next hnext =>
        -- The value only grows with the digits that follow.
        refine ⟨fun hok => (nomatch hok), fun ⟨_, hvalue, hfits⟩ => absurd ?_ hnext⟩
        exact Nat.le_trans (hvalue ▸ le_ofDigitChars cs _) hfits
    · next hdigit => exact ⟨fun hok => (nomatch hok), fun hread => absurd hread.1.1 hdigit⟩

/-- What is read of a text is one plus sign at most and the digits after it. -/
private theorem reads_iff {limit n : Nat} {cs ds : List Char} (hne : ds ≠ [])
    (hcs : cs = ds ∧ (∀ more, cs ≠ '+' :: more) ∨ cs = '+' :: ds) :
    Reads limit cs n ↔ (∀ c ∈ ds, c.isDigit = true) ∧ Nat.ofDigitChars 10 ds 0 = n ∧ n ≤ limit := by
  constructor
  · rintro ⟨hfits, es, -, hdigits, hvalue, hes⟩
    have hsame : es = ds := by
      rcases hcs with ⟨rfl, plain⟩ | rfl
      · rcases hes with rfl | hes
        · rfl
        · exact absurd hes (plain es)
      · rcases hes with rfl | hes
        · exact absurd (hdigits '+' List.mem_cons_self) (by decide)
        · exact (List.cons.inj hes).2.symm
    subst hsame
    exact ⟨hdigits, hvalue, hfits⟩
  · rintro ⟨hdigits, hvalue, hfits⟩
    exact ⟨hfits, ds, hne, hdigits, hvalue, hcs.imp_left And.left⟩

/-- Exactly the texts that read as a number up to the limit are read, as that number. -/
theorem parse_eq_ok_iff {limit n : Nat} {cs : List Char} : parse limit cs = .ok n ↔ Reads limit cs n := by
  fun_cases parse limit cs with
  | case1 =>
    refine ⟨fun hok => (nomatch hok), ?_⟩
    rintro ⟨-, ds, hne, -, -, hds | hds⟩
    · exact absurd hds.symm hne
    · cases hds
  | case2 =>
    refine ⟨fun hok => (nomatch hok), ?_⟩
    rintro ⟨-, ds, hne, hdigits, -, rfl | hds⟩
    · exact absurd (hdigits '+' List.mem_cons_self) (by decide)
    · exact absurd (List.cons.inj hds).2.symm hne
  | case3 ds hne => rw [parseFrom_eq_ok_iff (Nat.zero_le limit), reads_iff hne (.inr rfl)]
  | case4 cs hne _ plain => rw [parseFrom_eq_ok_iff (Nat.zero_le limit), reads_iff hne (.inl ⟨rfl, plain⟩)]

theorem digits_ne_nil (n : Nat) : digits n ≠ [] := by
  rw [digits_eq_toDigits]
  exact Nat.toDigits_ne_nil

theorem isDigit_of_mem_digits {n : Nat} {c : Char} (h : c ∈ digits n) : c.isDigit = true :=
  Nat.isDigit_of_mem_toDigits (by decide) (by decide) (digits_eq_toDigits n ▸ h)

/-- A number is read as it was written. -/
theorem reads_digits {limit n : Nat} (fits : n ≤ limit) : Reads limit (digits n) n where
  fits := fits
  written := by
    refine ⟨digits n, digits_ne_nil n, fun _ => isDigit_of_mem_digits, ?_, .inl rfl⟩
    rw [digits_eq_toDigits]
    exact Nat.ofDigitChars_ten_toDigits

end SealedPost.Decimal
