import SealedPost.Cipher.Standard
import SealedPost.Proofs.Lines

/-! Byte strings in Base64 are read back, and no other text is read as one. -/
namespace SealedPost

theorem bind_eq_ok_iff {ε α β : Type} {x : Except ε α} {f : α → Except ε β} {b : β} :
    x >>= f = .ok b ↔ ∃ a, x = .ok a ∧ f a = .ok b := by
  cases x with
  | error e => exact ⟨fun h => (nomatch h), fun ⟨_, h, _⟩ => (nomatch h)⟩
  | ok a =>
    constructor
    · intro h
      exact ⟨a, rfl, h⟩
    · rintro ⟨_, hx, h⟩
      obtain rfl := Except.ok.inj hx
      exact h

namespace Base64

private theorem value?_symbol : ∀ n < 64, value? (symbol n) = some n := by
  decide +kernel

private theorem symbol_ne_pad : ∀ n < 64, symbol n ≠ pad := by
  decide +kernel

section groups

variable {a b c : UInt8}

private theorem ofNat_eq {n : Nat} (h : n = a.toNat) : UInt8.ofNat n = a :=
  h ▸ UInt8.ofNat_toNat

private theorem bytesOfValues_group (a b c : UInt8) (vs : List Nat) :
    bytesOfValues (a.toNat / 4 :: (a.toNat % 4 * 16 + b.toNat / 16) :: (b.toNat % 16 * 4 + c.toNat / 64) ::
      c.toNat % 64 :: vs) = a :: b :: c :: bytesOfValues vs := by
  have ha := a.toNat_lt
  have hb := b.toNat_lt
  have hc := c.toNat_lt
  rw [bytesOfValues, ofNat_eq (a := a) (by omega), ofNat_eq (a := b) (by omega), ofNat_eq (a := c) (by omega)]

end groups

/-- Whole groups of three bytes are written by themselves. -/
theorem symbols_append {front : Bytes} (h : front.length % 3 = 0) (back : Bytes) :
    symbols (front ++ back) = symbols front ++ symbols back := by
  fun_induction symbols front with
  | case1 => rfl
  | case2 => cases h
  | case3 => cases h
  | case4 a b c front ih =>
    rw [List.length_cons, List.length_cons, List.length_cons] at h
    simp only [List.cons_append, symbols, ih (by omega)]

theorem length_symbols {front : Bytes} (h : front.length % 3 = 0) : (symbols front).length = front.length / 3 * 4 := by
  fun_induction symbols front with
  | case1 => rfl
  | case2 => cases h
  | case3 => cases h
  | case4 a b c front ih =>
    simp only [List.length_cons] at h ⊢
    rw [ih (by omega)]
    omega

theorem values_symbols {front : Bytes} (h : front.length % 3 = 0) (offset : Nat) :
    ∃ vs, values offset (symbols front) = .ok vs ∧ bytesOfValues vs = front := by
  fun_induction symbols front generalizing offset with
  | case1 => exact ⟨[], rfl, rfl⟩
  | case2 => cases h
  | case3 => cases h
  | case4 a b c front ih =>
    simp only [List.length_cons] at h
    obtain ⟨vs, hvs, hfront⟩ := ih (by omega) (offset + 4)
    have ha := a.toNat_lt
    have hb := b.toNat_lt
    have hc := c.toNat_lt
    refine ⟨_, ?_, (bytesOfValues_group a b c vs).trans (by rw [hfront])⟩
    simp only [values]
    rw [value?_symbol _ (by omega), value?_symbol _ (by omega), value?_symbol _ (by omega), value?_symbol _ (by omega),
      hvs]
    rfl

def numbered (ns : List Nat) : List (UInt8 × Nat) :=
  ns.map fun n => (symbol n, n)

section lastGroup

variable (start : Nat) (ns : List Nat) (pads place : Nat) (rest : Bytes)

private theorem lastGroup_symbol {n : Nat} (hn : n < 64) :
    lastGroup start ⟨numbered ns, none, pads⟩ place (symbol n :: rest) =
      lastGroup start ⟨numbered (ns ++ [n]), none, pads⟩ (place + 1) rest := by
  rw [lastGroup, if_neg (symbol_ne_pad n hn), value?_symbol n hn, numbered, numbered, List.map_append]
  rfl

private theorem lastGroup_pad {firstPad : Option Nat} (late : ¬place < 2) :
    lastGroup start ⟨numbered ns, firstPad, pads⟩ place (pad :: rest) =
      lastGroup start ⟨numbered ns, some (firstPad.getD (start + place)), pads + 1⟩ (place + 1) rest := by
  rw [lastGroup, if_pos rfl, if_neg late]

variable {x y z : Nat} (firstPad : Option Nat)

private theorem bytesOfLast_two (h : y % 16 = 0) :
    bytesOfLast start ⟨numbered [x, y], firstPad, 2⟩ = .ok [UInt8.ofNat (x * 4 + y / 16)] := by
  rw [bytesOfLast, if_neg (by simp [numbered]), if_neg (by simp [numbered])]
  exact if_neg (not_not_intro h)

private theorem bytesOfLast_three (h : z % 4 = 0) : bytesOfLast start ⟨numbered [x, y, z], firstPad, 1⟩ =
    .ok [UInt8.ofNat (x * 4 + y / 16), UInt8.ofNat (y % 16 * 16 + z / 4)] := by
  rw [bytesOfLast, if_neg (by simp [numbered]), if_neg (by simp [numbered])]
  exact if_neg (not_not_intro h)

private theorem bytesOfLast_four (v : Nat) :
    bytesOfLast start ⟨numbered [x, y, z, v], firstPad, 0⟩ = .ok (bytesOfValues [x, y, z, v]) := by
  rw [bytesOfLast, if_neg (by simp [numbered]), if_neg (by simp [numbered])]
  rfl

end lastGroup

/-- The last group, which may be padded, is read as the bytes it was written from. -/
theorem lastGroup_symbols {back : Bytes} (h : back ≠ []) (few : back.length ≤ 3) (start : Nat) :
    ∃ group, lastGroup start {} 0 (symbols back) = .ok group ∧ bytesOfLast start group = .ok back := by
  have fresh : ({} : LastGroup) = ⟨numbered [], none, 0⟩ := rfl
  rw [fresh]
  rcases back with _ | ⟨a, _ | ⟨b, _ | ⟨c, _ | ⟨d, more⟩⟩⟩⟩
  · exact absurd rfl h
  · have ha := a.toNat_lt
    refine ⟨⟨numbered [a.toNat / 4, a.toNat % 4 * 16], some (start + 2), 2⟩, ?_, ?_⟩
    · rw [symbols, lastGroup_symbol _ _ _ _ _ (by omega), lastGroup_symbol _ _ _ _ _ (by omega),
        lastGroup_pad _ _ _ _ _ (by omega), lastGroup_pad _ _ _ _ _ (by omega)]
      rfl
    · rw [bytesOfLast_two _ _ (by omega), ofNat_eq (a := a) (by omega)]
  · have ha := a.toNat_lt
    have hb := b.toNat_lt
    refine ⟨⟨numbered [a.toNat / 4, a.toNat % 4 * 16 + b.toNat / 16, b.toNat % 16 * 4], some (start + 3), 1⟩, ?_, ?_⟩
    · rw [symbols, lastGroup_symbol _ _ _ _ _ (by omega), lastGroup_symbol _ _ _ _ _ (by omega),
        lastGroup_symbol _ _ _ _ _ (by omega), lastGroup_pad _ _ _ _ _ (by omega)]
      rfl
    · rw [bytesOfLast_three _ _ (by omega), ofNat_eq (a := a) (by omega), ofNat_eq (a := b) (by omega)]
  · have ha := a.toNat_lt
    have hb := b.toNat_lt
    have hc := c.toNat_lt
    refine ⟨⟨numbered [a.toNat / 4, a.toNat % 4 * 16 + b.toNat / 16, b.toNat % 16 * 4 + c.toNat / 64,
      c.toNat % 64], none, 0⟩, ?_, ?_⟩
    · rw [symbols, lastGroup_symbol _ _ _ _ _ (by omega), lastGroup_symbol _ _ _ _ _ (by omega),
        lastGroup_symbol _ _ _ _ _ (by omega), lastGroup_symbol _ _ _ _ _ (by omega)]
      rfl
    · rw [bytesOfLast_four, bytesOfValues_group]
      rfl
  · simp only [List.length_cons] at few
    omega

theorem symbols_ne_nil {bs : Bytes} (h : bs ≠ []) : symbols bs ≠ [] := by
  fun_cases symbols bs with
  | case1 => exact absurd rfl h
  | case2 => simp
  | case3 => simp
  | case4 => simp

theorem length_symbols_of_few {back : Bytes} (h : back ≠ []) (few : back.length ≤ 3) : (symbols back).length = 4 := by
  rcases back with _ | ⟨a, _ | ⟨b, _ | ⟨c, _ | ⟨d, more⟩⟩⟩⟩
  · exact absurd rfl h
  · rfl
  · rfl
  · rfl
  · simp only [List.length_cons] at few
    omega

/-- A byte string is read back from its symbols. -/
theorem decode_symbols (bs : Bytes) : decode (symbols bs) = .ok bs := by
  by_cases hnil : bs = []
  · subst hnil
    rfl
  have hpos : 0 < bs.length := List.length_pos_iff.2 hnil
  -- All groups of three but the last, which has one to three bytes.
  obtain ⟨front, back, rfl, hfront, hback, hfew⟩ :
      ∃ front back, bs = front ++ back ∧ front.length % 3 = 0 ∧ back ≠ [] ∧ back.length ≤ 3 := by
    refine ⟨bs.take ((bs.length - 1) / 3 * 3), bs.drop ((bs.length - 1) / 3 * 3), (List.take_append_drop _ _).symm, ?_⟩
    rw [List.length_take, List.length_drop, Nat.min_eq_left (by omega)]
    refine ⟨by omega, fun hdrop => ?_, by omega⟩
    have := List.drop_eq_nil_iff.1 hdrop
    omega
  have hlast := length_symbols_of_few hback hfew
  have hbody := length_symbols hfront
  obtain ⟨vs, hvs, hvalues⟩ := values_symbols hfront 0
  obtain ⟨group, hgroup, hbytes⟩ := lastGroup_symbols hback hfew (front.length / 3 * 4)
  have hlength : (symbols front ++ symbols back).length = front.length / 3 * 4 + 4 := by
    rw [List.length_append, hbody, hlast]
  have hstart : lastStart (front.length / 3 * 4 + 4) = front.length / 3 * 4 := by
    rw [lastStart, if_pos (by omega)]
    rfl
  have hsome : symbols front ++ symbols back ≠ [] := by
    rw [← List.length_pos_iff, hlength]
    omega
  have hwhole : ¬(front.length / 3 * 4 + 4) % 4 = 1 := by omega
  rw [symbols_append hfront, decode, if_neg hsome]
  simp only [hlength, hwhole, false_and, if_false, hstart]
  rw [List.take_left' hbody, List.drop_left' hbody, hvs, hgroup]
  simp only [bind, Except.bind]
  rw [hbytes, hvalues]
  rfl

private theorem byte_eq_symbol : ∀ n < 256, ∀ v ∈ value? (UInt8.ofNat n), v < 64 ∧ UInt8.ofNat n = symbol v := by
  decide +kernel

theorem value?_eq_some {b : UInt8} {v : Nat} (h : value? b = some v) : v < 64 ∧ b = symbol v := by
  have hb := byte_eq_symbol b.toNat b.toNat_lt
  rw [UInt8.ofNat_toNat] at hb
  exact hb v h

/-- What is read as symbol numbers is the symbols of these numbers. -/
theorem values_eq_ok {offset : Nat} {form : Bytes} {vs : List Nat} (h : values offset form = .ok vs) :
    form = vs.map symbol ∧ ∀ v ∈ vs, v < 64 := by
  induction form generalizing offset vs with
  | nil =>
    cases h
    exact ⟨rfl, List.forall_mem_nil _⟩
  | cons b rest ih =>
    rw [values] at h
    split at h
    · cases h
    · next v hv =>
      cases hrest : values (offset + 1) rest with
      | error fault =>
        rw [hrest] at h
        cases h
      | ok more =>
        rw [hrest] at h
        cases h
        obtain ⟨hbound, rfl⟩ := value?_eq_some hv
        obtain ⟨rfl, hmore⟩ := ih hrest
        exact ⟨rfl, List.forall_mem_cons.2 ⟨hbound, hmore⟩⟩

/-- A group of four symbols is written as it was read. -/
private theorem symbols_group {a b c d : Nat} (ha : a < 64) (hb : b < 64) (hc : c < 64) (hd : d < 64) (rest : Bytes) :
    symbols
        (UInt8.ofNat (a * 4 + b / 16) :: UInt8.ofNat (b % 16 * 16 + c / 4) :: UInt8.ofNat (c % 4 * 64 + d) :: rest) =
      symbol a :: symbol b :: symbol c :: symbol d :: symbols rest := by
  have hx : (UInt8.ofNat (a * 4 + b / 16)).toNat = a * 4 + b / 16 := Bytes.toNat_ofNat_of_lt (by omega)
  have hy : (UInt8.ofNat (b % 16 * 16 + c / 4)).toNat = b % 16 * 16 + c / 4 := Bytes.toNat_ofNat_of_lt (by omega)
  have hz : (UInt8.ofNat (c % 4 * 64 + d)).toNat = c % 4 * 64 + d := Bytes.toNat_ofNat_of_lt (by omega)
  have h₁ : (a * 4 + b / 16) / 4 = a := by omega
  have h₂ : (a * 4 + b / 16) % 4 * 16 + (b % 16 * 16 + c / 4) / 16 = b := by omega
  have h₃ : (b % 16 * 16 + c / 4) % 16 * 4 + (c % 4 * 64 + d) / 64 = c := by omega
  have h₄ : (c % 4 * 64 + d) % 64 = d := by omega
  rw [symbols, hx, hy, hz, h₁, h₂, h₃, h₄]

/-- Groups of four symbols are written as they were read. -/
theorem symbols_bytesOfValues {vs : List Nat} (whole : vs.length % 4 = 0) (h : ∀ v ∈ vs, v < 64) :
    symbols (bytesOfValues vs) = vs.map symbol ∧ (bytesOfValues vs).length % 3 = 0 := by
  fun_induction bytesOfValues vs with
  | case1 a b c d rest ih =>
    simp only [List.forall_mem_cons] at h
    obtain ⟨ha, hb, hc, hd, hrest⟩ := h
    simp only [List.length_cons] at whole ⊢
    obtain ⟨hsymbols, hlength⟩ := ih (by omega) hrest
    exact ⟨by rw [symbols_group ha hb hc hd, hsymbols]; rfl, by omega⟩
  | case2 vs few =>
    rcases vs with _ | ⟨a, _ | ⟨b, _ | ⟨c, _ | ⟨d, rest⟩⟩⟩⟩
    · exact ⟨rfl, rfl⟩
    · cases whole
    · cases whole
    · cases whole
    · exact absurd rfl (few a b c d rest)

/-- What is read as the last group is symbols and then padding. -/
theorem lastGroup_eq_ok {start pads place : Nat} {ns : List Nat} {firstPad : Option Nat} {form : Bytes}
    {group : LastGroup} (h : lastGroup start ⟨numbered ns, firstPad, pads⟩ place form = .ok group) :
    ∃ more k first, group = ⟨numbered (ns ++ more), first, pads + k⟩ ∧
      form = more.map symbol ++ List.replicate k pad ∧ (∀ v ∈ more, v < 64) ∧ (firstPad ≠ none → more = []) := by
  induction form generalizing ns firstPad pads place with
  | nil =>
    cases h
    exact ⟨[], 0, firstPad, by rw [List.append_nil]; rfl, rfl, List.forall_mem_nil _, fun _ => rfl⟩
  | cons b rest ih =>
    rw [lastGroup] at h
    split at h
    · next hpad =>
      split at h
      · cases h
      · obtain ⟨more, k, first, rfl, rfl, -, hnone⟩ := ih h
        -- Nothing but padding follows padding.
        obtain rfl := hnone nofun
        refine ⟨[], k + 1, first, by rw [Nat.add_right_comm, Nat.add_assoc], ?_, List.forall_mem_nil _, fun _ => rfl⟩
        rw [hpad, List.replicate_succ]
        rfl
    · split at h
      · cases h
      · next hfirst =>
        split at h
        · cases h
        · next v hv =>
          obtain ⟨hbound, rfl⟩ := value?_eq_some hv
          have hpush : numbered ns ++ [(symbol v, v)] = numbered (ns ++ [v]) := by simp [numbered]
          dsimp only at h hfirst
          rw [hpush] at h
          obtain ⟨more, k, first, rfl, rfl, hmore, -⟩ := ih h
          exact ⟨v :: more, k, first, by rw [List.append_assoc]; rfl, rfl, List.forall_mem_cons.2 ⟨hbound, hmore⟩,
            fun hsome => absurd hfirst hsome⟩

section last

variable {a b c : Nat}

private theorem symbols_two (ha : a < 64) (hb : b < 64) (unused : b % 16 = 0) :
    symbols [UInt8.ofNat (a * 4 + b / 16)] = [symbol a, symbol b, pad, pad] := by
  have hx : (UInt8.ofNat (a * 4 + b / 16)).toNat = a * 4 + b / 16 := Bytes.toNat_ofNat_of_lt (by omega)
  have h₁ : (a * 4 + b / 16) / 4 = a := by omega
  have h₂ : (a * 4 + b / 16) % 4 * 16 = b := by omega
  rw [symbols, hx, h₁, h₂]

private theorem symbols_three (ha : a < 64) (hb : b < 64) (hc : c < 64) (unused : c % 4 = 0) :
    symbols [UInt8.ofNat (a * 4 + b / 16), UInt8.ofNat (b % 16 * 16 + c / 4)] =
      [symbol a, symbol b, symbol c, pad] := by
  have hx : (UInt8.ofNat (a * 4 + b / 16)).toNat = a * 4 + b / 16 := Bytes.toNat_ofNat_of_lt (by omega)
  have hy : (UInt8.ofNat (b % 16 * 16 + c / 4)).toNat = b % 16 * 16 + c / 4 := Bytes.toNat_ofNat_of_lt (by omega)
  have h₁ : (a * 4 + b / 16) / 4 = a := by omega
  have h₂ : (a * 4 + b / 16) % 4 * 16 + (b % 16 * 16 + c / 4) / 16 = b := by omega
  have h₃ : (b % 16 * 16 + c / 4) % 16 * 4 = c := by omega
  rw [symbols, hx, hy, h₁, h₂, h₃]

end last

/-- A last group that is read as bytes fills its four places, and is written as it was read. -/
theorem bytesOfLast_eq_ok {start pads : Nat} {firstPad : Option Nat} {ns : List Nat} {bs : Bytes}
    (small : ∀ v ∈ ns, v < 64) (few : ns.length + pads ≤ 4)
    (h : bytesOfLast start ⟨numbered ns, firstPad, pads⟩ = .ok bs) :
    ns.length + pads = 4 ∧ symbols bs = ns.map symbol ++ List.replicate pads pad := by
  have hlength : (numbered ns).length = ns.length := by rw [numbered, List.length_map]
  rw [bytesOfLast, hlength] at h
  dsimp only at h
  split at h
  · cases h
  split at h
  · cases h
  next hmany hwhole =>
  have hfour : ns.length + pads = 4 := by omega
  refine ⟨hfour, ?_⟩
  rcases ns with _ | ⟨x, _ | ⟨y, _ | ⟨z, _ | ⟨w, _ | ⟨v, more⟩⟩⟩⟩⟩
  · exact absurd Nat.zero_lt_two hmany
  · exact absurd Nat.one_lt_two hmany
  · obtain rfl : pads = 2 := Nat.add_left_cancel hfour
    simp only [List.forall_mem_cons] at small
    obtain ⟨hx, hy, -⟩ := small
    simp only [numbered, List.map_cons, List.map_nil] at h
    split at h
    · cases h
    · next unused =>
      cases h
      exact symbols_two hx hy (Decidable.not_not.1 unused)
  · obtain rfl : pads = 1 := Nat.add_left_cancel hfour
    simp only [List.forall_mem_cons] at small
    obtain ⟨hx, hy, hz, -⟩ := small
    simp only [numbered, List.map_cons, List.map_nil] at h
    split at h
    · cases h
    · next unused =>
      cases h
      exact symbols_three hx hy hz (Decidable.not_not.1 unused)
  · obtain rfl : pads = 0 := Nat.add_left_cancel hfour
    simp only [List.forall_mem_cons] at small
    obtain ⟨hx, hy, hz, hw, -⟩ := small
    cases h
    exact symbols_group hx hy hz hw []
  · simp only [List.length_cons] at hfour
    omega

/-- The last group of a form that is not empty has one to four places, and whole groups come before it. -/
private theorem lastStart_spec {n : Nat} (h : 0 < n) : lastStart n < n ∧ n ≤ lastStart n + 4 ∧ lastStart n % 4 = 0 := by
  unfold lastStart
  split
  · omega
  · omega

/-- Only the symbols of a byte string are read, and as that byte string. -/
theorem eq_symbols_of_decode {form bs : Bytes} (h : decode form = .ok bs) : form = symbols bs := by
  unfold decode at h
  split at h
  · next hnil =>
    cases h
    exact hnil
  next hsome =>
  dsimp only at h
  split at h
  · cases h
  simp only [bind_eq_ok_iff] at h
  obtain ⟨vs, hvs, group, hgroup, back, hback, hbs⟩ := h
  obtain rfl := Except.ok.inj hbs
  obtain ⟨hbefore, hmost, hwhole⟩ := lastStart_spec (List.length_pos_iff.2 hsome)
  have fresh : ({} : LastGroup) = ⟨numbered [], none, 0⟩ := rfl
  rw [fresh] at hgroup
  obtain ⟨hfront, hsmall⟩ := values_eq_ok hvs
  obtain ⟨more, k, first, rfl, hlast, hmore, -⟩ := lastGroup_eq_ok hgroup
  rw [List.nil_append, Nat.zero_add] at hback
  have hvalues : vs.length = lastStart form.length := by
    rw [← List.length_map symbol, ← hfront, List.length_take_of_le (Nat.le_of_lt hbefore)]
  have hplaces : more.length + k = form.length - lastStart form.length := by
    rw [← List.length_drop, hlast, List.length_append, List.length_map, List.length_replicate]
  obtain ⟨-, hend⟩ := bytesOfLast_eq_ok hmore (by omega) hback
  obtain ⟨hgroups, hthree⟩ := symbols_bytesOfValues (by omega) hsmall
  calc form
    _ = form.take (lastStart form.length) ++ form.drop (lastStart form.length) := (List.take_append_drop _ _).symm
    _ = vs.map symbol ++ (more.map symbol ++ List.replicate k pad) := by rw [← hfront, hlast]
    _ = symbols (bytesOfValues vs) ++ symbols back := by rw [hgroups, hend]
    _ = symbols (bytesOfValues vs ++ back) := (symbols_append hthree back).symm

/-- A form is read exactly if it is the one that is written. -/
theorem decode_eq_ok_iff {form bs : Bytes} : decode form = .ok bs ↔ form = symbols bs :=
  ⟨eq_symbols_of_decode, fun h => h ▸ decode_symbols bs⟩

def Visible (b : UInt8) : Prop :=
  32 < b.toNat ∧ b.toNat < 127

private theorem visible_symbol (n : Nat) : Visible (symbol n) := by
  have hsmall : ∀ n < 64, 32 < (symbol n).toNat ∧ (symbol n).toNat < 127 := by decide +kernel
  by_cases hn : n < 64
  · exact hsmall n hn
  · rw [symbol, if_neg (by omega), if_neg (by omega), if_neg (by omega), if_neg (by omega)]
    exact ⟨by decide, by decide⟩

/-- No symbol is blank, so trimming takes none away. -/
theorem visible_of_mem_symbols (bs : Bytes) : ∀ b ∈ symbols bs, Visible b := by
  have hpad : Visible pad := ⟨by decide, by decide⟩
  fun_induction symbols bs with
  | case1 => exact List.forall_mem_nil _
  | case2 => simp [visible_symbol, hpad]
  | case3 => simp [visible_symbol, hpad]
  | case4 a b c rest ih =>
    simp only [List.forall_mem_cons]
    exact ⟨visible_symbol _, visible_symbol _, visible_symbol _, visible_symbol _, ih⟩

private theorem ofNat_ascii : ∀ n < 127, 32 < n →
    String.utf8EncodeChar (Char.ofNat n) = [UInt8.ofNat n] ∧ Text.isBlank (Char.ofNat n) = false := by
  decide +kernel

theorem encode_encode (bs : Bytes) : Utf8.encode (encode bs) = symbols bs := by
  have hvisible := visible_of_mem_symbols bs
  rw [encode, Utf8.encode_ofList]
  generalize symbols bs = form at hvisible
  induction form with
  | nil => rfl
  | cons b rest ih =>
    obtain ⟨⟨hlow, hhigh⟩, hrest⟩ := List.forall_mem_cons.1 hvisible
    rw [List.map_cons, List.flatMap_cons, ih hrest, (ofNat_ascii b.toNat hhigh hlow).1, UInt8.ofNat_toNat]
    rfl

theorem isBlank_of_mem_encode {bs : Bytes} {c : Char} (h : c ∈ (encode bs).toList) : Text.isBlank c = false := by
  rw [encode, String.toList_ofList] at h
  obtain ⟨b, hb, rfl⟩ := List.mem_map.1 h
  obtain ⟨hlow, hhigh⟩ := visible_of_mem_symbols bs b hb
  exact (ofNat_ascii b.toNat hhigh hlow).2

theorem encode_ne_empty {bs : Bytes} (h : bs ≠ []) : encode bs ≠ "" := by
  intro hempty
  refine symbols_ne_nil h ?_
  rw [← encode_encode, hempty]
  rfl

end Base64

namespace Standard

/-- A text is read as a byte string exactly if it is the Base64 text of that, apart from white space around it. -/
theorem decodeBase64_eq_ok_iff {t : String} {bs : Bytes} :
    decodeBase64 t = .ok bs ↔ Text.trim t = Base64.encode bs := by
  have hform : Base64.decode (Utf8.encode (Text.trim t)) = .ok bs ↔ Text.trim t = Base64.encode bs := by
    rw [Base64.decode_eq_ok_iff, ← Base64.encode_encode]
    exact Utf8.encode_injective.eq_iff
  rw [← hform, decodeBase64]
  split
  · next read hread => rw [hread, Except.ok.injEq, Except.ok.injEq]
  · next fault hfault =>
    rw [hfault]
    exact ⟨nofun, nofun⟩

/-- A byte string is read back from its Base64 text. -/
theorem decodeBase64_encode (bs : Bytes) : decodeBase64 (Base64.encode bs) = .ok bs :=
  decodeBase64_eq_ok_iff.2 (Text.trim_of_plain fun _ => Base64.isBlank_of_mem_encode)

/-- Reading Base64 undoes writing it, through any white space around the text, and of all other texts none is read: each
is refused as Base64 that is not well-formed. So two texts that are read as the same bytes differ in the white space
around them only. -/
theorem base64_read_from_its_text_only :
    (∀ (bs : Bytes) (u v : String), (∀ c ∈ u.toList, Text.isBlank c = true) → (∀ c ∈ v.toList, Text.isBlank c = true) →
      decodeBase64 (u ++ Base64.encode bs ++ v) = .ok bs) ∧
    (∀ (t : String) (bs : Bytes), decodeBase64 t = .ok bs ↔ Text.trim t = Base64.encode bs) ∧
    (∀ t : String, (∀ bs, Text.trim t ≠ Base64.encode bs) ↔
      ∃ fault, decodeBase64 t = .error (.config (.base64 fault))) ∧
    ∀ (t t' : String) (bs : Bytes), decodeBase64 t = .ok bs → decodeBase64 t' = .ok bs →
      Text.trim t = Text.trim t' := by
  refine ⟨fun bs u v hu hv => ?_, fun t bs => decodeBase64_eq_ok_iff, fun t => ⟨fun other => ?_, ?_⟩,
    fun t t' bs h h' => ?_⟩
  · rw [decodeBase64_eq_ok_iff, Text.trim_blanks_around hu hv]
    exact decodeBase64_eq_ok_iff.1 (decodeBase64_encode bs)
  · cases hread : Base64.decode (Utf8.encode (Text.trim t)) with
    | ok bs => exact absurd (decodeBase64_eq_ok_iff.1 (by rw [decodeBase64, hread])) (other bs)
    | error fault => exact ⟨fault, by rw [decodeBase64, hread]⟩
  · rintro ⟨fault, hfault⟩ bs htext
    rw [decodeBase64_eq_ok_iff.2 htext] at hfault
    cases hfault
  · exact (decodeBase64_eq_ok_iff.1 h).trans (decodeBase64_eq_ok_iff.1 h').symm

theorem spaced_base64_read :
    decodeBase64 "\u3000 TWU=\u2029\r\n" = .ok [77, 101] ∧
      (∀ bs, Text.trim "TWV=" ≠ Base64.encode bs) := by
  obtain ⟨hread, -, hrefused, -⟩ := base64_read_from_its_text_only
  refine ⟨?_, (hrefused "TWV=").2 ⟨.invalidLastSymbol 2 86, by decide +kernel⟩⟩
  have htext : "\u3000 TWU=\u2029\r\n" = "\u3000 " ++ Base64.encode [77, 101] ++ "\u2029\r\n" := by decide +kernel
  have hbefore : "\u3000 ".toList.all Text.isBlank = true := by decide +kernel
  have hafter : "\u2029\r\n".toList.all Text.isBlank = true := by decide +kernel
  rw [htext]
  exact hread [77, 101] _ _ (List.all_eq_true.1 hbefore) (List.all_eq_true.1 hafter)

end Standard

end SealedPost
