import SealedPost.Cipher.Der
import SealedPost.Proofs.Bytes

/-! DER is read back as it was written, and nothing but what is written is read. -/
namespace SealedPost

theorem Bytes.after?_eq_some_iff {lead bs rest : Bytes} : after? lead bs = some rest ↔ bs = lead ++ rest := by
  unfold after?
  constructor
  · intro h
    split at h
    · next hlead =>
      obtain rfl := Option.some.inj h
      exact (List.take_append_drop lead.length bs).symm.trans (congrArg (· ++ bs.drop lead.length) hlead.symm)
    · cases h
  · rintro rfl
    rw [if_pos (by rw [List.take_left]), List.drop_left]

namespace Der

theorem natBE_bigEndian (n : Nat) : Bytes.natBE (bigEndian n) = n := by
  fun_induction bigEndian n with
  | case1 => rfl
  | case2 n _ ih =>
    have hdigit : (UInt8.ofNat (n % 256)).toNat = n % 256 := Bytes.toNat_ofNat_of_lt (Nat.mod_lt _ (by decide))
    rw [Bytes.natBE_concat, ih, hdigit]
    exact Nat.div_add_mod ..

theorem length_bigEndian_le {n k : Nat} (h : n < 256 ^ k) : (bigEndian n).length ≤ k := by
  induction k generalizing n with
  | zero =>
    obtain rfl : n = 0 := by omega
    rw [bigEndian, if_pos rfl]
    exact Nat.le_refl 0
  | succ k ih =>
    rw [bigEndian]
    split
    · exact Nat.zero_le _
    · rw [Nat.pow_succ] at h
      rw [List.length_append]
      exact Nat.succ_le_succ (ih (Nat.div_lt_of_lt_mul (by omega)))

theorem bigEndian_ne_nil {n : Nat} (h : n ≠ 0) : bigEndian n ≠ [] := by
  rw [bigEndian, if_neg h]
  exact List.append_ne_nil_of_right_ne_nil _ (List.cons_ne_nil _ _)

/-- The body of an integer has its value, whether or not a zero byte keeps its sign. -/
theorem natBE_unsignedBody (n : Nat) : Bytes.natBE (unsignedBody n) = n := by
  unfold unsignedBody
  simp only
  split
  · exact natBE_bigEndian n
  · exact natBE_bigEndian n

section length

variable {n : Nat} {bs rest : Bytes}

private theorem lengthBytes_of_lt (h : n < 128) : lengthBytes n = [UInt8.ofNat n] :=
  if_pos h

private theorem lengthBytes_of_le (h : 128 ≤ n) :
    lengthBytes n = UInt8.ofNat (128 + (bigEndian n).length) :: bigEndian n :=
  if_neg (Nat.not_lt.2 h)

/-- The byte that announces digits of a length, if they are few. -/
private theorem count_eq {k : Nat} (h : k < 128) :
    ¬UInt8.ofNat (128 + k) < 128 ∧ (UInt8.ofNat (128 + k)).toNat - 128 = k := by
  have hb : (UInt8.ofNat (128 + k)).toNat = 128 + k := Bytes.toNat_ofNat_of_lt (by omega)
  rw [UInt8.lt_iff_toNat_lt, hb]
  exact ⟨Nat.not_lt.2 (Nat.le_add_right ..), Nat.add_sub_cancel_left ..⟩

/-- The byte that is a length by itself. -/
private theorem short_eq (h : n < 128) : UInt8.ofNat n < 128 ∧ (UInt8.ofNat n).toNat = n := by
  have hb : (UInt8.ofNat n).toNat = n := Bytes.toNat_ofNat_of_lt (by omega)
  rw [UInt8.lt_iff_toNat_lt, hb]
  exact ⟨h, rfl⟩

private theorem length?_long {b : UInt8} (h : ¬b < 128) (bs : Bytes) :
    length? (b :: bs) = (
      let digits := bs.take (b.toNat - 128)
      if b.toNat - 128 ≤ 4 ∧ b :: digits = lengthBytes (Bytes.natBE digits) then
        some (Bytes.natBE digits, bs.drop (b.toNat - 128)) else none) :=
  if_neg h

/-- Of a length only its shortest form is read. -/
theorem length?_eq_some_iff :
    length? bs = some (n, rest) ↔ n < 2 ^ 32 ∧ bs = lengthBytes n ++ rest := by
  constructor
  · intro h
    rcases bs with _ | ⟨b, bs⟩
    · cases h
    by_cases hshort : b < 128
    · obtain ⟨rfl, rfl⟩ : b.toNat = n ∧ bs = rest := by simpa [length?, hshort] using h
      have hb : b.toNat < 128 := hshort
      rw [lengthBytes_of_lt hb, UInt8.ofNat_toNat]
      exact ⟨by omega, rfl⟩
    · rw [length?_long hshort] at h
      simp only at h
      split at h
      · next hdigits =>
        obtain ⟨hfew, hcanonical⟩ := hdigits
        obtain ⟨rfl, rfl⟩ := Prod.mk.inj (Option.some.inj h)
        refine ⟨?_, ?_⟩
        · have hfour : (bs.take (b.toNat - 128)).length ≤ 4 := Nat.le_trans (List.length_take_le ..) hfew
          exact Nat.lt_of_lt_of_le (Bytes.natBE_lt _) (Nat.pow_le_pow_right (by decide) hfour)
        · rw [← hcanonical, List.cons_append, List.take_append_drop]
      · cases h
  · rintro ⟨hn, rfl⟩
    by_cases hshort : n < 128
    · obtain ⟨hlow, hb⟩ := short_eq hshort
      rw [lengthBytes_of_lt hshort, List.singleton_append, length?, if_pos hlow, hb]
    · have hfew : (bigEndian n).length ≤ 4 := length_bigEndian_le (Nat.lt_of_lt_of_eq hn (by decide))
      obtain ⟨hhigh, hcount⟩ := count_eq (k := (bigEndian n).length) (by omega)
      rw [lengthBytes_of_le (Nat.not_lt.1 hshort), List.cons_append, length?_long hhigh, hcount]
      simp only [List.take_left, List.drop_left, natBE_bigEndian]
      rw [if_pos ⟨hfew, (lengthBytes_of_le (Nat.not_lt.1 hshort)).symm⟩]

end length

section element

variable {tag : UInt8} {bs body rest : Bytes}

/-- An element is read exactly if it is written at the front. -/
theorem element?_eq_some_iff :
    element? tag bs = some (body, rest) ↔ body.length < 2 ^ 32 ∧ bs = element tag body ++ rest := by
  constructor
  · intro h
    rcases bs with _ | ⟨t, bs⟩
    · cases h
    simp only [element?] at h
    split at h
    · next htag =>
      subst htag
      cases hlength : length? bs with
      | none =>
        rw [hlength] at h
        cases h
      | some read =>
        obtain ⟨n, after⟩ := read
        rw [hlength] at h
        obtain ⟨hn, rfl⟩ := length?_eq_some_iff.1 hlength
        simp only at h
        split at h
        · next hlong =>
          obtain ⟨rfl, rfl⟩ := Prod.mk.inj (Option.some.inj h)
          have hbody : (after.take n).length = n := List.length_take_of_le hlong
          refine ⟨Nat.lt_of_le_of_lt (Nat.le_of_eq hbody) hn, ?_⟩
          rw [element, hbody, List.cons_append, List.cons_append, List.append_assoc, List.take_append_drop]
        · cases h
    · cases h
  · rintro ⟨hbody, rfl⟩
    have hlength : length? (lengthBytes body.length ++ (body ++ rest)) = some (body.length, body ++ rest) :=
      length?_eq_some_iff.2 ⟨hbody, rfl⟩
    have hlong : body.length ≤ (body ++ rest).length := by
      rw [List.length_append]
      exact Nat.le_add_right ..
    rw [element, List.cons_append, List.cons_append, List.append_assoc, element?, if_pos rfl, hlength]
    simp only [if_pos hlong, List.take_left, List.drop_left]

theorem whole?_eq_some_iff : whole? tag bs = some body ↔ body.length < 2 ^ 32 ∧ bs = element tag body := by
  have hread := @element?_eq_some_iff tag bs body []
  rw [List.append_nil] at hread
  rw [← hread]
  unfold whole?
  split
  · next read hsome =>
    rw [hsome]
    simp
  · next hother =>
    refine ⟨fun h => (nomatch h), fun h => absurd h (hother body)⟩

theorem length_element (tag : UInt8) (body : Bytes) :
    (element tag body).length = 1 + (lengthBytes body.length).length + body.length := by
  rw [element, List.length_append, List.length_cons, Nat.add_comm 1]

theorem length_le_element (tag : UInt8) (body : Bytes) : body.length ≤ (element tag body).length := by
  rw [length_element]
  exact Nat.le_add_left ..

end element

section unsigned

variable {n : Nat} {bs rest : Bytes}

/-- An integer is read exactly if its shortest form stands at the front. -/
theorem unsigned?_eq_some_iff :
    unsigned? bs = some (n, rest) ↔ (unsignedBody n).length < 2 ^ 32 ∧ bs = unsigned n ++ rest := by
  constructor
  · intro h
    unfold unsigned? at h
    split at h
    · cases h
    · next body after hread =>
      simp only at h
      split at h
      · next hcanonical =>
        obtain ⟨rfl, rfl⟩ := Prod.mk.inj (Option.some.inj h)
        rw [unsigned, ← hcanonical]
        exact element?_eq_some_iff.1 hread
      · cases h
  · rintro ⟨hbody, rfl⟩
    have hread : element? 0x02 (unsigned n ++ rest) = some (unsignedBody n, rest) :=
      element?_eq_some_iff.2 ⟨hbody, rfl⟩
    rw [unsigned?, hread]
    simp only [natBE_unsignedBody, if_pos]

theorem unsignedList?_eq_some_iff {count : Nat} {ns : List Nat} :
    unsignedList? count bs = some (ns, rest) ↔
      ns.length = count ∧ (∀ n ∈ ns, (unsignedBody n).length < 2 ^ 32) ∧ bs = ns.flatMap unsigned ++ rest := by
  induction count generalizing bs ns with
  | zero =>
    constructor
    · intro h
      obtain ⟨rfl, rfl⟩ := Prod.mk.inj (Option.some.inj h)
      exact ⟨rfl, List.forall_mem_nil _, rfl⟩
    · rintro ⟨hlength, -, rfl⟩
      obtain rfl := List.length_eq_zero_iff.1 hlength
      rfl
  | succ count ih =>
    constructor
    · intro h
      unfold unsignedList? at h
      split at h
      · cases h
      · next n after hfirst =>
        obtain ⟨⟨more, left⟩, hmore, hns⟩ := Option.map_eq_some_iff.1 h
        obtain ⟨rfl, rfl⟩ := Prod.mk.inj hns
        obtain ⟨hbody, rfl⟩ := unsigned?_eq_some_iff.1 hfirst
        obtain ⟨hcount, hbodies, rfl⟩ := ih.1 hmore
        refine ⟨congrArg (· + 1) hcount, List.forall_mem_cons.2 ⟨hbody, hbodies⟩, ?_⟩
        rw [List.flatMap_cons, List.append_assoc]
    · rintro ⟨hlength, hbodies, rfl⟩
      rcases ns with _ | ⟨n, more⟩
      · cases hlength
      obtain ⟨hbody, hmore⟩ := List.forall_mem_cons.1 hbodies
      have hfirst : unsigned? (unsigned n ++ (more.flatMap unsigned ++ rest)) =
          some (n, more.flatMap unsigned ++ rest) := unsigned?_eq_some_iff.2 ⟨hbody, rfl⟩
      have hrest : unsignedList? count (more.flatMap unsigned ++ rest) = some (more, rest) :=
        ih.2 ⟨Nat.succ.inj hlength, hmore, rfl⟩
      rw [List.flatMap_cons, List.append_assoc, unsignedList?, hfirst]
      simp only [hrest, Option.map_some]

theorem length_unsignedBody_le (n : Nat) : (unsignedBody n).length ≤ (unsigned n).length :=
  length_le_element ..

end unsigned

/-- The header of a sequence tells its length, whatever follows the sequence. -/
theorem announcedLength?_element {body : Bytes} (h : body.length < 2 ^ 16) (rest : Bytes) :
    announcedLength? (element 0x30 body ++ rest) = some (element 0x30 body).length := by
  rw [length_element, element]
  by_cases hshort : body.length < 128
  · obtain ⟨hlow, hb⟩ := short_eq hshort
    rw [lengthBytes_of_lt hshort]
    simp only [List.cons_append, List.nil_append, announcedLength?, ne_eq, not_true_eq_false, if_false, if_pos hlow, hb]
    rfl
  · have hfew : (bigEndian body.length).length ≤ 2 := length_bigEndian_le (Nat.lt_of_lt_of_eq h (by decide))
    have hsome : 0 < (bigEndian body.length).length := List.length_pos_iff.2 (bigEndian_ne_nil (by omega))
    obtain ⟨hhigh, hcount⟩ := count_eq (k := (bigEndian body.length).length) (by omega)
    rw [lengthBytes_of_le (Nat.not_lt.1 hshort)]
    simp only [List.cons_append, List.append_assoc, announcedLength?, ne_eq, not_true_eq_false, if_false, if_neg hhigh,
      hcount, List.take_left, natBE_bigEndian, List.length_cons]
    rw [if_neg (by rw [List.length_append]; omega)]
    exact congrArg some (by omega)

end Der

end SealedPost
