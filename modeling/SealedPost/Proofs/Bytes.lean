import Mathlib.Algebra.Group.Nat.Defs
import SealedPost.Bytes

/-! Laws of byte strings: the numbers written in them, padding, pieces of one length, and exclusive or. -/
namespace SealedPost.Bytes

theorem toNat_ofNat_of_lt {n : Nat} (h : n < 256) : (UInt8.ofNat n).toNat = n :=
  UInt8.toNat_ofNat_of_lt' h

/-- A number is read back up to the digits that its field cuts off. -/
theorem natLE_ofNatLE (width v : Nat) : natLE (ofNatLE width v) = v % 256 ^ width := by
  induction width generalizing v with
  | zero => simp [ofNatLE, natLE, Nat.mod_one]
  | succ width ih =>
    have hv := ih (v / 256)
    simp only [natLE] at hv
    have hb : (UInt8.ofNat (v % 256)).toNat = v % 256 := toNat_ofNat_of_lt (Nat.mod_lt _ (by decide))
    simp only [ofNatLE, natLE, List.foldr_cons, hv, hb]
    rw [Nat.pow_add_one, Nat.mul_comm (256 ^ width), Nat.mod_mul]

theorem ofNatLE_natLE (bs : Bytes) : ofNatLE bs.length (natLE bs) = bs := by
  induction bs with
  | nil => rfl
  | cons b bs ih =>
    have hb := b.toNat_lt
    simp only [natLE] at ih
    simp only [List.length_cons, natLE, List.foldr_cons, ofNatLE, Nat.add_mul_mod_self_left]
    rw [Nat.mod_eq_of_lt hb, UInt8.ofNat_toNat, Nat.add_mul_div_left _ _ (by decide), Nat.div_eq_of_lt hb,
      Nat.zero_add, ih]

theorem natLE_lt (bs : Bytes) : natLE bs < 256 ^ bs.length := by
  have h := natLE_ofNatLE bs.length (natLE bs)
  rw [ofNatLE_natLE] at h
  rw [h]
  exact Nat.mod_lt _ (Nat.pow_pos (by decide))

theorem natLE_take_four_lt (bs : Bytes) : natLE (bs.take 4) < 2 ^ 32 := by
  have hfour : (bs.take 4).length ≤ 4 := List.length_take_le ..
  exact Nat.lt_of_lt_of_le (natLE_lt _) (Nat.pow_le_pow_right (by decide) hfour)

theorem length_take_drop {bs : Bytes} {i n : Nat} (h : i + n ≤ bs.length) : ((bs.drop i).take n).length = n := by
  rw [List.length_take, List.length_drop]
  omega

/-- The bytes from a position on are `n` of them and those after. -/
theorem take_drop_append_drop (bs : Bytes) (i n : Nat) : (bs.drop i).take n ++ bs.drop (i + n) = bs.drop i := by
  rw [← List.drop_drop, List.take_append_drop]

theorem headD_drop_cons_drop {bs : Bytes} {i : Nat} (h : i < bs.length) :
    (bs.drop i).headD 0 :: bs.drop (i + 1) = bs.drop i := by
  rw [List.drop_eq_getElem_cons h]
  rfl

theorem padded_of_le {width : Nat} {bs : Bytes} (h : bs.length ≤ width) :
    padded width bs = bs ++ List.replicate (width - bs.length) 0 := by
  refine List.take_of_length_le ?_
  rw [List.length_append, List.length_replicate]
  omega

theorem natBE_eq (bs : Bytes) : natBE bs = natLE bs.reverse := by
  simp only [natBE, natLE, List.foldr_reverse, Nat.add_comm]

theorem natBE_concat (bs : Bytes) (b : UInt8) : natBE (bs ++ [b]) = 256 * natBE bs + b.toNat := by
  rw [natBE, List.foldl_append]
  rfl

theorem natBE_ofNatBE {width v : Nat} (h : v < 256 ^ width) : natBE (ofNatBE width v) = v := by
  rw [natBE_eq, ofNatBE, List.reverse_reverse, natLE_ofNatLE, Nat.mod_eq_of_lt h]

theorem ofNatBE_natBE (bs : Bytes) : ofNatBE bs.length (natBE bs) = bs := by
  have hread := ofNatLE_natLE bs.reverse
  rw [List.length_reverse] at hread
  rw [ofNatBE, natBE_eq, hread, List.reverse_reverse]

theorem natBE_lt (bs : Bytes) : natBE bs < 256 ^ bs.length := by
  rw [natBE_eq, ← List.length_reverse]
  exact natLE_lt _

/-- A full piece at the front is split off first. -/
theorem pieces_append {n : Nat} {bs : Bytes} (hn : n ≠ 0) (h : bs.length = n) (rest : Bytes) :
    pieces n (bs ++ rest) = bs :: pieces n rest := by
  have hsome : ¬(n = 0 ∨ bs ++ rest = []) := by
    rintro (h0 | hnil)
    · exact hn h0
    · rw [List.append_eq_nil_iff] at hnil
      rw [hnil.1] at h
      exact hn h.symm
  rw [pieces, if_neg hsome, List.take_left' h, List.drop_left' h]

theorem length_le_of_mem_pieces {n : Nat} {bs piece : Bytes} (h : piece ∈ pieces n bs) : piece.length ≤ bs.length := by
  fun_induction pieces n bs with
  | case1 => cases h
  | case2 bs _ ih =>
    rcases List.mem_cons.1 h with rfl | hlater
    · exact List.length_take_le' ..
    · exact Nat.le_trans (ih hlater) (by simp)

/-- A byte string of whole pieces has no shorter one at its end. -/
theorem length_of_mem_pieces {n : Nat} {bs piece : Bytes} (whole : bs.length % n = 0) (h : piece ∈ pieces n bs) :
    piece.length = n := by
  fun_induction pieces n bs with
  | case1 => cases h
  | case2 bs hsome ih =>
    have hpos : 0 < bs.length := List.length_pos_iff.2 fun hnil => hsome (.inr hnil)
    have hlong : n ≤ bs.length := Nat.le_of_dvd hpos (Nat.dvd_of_mod_eq_zero whole)
    rcases List.mem_cons.1 h with rfl | hlater
    · exact List.length_take_of_le hlong
    · refine ih ?_ hlater
      rw [List.length_drop, ← Nat.mod_eq_sub_mod hlong, whole]

theorem xor_xor_cancel_left {xs ys : Bytes} (h : ys.length ≤ xs.length) : xor xs (xor xs ys) = ys := by
  induction xs generalizing ys with
  | nil =>
    obtain rfl := List.length_eq_zero_iff.1 (Nat.le_zero.1 h)
    rfl
  | cons x xs ih =>
    cases ys with
    | nil => rfl
    | cons y ys =>
      have hrest : xor xs (xor xs ys) = ys := ih (Nat.le_of_succ_le_succ h)
      have hfirst : x ^^^ (x ^^^ y) = y := by rw [← UInt8.xor_assoc, UInt8.xor_self, UInt8.zero_xor]
      change (x ^^^ (x ^^^ y)) :: xor xs (xor xs ys) = y :: ys
      rw [hfirst, hrest]

theorem xor_comm (xs ys : Bytes) : xor xs ys = xor ys xs :=
  List.zipWith_comm_of_comm UInt8.xor_comm

theorem xor_xor_cancel_right {xs ys : Bytes} (h : xs.length ≤ ys.length) : xor (xor xs ys) ys = xs := by
  rw [xor_comm _ ys, xor_comm xs, xor_xor_cancel_left h]

end SealedPost.Bytes
