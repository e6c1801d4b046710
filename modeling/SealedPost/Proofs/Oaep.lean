import SealedPost.Cipher.Oaep
import SealedPost.Proofs.Bytes

/-! Unpadding undoes padding, whatever the seed. -/
namespace SealedPost.Oaep

variable {k : Nat} {seed message padded : Bytes}

@[simp] theorem length_mask (seed : Bytes) (n : Nat) : (mask seed n).length = n := by
  have htotal : ((List.range ((n + Sha1.size - 1) / Sha1.size)).flatMap fun i =>
      Sha1.hash (seed ++ Bytes.ofNatBE 4 i)).length = (n + Sha1.size - 1) / Sha1.size * Sha1.size := by
    simp only [List.length_flatMap, Sha1.length_hash, List.map_const', List.sum_replicate_nat, List.length_range]
  have henough : n ≤ (n + Sha1.size - 1) / Sha1.size * Sha1.size := by
    unfold Sha1.size
    omega
  rw [mask, List.length_take, htotal, Nat.min_eq_left henough]

theorem length_labelHash : labelHash.length = Sha1.size :=
  Sha1.length_hash []

theorem afterOne_replicate (n : Nat) (message : Bytes) :
    afterOne (List.replicate n 0 ++ 1 :: message) = some message := by
  induction n with
  | zero => rfl
  | succ n ih => rw [List.replicate_succ, List.cons_append, afterOne, if_pos rfl, ih]

private def block (k : Nat) (message : Bytes) : Bytes :=
  labelHash ++ List.replicate (k - message.length - overhead) 0 ++ 1 :: message

private def masked (seed block : Bytes) : Bytes :=
  let maskedBlock := Bytes.xor block (mask seed block.length)
  0 :: Bytes.xor seed (mask maskedBlock Sha1.size) ++ maskedBlock

private theorem length_block (fits : message.length + overhead ≤ k) :
    (block k message).length + Sha1.size + 1 = k := by
  unfold overhead at fits
  simp only [block, overhead, List.length_append, List.length_cons, List.length_replicate, length_labelHash]
  omega

private theorem length_masked (hseed : seed.length = Sha1.size) (block : Bytes) :
    (masked seed block).length = block.length + Sha1.size + 1 := by
  simp only [masked, List.length_append, List.length_cons, Bytes.length_xor, length_mask, hseed, Nat.min_self]
  omega

private theorem pad_of_fits (fits : message.length + overhead ≤ k) :
    pad k seed message = some (masked seed (block k message)) :=
  if_pos fits

private theorem pad_of_long (long : ¬message.length + overhead ≤ k) : pad k seed message = none :=
  if_neg long

theorem pad_eq_some_iff :
    pad k seed message = some padded ↔
      message.length + overhead ≤ k ∧ masked seed (block k message) = padded := by
  by_cases fits : message.length + overhead ≤ k
  · rw [pad_of_fits fits, Option.some_inj]
    exact (and_iff_right fits).symm
  · rw [pad_of_long fits]
    exact ⟨fun h => (nomatch h), fun h => absurd h.1 fits⟩

/-- Both masks come off in the reverse order. -/
private theorem unpad_masked (hseed : seed.length = Sha1.size) {block : Bytes} (hblock : Sha1.size < block.length) :
    unpad (masked seed block) =
      if block.take Sha1.size = labelHash then afterOne (block.drop Sha1.size) else none := by
  let maskedBlock := Bytes.xor block (mask seed block.length)
  let maskedSeed := Bytes.xor seed (mask maskedBlock Sha1.size)
  have hb : maskedBlock.length = block.length := by
    rw [Bytes.length_xor, length_mask, Nat.min_self]
  have hs : maskedSeed.length = Sha1.size := by
    rw [Bytes.length_xor, length_mask, hseed, Nat.min_self]
  have hseedBack : Bytes.xor maskedSeed (mask maskedBlock Sha1.size) = seed := by
    apply Bytes.xor_xor_cancel_right
    exact Nat.le_of_eq (hseed.trans (length_mask ..).symm)
  have hblockBack : Bytes.xor maskedBlock (mask seed maskedBlock.length) = block := by
    rw [hb]
    apply Bytes.xor_xor_cancel_right
    exact Nat.le_of_eq (length_mask ..).symm
  have hdrop : (masked seed block).drop (1 + Sha1.size) = maskedBlock := by
    refine List.drop_left' ?_
    rw [List.length_cons, hs, Nat.add_comm]
  have htake : ((masked seed block).drop 1).take Sha1.size = maskedSeed := List.take_left' hs
  have hlong : ¬(masked seed block).length < overhead := by
    rw [length_masked hseed, overhead]
    omega
  have hhead : (masked seed block).headD 1 = 0 := rfl
  rw [unpad, if_neg hlong, htake, hdrop]
  simp only [hhead, hseedBack, hblockBack, true_and]

/-- The two masks come off in turn, and the message stands behind the one. -/
theorem unpad_pad (hseed : seed.length = Sha1.size) (h : pad k seed message = some padded) :
    unpad padded = some message := by
  obtain ⟨fits, rfl⟩ := pad_eq_some_iff.1 h
  have hlength := length_block fits
  have hlong : Sha1.size < (block k message).length := by
    unfold overhead at fits
    omega
  rw [unpad_masked hseed hlong, block, List.append_assoc, List.take_left' length_labelHash,
    List.drop_left' length_labelHash, if_pos rfl, afterOne_replicate]

theorem length_of_pad (hseed : seed.length = Sha1.size) (h : pad k seed message = some padded) : padded.length = k := by
  obtain ⟨fits, rfl⟩ := pad_eq_some_iff.1 h
  rw [length_masked hseed, length_block fits]

theorem eq_zero_cons_of_pad (h : pad k seed message = some padded) : ∃ rest, padded = 0 :: rest := by
  obtain ⟨-, rfl⟩ := pad_eq_some_iff.1 h
  exact ⟨_, List.cons_append⟩

end SealedPost.Oaep
