import SealedPost.Cipher.Standard
import SealedPost.Proofs.Aes
import SealedPost.Proofs.Bytes

/-! Content encryption is one to one: what is encrypted decrypts to itself, and a byte string that decrypts at all is
the encryption of what it decrypts to. -/
namespace SealedPost

namespace Cbc

/-- The second function undoes the first on blocks of sixteen bytes. -/
def Undoes (f g : Bytes → Bytes) : Prop :=
  ∀ block, block.length = 16 → (f block).length = 16 ∧ g (f block) = block

def Whole (blocks : List Bytes) : Prop :=
  ∀ block ∈ blocks, block.length = 16

theorem undoes_encryptBlock (key : Bytes) : Undoes (Aes.encryptBlock key) (Aes.decryptBlock key) :=
  fun block h => ⟨Aes.length_encryptBlock key block, Aes.decryptBlock_encryptBlock key h⟩

theorem undoes_decryptBlock (key : Bytes) : Undoes (Aes.decryptBlock key) (Aes.encryptBlock key) :=
  fun block h => ⟨Aes.length_decryptBlock key block, Aes.encryptBlock_decryptBlock key h⟩

theorem length_zeroVector : zeroVector.length = 16 := rfl

theorem whole_pieces {bs : Bytes} (h : bs.length % 16 = 0) : Whole (Bytes.pieces 16 bs) :=
  fun _ => Bytes.length_of_mem_pieces h

section chain

variable {encrypt decrypt : Bytes → Bytes} {vector : Bytes} {blocks : List Bytes}

private theorem length_xor_eq {xs ys : Bytes} (hx : xs.length = 16) (hy : ys.length = 16) :
    (Bytes.xor xs ys).length = 16 := by
  rw [Bytes.length_xor, hx, hy, Nat.min_self]

theorem length_chain (h : Undoes encrypt decrypt) (hvector : vector.length = 16) (whole : Whole blocks) :
    (chain encrypt vector blocks).length = blocks.flatten.length := by
  induction blocks generalizing vector with
  | nil => rfl
  | cons block blocks ih =>
    obtain ⟨hblock, hblocks⟩ := List.forall_mem_cons.1 whole
    obtain ⟨hsealed, -⟩ := h _ (length_xor_eq hvector hblock)
    rw [chain, List.length_append, ih hsealed hblocks, hsealed, List.flatten_cons, List.length_append, hblock]

/-- By induction on the blocks; each ciphertext block is the vector of the next. -/
theorem unchain_chain (h : Undoes encrypt decrypt) (hvector : vector.length = 16) (whole : Whole blocks) :
    unchain decrypt vector (Bytes.pieces 16 (chain encrypt vector blocks)) = blocks.flatten := by
  induction blocks generalizing vector with
  | nil => simp [chain, Bytes.pieces, unchain]
  | cons block blocks ih =>
    obtain ⟨hblock, hblocks⟩ := List.forall_mem_cons.1 whole
    obtain ⟨hsealed, hopened⟩ := h _ (length_xor_eq hvector hblock)
    have hback : Bytes.xor vector (Bytes.xor vector block) = block :=
      Bytes.xor_xor_cancel_left (Nat.le_of_eq (hblock.trans hvector.symm))
    rw [chain, Bytes.pieces_append (by decide) hsealed, unchain, hopened, hback, ih hsealed hblocks,
      List.flatten_cons]

theorem chain_unchain (h : Undoes decrypt encrypt) (hvector : vector.length = 16) (whole : Whole blocks) :
    chain encrypt vector (Bytes.pieces 16 (unchain decrypt vector blocks)) = blocks.flatten := by
  induction blocks generalizing vector with
  | nil => simp [chain, Bytes.pieces, unchain]
  | cons block blocks ih =>
    obtain ⟨hblock, hblocks⟩ := List.forall_mem_cons.1 whole
    obtain ⟨hopened, hsealed⟩ := h _ hblock
    have hback : Bytes.xor vector (Bytes.xor vector (decrypt block)) = decrypt block :=
      Bytes.xor_xor_cancel_left (Nat.le_of_eq (hopened.trans hvector.symm))
    rw [unchain, Bytes.pieces_append (by decide) (length_xor_eq hvector hopened), chain, hback, hsealed,
      ih hblock hblocks, List.flatten_cons]

theorem length_unchain (h : Undoes decrypt encrypt) (hvector : vector.length = 16) (whole : Whole blocks) :
    (unchain decrypt vector blocks).length = blocks.flatten.length := by
  induction blocks generalizing vector with
  | nil => rfl
  | cons block blocks ih =>
    obtain ⟨hblock, hblocks⟩ := List.forall_mem_cons.1 whole
    obtain ⟨hopened, -⟩ := h _ hblock
    rw [unchain, List.length_append, ih hblock hblocks, length_xor_eq hvector hopened, List.flatten_cons,
      List.length_append, hblock]

theorem unchain_concat (blocks : List Bytes) (last : Bytes) :
    unchain decrypt vector (blocks ++ [last]) =
      unchain decrypt vector blocks ++ Bytes.xor (blocks.getLastD vector) (decrypt last) := by
  induction blocks generalizing vector with
  | nil => simp [unchain]
  | cons block blocks ih => rw [List.cons_append, unchain, ih, unchain, List.append_assoc, List.getLastD_cons]

end chain

section padding

variable {bs plaintext : Bytes}

/-- How many bytes of padding go with a content. -/
private theorem padding_eq (length : Nat) :
    ∃ n, 1 ≤ n ∧ n ≤ 16 ∧ (length + n) % 16 = 0 ∧ padding length = List.replicate n (UInt8.ofNat n) :=
  ⟨16 - length % 16, by omega, by omega, by omega, rfl⟩

theorem length_padded (plaintext : Bytes) :
    (plaintext ++ padding plaintext.length).length = 16 * (plaintext.length / 16 + 1) := by
  rw [List.length_append, padding, List.length_replicate]
  omega

/-- A byte string loses its padding to a plaintext exactly if it is the plaintext and padding after it. -/
theorem dropPadding_eq_some_iff :
    dropPadding bs = some plaintext ↔
      ∃ n, 1 ≤ n ∧ n ≤ 16 ∧ bs = plaintext ++ List.replicate n (UInt8.ofNat n) := by
  constructor
  · intro h
    unfold dropPadding at h
    simp only at h
    split at h
    · next hpad =>
      obtain ⟨hpos, hmost, -, hdrop⟩ := hpad
      refine ⟨_, hpos, hmost, ?_⟩
      rw [← hdrop, ← Option.some.inj h, List.take_append_drop]
    · cases h
  · rintro ⟨n, hpos, hmost, rfl⟩
    obtain ⟨k, rfl⟩ : ∃ k, n = k + 1 := ⟨n - 1, by omega⟩
    have hlast : ((plaintext ++ List.replicate (k + 1) (UInt8.ofNat (k + 1))).getLastD 0).toNat = k + 1 := by
      rw [List.replicate_succ', ← List.append_assoc, List.getLastD_concat,
        Bytes.toNat_ofNat_of_lt (by omega)]
    have hkept : (plaintext ++ List.replicate (k + 1) (UInt8.ofNat (k + 1))).length - (k + 1) = plaintext.length := by
      rw [List.length_append, List.length_replicate, Nat.add_sub_cancel]
    unfold dropPadding
    simp only [hlast, hkept, List.drop_left, List.take_left]
    refine if_pos ⟨hpos, hmost, ?_, trivial⟩
    rw [List.length_append, List.length_replicate]
    exact Nat.le_add_left ..

/-- Padding is recognised by its last byte and taken off. -/
theorem dropPadding_append_padding (plaintext : Bytes) :
    dropPadding (plaintext ++ padding plaintext.length) = some plaintext := by
  obtain ⟨n, hpos, hmost, -, hpad⟩ := padding_eq plaintext.length
  exact dropPadding_eq_some_iff.2 ⟨n, hpos, hmost, by rw [hpad]⟩

/-- In whole blocks there is one padding only. -/
theorem eq_of_dropPadding (whole : bs.length % 16 = 0) (h : dropPadding bs = some plaintext) :
    bs = plaintext ++ padding plaintext.length := by
  obtain ⟨n, hpos, hmost, rfl⟩ := dropPadding_eq_some_iff.1 h
  have hn : n = 16 - plaintext.length % 16 := by
    rw [List.length_append, List.length_replicate] at whole
    omega
  rw [padding, hn]

/-- A block ends in padding: `n` bytes `n`, from one to sixteen. -/
def EndsInPadding (block : Bytes) : Prop :=
  ∃ n, 1 ≤ n ∧ n ≤ 16 ∧ List.replicate n (UInt8.ofNat n) <:+ block

/-- Whether there is padding to drop shows in the last block. -/
theorem dropPadding_isSome_iff (front : Bytes) {block : Bytes} (h : block.length = 16) :
    (dropPadding (front ++ block)).isSome ↔ EndsInPadding block := by
  rw [Option.isSome_iff_exists]
  constructor
  · rintro ⟨plaintext, hsome⟩
    obtain ⟨n, hpos, hmost, heq⟩ := dropPadding_eq_some_iff.1 hsome
    refine ⟨n, hpos, hmost, List.suffix_of_suffix_length_le ⟨plaintext, heq.symm⟩ (List.suffix_append ..) ?_⟩
    rw [List.length_replicate, h]
    exact hmost
  · rintro ⟨n, hpos, hmost, kept, rfl⟩
    exact ⟨front ++ kept, dropPadding_eq_some_iff.2 ⟨n, hpos, hmost, (List.append_assoc ..).symm⟩⟩

end padding

variable (key : Bytes)

theorem length_encrypt (plaintext : Bytes) : (encrypt key plaintext).length = 16 * (plaintext.length / 16 + 1) := by
  have hpadded := length_padded plaintext
  have whole : Whole (Bytes.pieces 16 (plaintext ++ padding plaintext.length)) := whole_pieces (by omega)
  rw [encrypt, length_chain (undoes_encryptBlock key) length_zeroVector whole,
    Bytes.flatten_pieces _ _ (by decide), hpadded]

/-- A byte string of whole blocks, one at least, decrypts to what stands before its padding. -/
theorem decrypt_of_whole {ciphertext : Bytes} (hne : ciphertext ≠ []) (whole : ciphertext.length % 16 = 0) :
    decrypt key ciphertext =
      dropPadding (unchain (Aes.decryptBlock key) zeroVector (Bytes.pieces 16 ciphertext)) :=
  if_neg fun h => h.elim hne (· whole)

/-- What was encrypted is decrypted. -/
theorem decrypt_encrypt (plaintext : Bytes) : decrypt key (encrypt key plaintext) = some plaintext := by
  have hlength := length_encrypt key plaintext
  have hpadded := length_padded plaintext
  have hne : encrypt key plaintext ≠ [] := by
    rw [← List.length_pos_iff]
    omega
  have whole : Whole (Bytes.pieces 16 (plaintext ++ padding plaintext.length)) := whole_pieces (by omega)
  rw [decrypt_of_whole key hne (by omega), encrypt,
    unchain_chain (undoes_encryptBlock key) length_zeroVector whole, Bytes.flatten_pieces _ _ (by decide),
    dropPadding_append_padding]

/-- Only what was encrypted is decrypted: no two ciphertexts have one plaintext. -/
theorem encrypt_of_decrypt {ciphertext plaintext : Bytes} (h : decrypt key ciphertext = some plaintext) :
    encrypt key plaintext = ciphertext := by
  unfold decrypt at h
  split at h
  · cases h
  · next hblocks =>
    obtain ⟨-, hlength⟩ := not_or.1 hblocks
    have whole := whole_pieces (Decidable.not_not.1 hlength)
    have hopened := length_unchain (undoes_decryptBlock key) length_zeroVector whole
    rw [Bytes.flatten_pieces _ _ (by decide)] at hopened
    have hpadded := eq_of_dropPadding (by omega) h
    rw [encrypt, ← hpadded, chain_unchain (undoes_decryptBlock key) length_zeroVector whole,
      Bytes.flatten_pieces _ _ (by decide)]

def lastOpened (key ciphertext : Bytes) : Bytes :=
  let blocks := Bytes.pieces 16 ciphertext
  Bytes.xor (blocks.dropLast.getLastD zeroVector) (Aes.decryptBlock key (blocks.getLastD []))

/-- Decryption fails exactly if there are no whole blocks or the last one does not end in padding. -/
theorem decrypt_eq_none_iff (ciphertext : Bytes) :
    decrypt key ciphertext = none ↔
      ciphertext = [] ∨ ciphertext.length % 16 ≠ 0 ∨ ¬EndsInPadding (lastOpened key ciphertext) := by
  by_cases hempty : ciphertext = []
  · exact iff_of_true (if_pos (.inl hempty)) (.inl hempty)
  by_cases hlength : ciphertext.length % 16 = 0
  · have hflat := Bytes.flatten_pieces 16 ciphertext (by decide)
    have whole := whole_pieces hlength
    rw [decrypt_of_whole key hempty hlength, lastOpened]
    rcases List.eq_nil_or_concat (Bytes.pieces 16 ciphertext) with hnil | ⟨blocks, last, hblocks⟩
    · rw [hnil] at hflat
      exact absurd hflat.symm hempty
    · rw [List.concat_eq_append] at hblocks
      have hbefore : (blocks.getLastD zeroVector).length = 16 := by
        rcases List.eq_nil_or_concat blocks with rfl | ⟨before, block, rfl⟩
        · rfl
        · rw [List.concat_eq_append, List.getLastD_concat]
          exact whole block (by simp [hblocks])
      have hlast := length_xor_eq hbefore (Aes.length_decryptBlock key last)
      rw [hblocks, unchain_concat, List.dropLast_concat, List.getLastD_concat, ← dropPadding_isSome_iff _ hlast,
        Option.not_isSome_iff_eq_none]
      exact ⟨fun h => .inr (.inr h), fun h => (h.resolve_left hempty).resolve_left (not_not_intro hlength)⟩
  · exact iff_of_true (if_pos (.inr hlength)) (.inr (.inl hlength))

end Cbc

namespace Standard

variable (key : SymmetricKey)

theorem decrypt_eq_ok_iff (ciphertext plaintext : Bytes) :
    decrypt key ciphertext = .ok plaintext ↔ Cbc.decrypt key.toBytes ciphertext = some plaintext := by
  rw [decrypt]
  cases Cbc.decrypt key.toBytes ciphertext with
  | none => exact ⟨fun h => (nomatch h), fun h => (nomatch h)⟩
  | some opened => exact ⟨fun h => congrArg some (Except.ok.inj h), fun h => congrArg Except.ok (Option.some.inj h)⟩

theorem decrypt_eq_error_iff (ciphertext : Bytes) :
    decrypt key ciphertext = .error (.decryption .aes) ↔ Cbc.decrypt key.toBytes ciphertext = none := by
  rw [decrypt]
  cases Cbc.decrypt key.toBytes ciphertext with
  | none => exact iff_of_true rfl rfl
  | some opened => exact ⟨fun h => (nomatch h), fun h => (nomatch h)⟩

/-- Encryption under a key is one to one between the contents and the byte strings that decrypt. All others are refused:
those that are no whole blocks, and those whose last block does not end in padding. -/
theorem contents_match_ciphertexts :
    (∀ plaintext, (encrypt key plaintext).length = 16 * (plaintext.length / 16 + 1) ∧
      decrypt key (encrypt key plaintext) = .ok plaintext) ∧
    ∀ ciphertext,
      ((∃ plaintext, decrypt key ciphertext = .ok plaintext ∧ encrypt key plaintext = ciphertext) ∨
        decrypt key ciphertext = .error (.decryption .aes)) ∧
      (decrypt key ciphertext = .error (.decryption .aes) ↔
        ciphertext = [] ∨ ciphertext.length % 16 ≠ 0 ∨
          ¬Cbc.EndsInPadding (Cbc.lastOpened key.toBytes ciphertext)) := by
  refine ⟨fun plaintext => ⟨Cbc.length_encrypt .., ?_⟩, fun ciphertext => ⟨?_, ?_⟩⟩
  · rw [decrypt_eq_ok_iff]
    exact Cbc.decrypt_encrypt key.toBytes plaintext
  · cases hopened : Cbc.decrypt key.toBytes ciphertext with
    | none => exact .inr ((decrypt_eq_error_iff ..).2 hopened)
    | some plaintext =>
      exact .inl ⟨plaintext, (decrypt_eq_ok_iff ..).2 hopened, Cbc.encrypt_of_decrypt key.toBytes hopened⟩
  · rw [decrypt_eq_error_iff, Cbc.decrypt_eq_none_iff]

end Standard

end SealedPost
