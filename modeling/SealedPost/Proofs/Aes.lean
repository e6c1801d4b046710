import SealedPost.Cipher.Aes

/-! The rounds of AES are undone by their inverses, in either order, under every key. -/
namespace SealedPost.Aes

/-- A fact about all bytes, from their numbers. -/
private theorem forall_byte {P : UInt8 → Prop} (h : ∀ n < 256, P (UInt8.ofNat n)) (b : UInt8) : P b := by
  have hb := h b.toNat b.toNat_lt
  rwa [UInt8.ofNat_toNat] at hb

/-- Two tables undo each other if the second holds, at the places that the first one names, the numbers in order. -/
private theorem getD_getD {xs ys : Array UInt8} (hsize : xs.size = 256)
    (h : xs.toList.map (fun b => ys.toList[b.toNat]?) = (List.range 256).map fun n => some (UInt8.ofNat n))
    (b : UInt8) : ys.getD (xs.getD b.toNat 0).toNat 0 = b := by
  have hb : b.toNat < xs.size := hsize ▸ b.toNat_lt
  have hplace := congrArg (·[b.toNat]?) h
  simp only [List.getElem?_map, Array.getElem?_toList, Array.getElem?_eq_getElem hb, Option.map_some,
    List.getElem?_range b.toNat_lt, UInt8.ofNat_toNat, Option.some.injEq] at hplace
  simp only [Array.getD_eq_getD_getElem?, Array.getElem?_eq_getElem hb, Option.getD_some, hplace]

private theorem size_tables : sboxTable.size = 256 ∧ inverseSboxTable.size = 256 := by decide +kernel

private theorem inverse_in_order :
    sboxTable.toList.map (fun b => inverseSboxTable.toList[b.toNat]?) =
      (List.range 256).map fun n => some (UInt8.ofNat n) := by
  decide +kernel

private theorem substituted_in_order :
    inverseSboxTable.toList.map (fun b => sboxTable.toList[b.toNat]?) =
      (List.range 256).map fun n => some (UInt8.ofNat n) := by
  decide +kernel

theorem inverseSbox_sbox (b : UInt8) : inverseSbox (sbox b) = b :=
  getD_getD size_tables.1 inverse_in_order b

theorem sbox_inverseSbox (b : UInt8) : sbox (inverseSbox b) = b :=
  getD_getD size_tables.2 substituted_in_order b

section field

variable (a b : UInt8)

private theorem double_eq : ∀ b, double b = b <<< 1 ^^^ (if b.toBitVec.msb then 0x1B else 0) :=
  forall_byte (by decide +kernel)

/-- Doubling is additive: what it does beyond the shift hangs on the highest bit alone. -/
theorem double_xor : double (a ^^^ b) = double a ^^^ double b := by
  have hhigh : (if (a ^^^ b).toBitVec.msb then 0x1B else 0 : UInt8) =
      (if a.toBitVec.msb then 0x1B else 0) ^^^ (if b.toBitVec.msb then 0x1B else 0) := by
    rw [UInt8.toBitVec_xor, BitVec.msb_xor]
    cases a.toBitVec.msb <;> cases b.toBitVec.msb <;> rfl
  rw [double_eq, double_eq a, double_eq b, hhigh, UInt8.shiftLeft_xor]
  ac_rfl

theorem triple_xor : triple (a ^^^ b) = triple a ^^^ triple b := by
  simp only [triple, double_xor]
  ac_rfl

theorem times9_xor : times9 (a ^^^ b) = times9 a ^^^ times9 b := by
  simp only [times9, double_xor]
  ac_rfl

theorem times11_xor : times11 (a ^^^ b) = times11 a ^^^ times11 b := by
  simp only [times11, double_xor]
  ac_rfl

theorem times13_xor : times13 (a ^^^ b) = times13 a ^^^ times13 b := by
  simp only [times13, double_xor]
  ac_rfl

theorem times14_xor : times14 (a ^^^ b) = times14 a ^^^ times14 b := by
  simp only [times14, double_xor]
  ac_rfl

end field

namespace Column

variable {f : Column → Column}

theorem map_map_cancel {f g : UInt8 → UInt8} (h : ∀ b, g (f b) = b) (c : Column) : (c.map f).map g = c := by
  obtain ⟨b0, b1, b2, b3⟩ := c
  simp only [map, h]

theorem xor_xor_cancel (c d : Column) : (c.xor d).xor d = c := by
  obtain ⟨b0, b1, b2, b3⟩ := c
  simp only [xor, UInt8.xor_assoc, UInt8.xor_self, UInt8.xor_zero]

/-- A map of columns that goes with rotation fixes every column if it fixes the byte on top. -/
theorem eq_self_of_rotate (hrotate : ∀ c, f c.rotate = (f c).rotate) (htop : ∀ c, (f c).b0 = c.b0) (c : Column) :
    f c = c := by
  have h1 : (f c).b1 = c.b1 := by
    have h := htop c.rotate
    rwa [hrotate] at h
  have h2 : (f c).b2 = c.b2 := by
    have h := htop c.rotate.rotate
    rwa [hrotate, hrotate] at h
  have h3 : (f c).b3 = c.b3 := by
    have h := htop c.rotate.rotate.rotate
    rwa [hrotate, hrotate, hrotate] at h
  generalize hd : f c = d at h1 h2 h3
  have h0 : d.b0 = c.b0 := hd ▸ htop c
  cases d
  cases c
  simp only at h0 h1 h2 h3
  rw [h0, h1, h2, h3]

end Column

theorem mixColumn_rotate (c : Column) : mixColumn c.rotate = (mixColumn c).rotate := by
  simp only [mixColumn, Column.rotate, Column.mk.injEq]
  refine ⟨?_, ?_, ?_, ?_⟩ <;> ac_rfl

theorem unmixColumn_rotate (c : Column) : unmixColumn c.rotate = (unmixColumn c).rotate := by
  simp only [unmixColumn, Column.rotate, Column.mk.injEq]
  refine ⟨?_, ?_, ?_, ?_⟩ <;> ac_rfl

section product

variable (a b c : UInt8)

private theorem xor_left_comm : a ^^^ (b ^^^ c) = b ^^^ (a ^^^ c) := by
  rw [← UInt8.xor_assoc, UInt8.xor_comm a, UInt8.xor_assoc]

private theorem xor_cancel_left : a ^^^ (a ^^^ b) = b := by
  rw [← UInt8.xor_assoc, UInt8.xor_self, UInt8.zero_xor]

/-- The first row of the product of the two matrices: one on the diagonal and zero beside it. The entries are sums of
doublings of one byte, in which everything else stands twice. -/
private theorem unmix_mix_row :
    times14 (double b) ^^^ times11 b ^^^ times13 b ^^^ times9 (triple b) = b ∧
    times14 (triple b) ^^^ times11 (double b) ^^^ times13 b ^^^ times9 b = 0 ∧
    times14 b ^^^ times11 (triple b) ^^^ times13 (double b) ^^^ times9 b = 0 ∧
    times14 b ^^^ times11 b ^^^ times13 (triple b) ^^^ times9 (double b) = 0 := by
  simp only [times9, times11, times13, times14, triple, double_xor, UInt8.xor_assoc, UInt8.xor_comm, xor_left_comm,
    xor_cancel_left, UInt8.xor_self, UInt8.xor_zero, and_self]

private theorem mix_unmix_row :
    double (times14 b) ^^^ triple (times9 b) ^^^ times13 b ^^^ times11 b = b ∧
    double (times11 b) ^^^ triple (times14 b) ^^^ times9 b ^^^ times13 b = 0 ∧
    double (times13 b) ^^^ triple (times11 b) ^^^ times14 b ^^^ times9 b = 0 ∧
    double (times9 b) ^^^ triple (times13 b) ^^^ times11 b ^^^ times14 b = 0 := by
  simp only [times9, times11, times13, times14, triple, double_xor, UInt8.xor_assoc, UInt8.xor_comm, xor_left_comm,
    xor_cancel_left, UInt8.xor_self, UInt8.xor_zero, and_self]

end product

/-- The two matrices of the column mixing are inverse to each other, one product of a byte at a time. -/
theorem unmixColumn_mixColumn (c : Column) : unmixColumn (mixColumn c) = c := by
  refine Column.eq_self_of_rotate (f := fun c => unmixColumn (mixColumn c))
    (fun c => by rw [mixColumn_rotate, unmixColumn_rotate]) (fun c => ?_) c
  calc (unmixColumn (mixColumn c)).b0
    _ = (times14 (double c.b0) ^^^ times11 c.b0 ^^^ times13 c.b0 ^^^ times9 (triple c.b0)) ^^^
        (times14 (triple c.b1) ^^^ times11 (double c.b1) ^^^ times13 c.b1 ^^^ times9 c.b1) ^^^
        (times14 c.b2 ^^^ times11 (triple c.b2) ^^^ times13 (double c.b2) ^^^ times9 c.b2) ^^^
        (times14 c.b3 ^^^ times11 c.b3 ^^^ times13 (triple c.b3) ^^^ times9 (double c.b3)) := by
      simp only [unmixColumn, mixColumn, times9_xor, times11_xor, times13_xor, times14_xor]
      ac_rfl
    _ = c.b0 := by
      rw [(unmix_mix_row _).1, (unmix_mix_row _).2.1, (unmix_mix_row _).2.2.1, (unmix_mix_row _).2.2.2]
      simp only [UInt8.xor_zero]

theorem mixColumn_unmixColumn (c : Column) : mixColumn (unmixColumn c) = c := by
  refine Column.eq_self_of_rotate (f := fun c => mixColumn (unmixColumn c))
    (fun c => by rw [unmixColumn_rotate, mixColumn_rotate]) (fun c => ?_) c
  calc (mixColumn (unmixColumn c)).b0
    _ = (double (times14 c.b0) ^^^ triple (times9 c.b0) ^^^ times13 c.b0 ^^^ times11 c.b0) ^^^
        (double (times11 c.b1) ^^^ triple (times14 c.b1) ^^^ times9 c.b1 ^^^ times13 c.b1) ^^^
        (double (times13 c.b2) ^^^ triple (times11 c.b2) ^^^ times14 c.b2 ^^^ times9 c.b2) ^^^
        (double (times9 c.b3) ^^^ triple (times13 c.b3) ^^^ times11 c.b3 ^^^ times14 c.b3) := by
      simp only [unmixColumn, mixColumn, double_xor, triple_xor]
      ac_rfl
    _ = c.b0 := by
      rw [(mix_unmix_row _).1, (mix_unmix_row _).2.1, (mix_unmix_row _).2.2.1, (mix_unmix_row _).2.2.2]
      simp only [UInt8.xor_zero]

namespace State

variable (s t : State)

theorem map_map_cancel {f g : Column → Column} (h : ∀ c, g (f c) = c) : (s.map f).map g = s := by
  obtain ⟨c0, c1, c2, c3⟩ := s
  simp only [map, h]

theorem xor_xor_cancel : (s.xor t).xor t = s := by
  obtain ⟨c0, c1, c2, c3⟩ := s
  simp only [xor, Column.xor_xor_cancel]

theorem unshiftRows_shiftRows : s.shiftRows.unshiftRows = s := rfl

theorem shiftRows_unshiftRows : s.unshiftRows.shiftRows = s := rfl

theorem unsubstitute_substitute : (s.map (·.map sbox)).map (·.map inverseSbox) = s :=
  map_map_cancel s (Column.map_map_cancel inverseSbox_sbox)

theorem substitute_unsubstitute : (s.map (·.map inverseSbox)).map (·.map sbox) = s :=
  map_map_cancel s (Column.map_map_cancel sbox_inverseSbox)

end State

section rounds

variable (key next s : State) (keys : List State)

private theorem backward_single : backward [key] s = ((s.xor key).unshiftRows).map (·.map inverseSbox) := rfl

private theorem backward_cons : backward (key :: next :: keys) s =
    ((((backward (next :: keys) s).xor key).map unmixColumn).unshiftRows).map (·.map inverseSbox) := rfl

private theorem forward_cons : forward (key :: next :: keys) s =
    forward (next :: keys) ((((s.map (·.map sbox)).shiftRows).map mixColumn).xor key) := rfl

/-- The rounds are undone from the last one back. -/
theorem backward_forward : backward keys (forward keys s) = s := by
  induction keys generalizing s with
  | nil => rfl
  | cons key keys ih =>
    cases keys with
    | nil =>
      rw [forward, backward_single, State.xor_xor_cancel, State.unshiftRows_shiftRows, State.unsubstitute_substitute]
    | cons next keys =>
      rw [forward_cons, backward_cons, ih, State.xor_xor_cancel, State.map_map_cancel _ unmixColumn_mixColumn,
        State.unshiftRows_shiftRows, State.unsubstitute_substitute]

theorem forward_backward : forward keys (backward keys s) = s := by
  induction keys with
  | nil => rfl
  | cons key keys ih =>
    cases keys with
    | nil =>
      rw [forward, backward_single, State.substitute_unsubstitute, State.shiftRows_unshiftRows, State.xor_xor_cancel]
    | cons next keys =>
      rw [forward_cons, backward_cons, State.substitute_unsubstitute,
        State.shiftRows_unshiftRows, State.map_map_cancel _ mixColumn_unmixColumn, State.xor_xor_cancel, ih]

end rounds

theorem decryptState_encryptState (key s : State) : decryptState key (encryptState key s) = s := by
  rw [decryptState, encryptState, backward_forward, State.xor_xor_cancel]

theorem encryptState_decryptState (key s : State) : encryptState key (decryptState key s) = s := by
  rw [encryptState, decryptState, State.xor_xor_cancel, forward_backward]

private theorem Column.toBytes_ofBytes {bs : Bytes} (h : 4 ≤ bs.length) : (Column.ofBytes bs).toBytes = bs.take 4 := by
  rcases bs with _ | ⟨b0, _ | ⟨b1, _ | ⟨b2, _ | ⟨b3, bs⟩⟩⟩⟩
  · cases h
  · simp at h
  · simp at h
  · simp at h
  · rfl

/-- The columns hold all bytes of a block. -/
theorem State.toBytes_ofBytes {block : Bytes} (h : block.length = 16) : (State.ofBytes block).toBytes = block := by
  have hlong (n : Nat) (hn : n ≤ 12) : 4 ≤ (block.drop n).length := by
    rw [List.length_drop]
    omega
  have h0 : (Column.ofBytes block).toBytes = block.take 4 := Column.toBytes_ofBytes (by omega)
  have h4 : (Column.ofBytes (block.drop 4)).toBytes = (block.drop 4).take 4 :=
    Column.toBytes_ofBytes (hlong 4 (by omega))
  have h8 : (Column.ofBytes (block.drop 8)).toBytes = (block.drop 8).take 4 :=
    Column.toBytes_ofBytes (hlong 8 (by omega))
  have h12 : (Column.ofBytes (block.drop 12)).toBytes = block.drop 12 := by
    rw [Column.toBytes_ofBytes (hlong 12 (by omega))]
    exact List.take_of_length_le (by rw [List.length_drop]; omega)
  have hstep (n : Nat) : (block.drop n).take 4 ++ block.drop (n + 4) = block.drop n := by
    rw [← List.drop_drop, List.take_append_drop]
  rw [State.toBytes, State.ofBytes, h0, h4, h8, h12, List.append_assoc, List.append_assoc, hstep 8, hstep 4,
    List.take_append_drop]

theorem State.ofBytes_toBytes (s : State) : State.ofBytes s.toBytes = s := rfl

@[simp] theorem length_encryptBlock (key block : Bytes) : (encryptBlock key block).length = 16 := rfl

@[simp] theorem length_decryptBlock (key block : Bytes) : (decryptBlock key block).length = 16 := rfl

/-- A block is decrypted to itself, whatever the length of the key. -/
theorem decryptBlock_encryptBlock (key : Bytes) {block : Bytes} (h : block.length = 16) :
    decryptBlock key (encryptBlock key block) = block := by
  rw [decryptBlock, encryptBlock, State.ofBytes_toBytes, decryptState_encryptState, State.toBytes_ofBytes h]

theorem encryptBlock_decryptBlock (key : Bytes) {block : Bytes} (h : block.length = 16) :
    encryptBlock key (decryptBlock key block) = block := by
  rw [encryptBlock, decryptBlock, State.ofBytes_toBytes, encryptState_decryptState, State.toBytes_ofBytes h]

end SealedPost.Aes
