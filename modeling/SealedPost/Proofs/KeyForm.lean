import SealedPost.Cipher.KeyForm
import SealedPost.Proofs.Der

/-! The 160-byte field of a public key holds its encoded form and zeros. It is read back as the key, by its first bytes
alone. -/
namespace SealedPost.Rsa.Public

variable {key : Public} {bs : Bytes} {wire : PublicKey}

private def numbers (key : Public) : Bytes :=
  Der.unsigned key.modulus ++ Der.unsigned key.exponent

private def field (key : Public) : Bytes :=
  Der.element 0x03 (0 :: Der.element 0x30 key.numbers)

private theorem info_eq (key : Public) : key.info = Der.element 0x30 (algorithm ++ key.field) := rfl

/-- Only usable keys in their one written form are read. -/
theorem info_of_ofInfo? (h : ofInfo? bs = some key) : key.IsUsable ∧ bs = key.info := by
  simp only [ofInfo?, Option.bind_eq_bind, Option.bind_eq_some_iff] at h
  obtain ⟨body, hbody, field, hfield, bits, hbits, inner, hinner, pair, hpair, hkey⟩ := h
  split at hkey
  · next modulus exponent hnumbers =>
    split at hkey
    · next usable =>
      obtain rfl := Option.some.inj hkey
      refine ⟨usable, ?_⟩
      obtain ⟨-, rfl⟩ := Der.whole?_eq_some_iff.1 hbody
      obtain rfl := Bytes.after?_eq_some_iff.1 hfield
      obtain ⟨-, rfl⟩ := Der.whole?_eq_some_iff.1 hbits
      obtain rfl := Bytes.after?_eq_some_iff.1 hinner
      obtain ⟨-, rfl⟩ := Der.whole?_eq_some_iff.1 hpair
      obtain ⟨-, -, rfl⟩ := Der.unsignedList?_eq_some_iff.1 hnumbers
      simp only [info, List.flatMap_cons, List.flatMap_nil, List.append_nil, List.singleton_append]
    · cases hkey
  · cases hkey

theorem ofInfo?_info (usable : key.IsUsable) (short : key.info.length < 2 ^ 32) : ofInfo? key.info = some key := by
  have hbody := Der.length_le_element 0x30 (algorithm ++ key.field)
  have hfield := Der.length_le_element 0x03 (0 :: Der.element 0x30 key.numbers)
  have hnumbers := Der.length_le_element 0x30 key.numbers
  have hmodulus := Der.length_unsignedBody_le key.modulus
  have hexponent := Der.length_unsignedBody_le key.exponent
  have hpair : key.numbers.length = (Der.unsigned key.modulus).length + (Der.unsigned key.exponent).length :=
    List.length_append
  rw [← info_eq, List.length_append] at hbody
  rw [← field, List.length_cons] at hfield
  have hwhole : Der.whole? 0x30 key.info = some (algorithm ++ key.field) :=
    Der.whole?_eq_some_iff.2 ⟨by rw [List.length_append]; omega, rfl⟩
  have halgorithm : Bytes.after? algorithm (algorithm ++ key.field) = some key.field :=
    Bytes.after?_eq_some_iff.2 rfl
  have hbits : Der.whole? 0x03 key.field = some (0 :: Der.element 0x30 key.numbers) :=
    Der.whole?_eq_some_iff.2 ⟨by rw [List.length_cons]; omega, rfl⟩
  have hinner : Bytes.after? [0] (0 :: Der.element 0x30 key.numbers) = some (Der.element 0x30 key.numbers) :=
    Bytes.after?_eq_some_iff.2 rfl
  have hsequence : Der.whole? 0x30 (Der.element 0x30 key.numbers) = some key.numbers :=
    Der.whole?_eq_some_iff.2 ⟨by omega, rfl⟩
  have hread : Der.unsignedList? 2 key.numbers = some ([key.modulus, key.exponent], []) := by
    refine Der.unsignedList?_eq_some_iff.2 ⟨rfl, ?_, ?_⟩
    · simp only [List.forall_mem_cons]
      exact ⟨by omega, by omega, List.forall_mem_nil _⟩
    · simp only [numbers, List.flatMap_cons, List.flatMap_nil, List.append_nil]
  simp only [ofInfo?, Option.bind_eq_bind, hwhole, halgorithm, hbits, hinner, hsequence, hread, Option.bind_some]
  exact if_pos usable

theorem announcedLength?_info (short : key.info.length ≤ 160) (rest : Bytes) :
    Der.announcedLength? (key.info ++ rest) = some key.info.length := by
  have hbody := Der.length_le_element 0x30 (algorithm ++ key.field)
  rw [← info_eq] at hbody
  have hshort : (algorithm ++ key.field).length < 2 ^ 16 := by omega
  exact Der.announcedLength?_element hshort rest

/-- A field is read as a key exactly if it starts with the encoded form of the key. -/
theorem ofWire_eq_ok_iff :
    ofWire wire = .ok key ↔ key.IsUsable ∧ key.info.length ≤ 160 ∧ key.info <+: wire.toBytes := by
  constructor
  · intro h
    unfold ofWire at h
    split at h
    · cases h
    · next n _ =>
      split at h
      · cases h
      · next hfits =>
        split at h
        · next read hread =>
          obtain rfl := Except.ok.inj h
          obtain ⟨usable, hinfo⟩ := info_of_ofInfo? hread
          refine ⟨usable, ?_, hinfo ▸ List.take_prefix ..⟩
          rw [← hinfo]
          exact Nat.le_trans (List.length_take_le ..) (Nat.not_lt.1 hfits)
        · cases h
  · rintro ⟨usable, short, rest, hwire⟩
    have hlength := announcedLength?_info short rest
    have hread := ofInfo?_info usable (by omega)
    rw [hwire] at hlength
    rw [ofWire, hlength]
    simp only [if_neg (Nat.not_lt.2 short)]
    rw [← hwire, List.take_left, hread]

theorem toWire_of_short (short : key.info.length ≤ 160) : key.toWire = .ok ⟨Block.fit 160 key.info⟩ :=
  if_pos short

theorem toWire_of_long (long : 160 < key.info.length) :
    key.toWire = .error (.invalidPublicKey 160 key.info.length) :=
  if_neg (Nat.not_le.2 long)

theorem toBytes_fit_info (short : key.info.length ≤ 160) :
    (Block.fit 160 key.info).toBytes = key.info ++ List.replicate (160 - key.info.length) 0 :=
  Bytes.padded_of_le short

/-- A key is read back from its field, whatever zeros fill it up. -/
theorem ofWire_toWire (usable : key.IsUsable) (h : key.toWire = .ok wire) : ofWire wire = .ok key := by
  by_cases short : key.info.length ≤ 160
  · rw [toWire_of_short short] at h
    obtain rfl := Except.ok.inj h
    exact ofWire_eq_ok_iff.2 ⟨usable, short, _, (toBytes_fit_info short).symm⟩
  · rw [toWire_of_long (Nat.not_le.1 short)] at h
    cases h

/-- A usable key has a field exactly if its encoded form fits there, and is read back from it. Whatever field is read as
a key starts with the encoded form of the key, as long as its header tells; these bytes alone decide, and the field that
the key is written to has zeros after them. -/
theorem wire_form_is_key_and_zeros :
    (∀ key : Public, key.IsUsable →
      ((∃ wire, key.toWire = .ok wire) ↔ key.info.length ≤ 160) ∧
      (160 < key.info.length → key.toWire = .error (.invalidPublicKey 160 key.info.length)) ∧
      ∀ wire, key.toWire = .ok wire → ofWire wire = .ok key) ∧
    ∀ wire key, ofWire wire = .ok key →
      ∃ n ≤ 160, Der.announcedLength? wire.toBytes = some n ∧
        (∀ other : PublicKey, other.toBytes.take n = wire.toBytes.take n → ofWire other = .ok key) ∧
        ∃ again, key.toWire = .ok again ∧ again.toBytes = wire.toBytes.take n ++ List.replicate (160 - n) 0 := by
  refine ⟨fun key usable => ⟨⟨?_, fun short => ⟨_, toWire_of_short short⟩⟩, toWire_of_long, fun wire =>
    ofWire_toWire usable⟩, fun wire key h => ?_⟩
  · rintro ⟨wire, h⟩
    refine Nat.le_of_not_lt fun long => ?_
    rw [toWire_of_long long] at h
    cases h
  · obtain ⟨usable, short, rest, hwire⟩ := ofWire_eq_ok_iff.1 h
    have hlength := announcedLength?_info short rest
    have htake : wire.toBytes.take key.info.length = key.info := by rw [← hwire, List.take_left]
    rw [hwire] at hlength
    refine ⟨key.info.length, short, hlength, fun other hsame => ?_, _, toWire_of_short short, ?_⟩
    · rw [htake] at hsame
      exact ofWire_eq_ok_iff.2 ⟨usable, short, hsame ▸ List.take_prefix ..⟩
    · rw [htake]
      exact toBytes_fit_info short

/-- The key with modulus 15 and exponent 3 takes 29 bytes of its field. With other bytes after them the field is still
read as the key, and written anew it has zeros there. -/
theorem key_of_fifteen_read_from_field :
    let key : Public := ⟨15, 3⟩
    let field : PublicKey := ⟨Block.fit 160 (key.info ++ List.replicate 131 7)⟩
    ofWire field = .ok key ∧
      (∃ wire, key.toWire = .ok wire ∧ ofWire wire = .ok key) ∧
      ∃ n ≤ 160, ∃ again, key.toWire = .ok again ∧
        again.toBytes = field.toBytes.take n ++ List.replicate (160 - n) 0 := by
  intro key field
  have usable : key.IsUsable := by decide
  have short : key.info.length ≤ 160 := by decide +kernel
  have hread : ofWire field = .ok key := ofWire_eq_ok_iff.2 ⟨usable, short, by decide +kernel⟩
  obtain ⟨hfits, -, hback⟩ := wire_form_is_key_and_zeros.1 key usable
  obtain ⟨wire, hwire⟩ := hfits.2 short
  obtain ⟨n, hn, -, -, hagain⟩ := wire_form_is_key_and_zeros.2 field key hread
  exact ⟨hread, ⟨wire, hwire, hback wire hwire⟩, n, hn, hagain⟩

end SealedPost.Rsa.Public
