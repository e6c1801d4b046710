import SealedPost.Identity
import SealedPost.Proofs.Framing
import SealedPost.Proofs.Lines

/-! Byte strings and client ids in hexadecimal text are read back, and nothing is read but digits of either case. -/
namespace SealedPost

namespace Hex

private theorem digitValue?_hexDigit : ∀ n < 16,
    (String.utf8EncodeChar (Text.hexDigit n)).map digitValue? = [some n] := by
  decide +kernel

private theorem isBlank_hexDigit : ∀ n < 16, Text.isBlank (Text.hexDigit n) = false := by
  decide +kernel

def nibbles (bs : Bytes) : List (Option Nat) :=
  bs.flatMap fun b => [some (b.toNat / 16), some (b.toNat % 16)]

theorem length_nibbles (bs : Bytes) : (nibbles bs).length = 2 * bs.length := by
  rw [nibbles, List.length_flatMap]
  simp [Nat.mul_comm]

theorem map_digitValue?_encode_text (bs : Bytes) : (Utf8.encode (text bs)).map digitValue? = nibbles bs := by
  rw [text, Utf8.encode_ofList, nibbles]
  induction bs with
  | nil => rfl
  | cons b bs ih =>
    have hb := b.toNat_lt
    rw [List.flatMap_cons, List.flatMap_append, List.map_append, ih, List.flatMap_cons]
    simp [digitPair, digitValue?_hexDigit (b.toNat / 16) (by omega), digitValue?_hexDigit (b.toNat % 16) (by omega)]

theorem pairsFrom_of_nibbles {form bs : Bytes} (h : form.map digitValue? = nibbles bs) (position : Nat) :
    pairsFrom position form = .ok bs := by
  induction bs generalizing form position with
  | nil =>
    rw [List.map_eq_nil_iff.1 h]
    rfl
  | cons b bs ih =>
    rcases form with _ | ⟨high, _ | ⟨low, form⟩⟩
    · cases h
    · simp [nibbles] at h
    · simp only [nibbles, List.map_cons, List.flatMap_cons, List.cons_append, List.nil_append, List.cons.injEq] at h
      obtain ⟨hhigh, hlow, hrest⟩ := h
      have hb : 16 * (b.toNat / 16) + b.toNat % 16 = b.toNat := Nat.div_add_mod ..
      simp only [pairsFrom, digitAt, hhigh, hlow, ih hrest, bind, Except.bind, hb, UInt8.ofNat_toNat]
      rfl

/-- A byte string is read back from its own digits. -/
theorem decode_encode_text (bs : Bytes) : decode bs.length (Utf8.encode (text bs)) = .ok bs := by
  have hnibbles := map_digitValue?_encode_text bs
  have hlength : (Utf8.encode (text bs)).length = 2 * bs.length := by
    rw [← length_nibbles, ← hnibbles, List.length_map]
  rw [decode, if_neg (by omega), if_neg (by omega), pairsFrom_of_nibbles hnibbles]

theorem isBlank_of_mem_text {bs : Bytes} {c : Char} (h : c ∈ (text bs).toList) : Text.isBlank c = false := by
  rw [text, String.toList_ofList] at h
  obtain ⟨b, -, hc⟩ := List.mem_flatMap.1 h
  have hb := b.toNat_lt
  rcases List.mem_cons.1 hc with rfl | hc
  · exact isBlank_hexDigit _ (by omega)
  · obtain rfl := List.mem_singleton.1 hc
    exact isBlank_hexDigit _ (by omega)

theorem text_ne_empty {bs : Bytes} (h : bs ≠ []) : text bs ≠ "" := by
  intro hempty
  have hread := decode_encode_text bs
  rw [hempty] at hread
  cases bs with
  | nil => exact h rfl
  | cons b bs => cases hread

def IsDigit (c : Char) : Prop :=
  c.isDigit ∨ 'a' ≤ c ∧ c ≤ 'f' ∨ 'A' ≤ c ∧ c ≤ 'F'
deriving Decidable

private theorem digit_table : ∀ n < 128, ∀ b : UInt8, b = UInt8.ofNat n →
    String.utf8EncodeChar (Char.ofNat n) = [b] ∧ (IsDigit (Char.ofNat n) ↔ (digitValue? b).isSome) ∧
      ∀ v ∈ digitValue? b, v < 16 ∧ Text.hexDigit v = (Char.ofNat n).toLower := by
  simp only [forall_eq]
  decide +kernel

private theorem lt_of_isDigit {c : Char} (h : IsDigit c) : c.toNat < 128 := by
  have below (d : Char) (hd : d.toNat < 128) (hle : c ≤ d) : c.toNat < 128 := Nat.lt_of_le_of_lt hle hd
  simp only [IsDigit, Char.isDigit, Bool.and_eq_true, decide_eq_true_eq] at h
  rcases h with ⟨-, h⟩ | ⟨-, h⟩ | ⟨-, h⟩
  · exact below '9' (by decide) h
  · exact below 'f' (by decide) h
  · exact below 'F' (by decide) h

/-- A digit is one byte, worth a number whose own digit it is but for the case. -/
theorem IsDigit.value {c : Char} (h : IsDigit c) :
    ∃ v < 16, (String.utf8EncodeChar c).map digitValue? = [some v] ∧ Text.hexDigit v = c.toLower := by
  obtain ⟨hone, hsome, hvalue⟩ := digit_table c.toNat (lt_of_isDigit h) _ rfl
  rw [Char.ofNat_toNat] at hone hsome hvalue
  obtain ⟨v, hv⟩ := Option.isSome_iff_exists.1 (hsome.1 h)
  obtain ⟨hlt, hlower⟩ := hvalue v hv
  exact ⟨v, hlt, by rw [hone, List.map_singleton, hv], hlower⟩

theorem isDigit_of_digitValue? {b : UInt8} {v : Nat} (h : digitValue? b = some v) :
    v < 16 ∧ IsDigit (Char.ofNat b.toNat) ∧ String.utf8EncodeChar (Char.ofNat b.toNat) = [b] := by
  have hlt : b.toNat < 128 := by
    by_contra hge
    simp [digitValue?, UInt8.le_iff_toNat_le, show ¬b.toNat ≤ 57 by omega, show ¬b.toNat ≤ 70 by omega,
      show ¬b.toNat ≤ 102 by omega] at h
  obtain ⟨hone, hsome, hvalue⟩ := digit_table b.toNat hlt b UInt8.ofNat_toNat.symm
  exact ⟨(hvalue v h).1, hsome.2 (by rw [h, Option.isSome_some]), hone⟩

private theorem halves_ofNat {v w : Nat} (hv : v < 16) (hw : w < 16) :
    (UInt8.ofNat (16 * v + w)).toNat / 16 = v ∧ (UInt8.ofNat (16 * v + w)).toNat % 16 = w := by
  rw [Bytes.toNat_ofNat_of_lt (by omega)]
  omega

private theorem nibbles_cons {v w : Nat} (hv : v < 16) (hw : w < 16) (bs : Bytes) :
    nibbles (UInt8.ofNat (16 * v + w) :: bs) = some v :: some w :: nibbles bs := by
  obtain ⟨hhigh, hlow⟩ := halves_ofNat hv hw
  rw [nibbles, List.flatMap_cons, hhigh, hlow]
  rfl

/-- Pairs of digits stand for bytes whose own text is these digits in lower case. -/
theorem bytes_of_digits {n : Nat} {cs : List Char} (hlength : cs.length = 2 * n) (h : ∀ c ∈ cs, IsDigit c) :
    ∃ bs : Bytes, bs.length = n ∧ (cs.flatMap String.utf8EncodeChar).map digitValue? = nibbles bs ∧
      bs.flatMap digitPair = cs.map Char.toLower := by
  induction n generalizing cs with
  | zero =>
    obtain rfl := List.length_eq_zero_iff.1 hlength
    exact ⟨[], rfl, rfl, rfl⟩
  | succ n ih =>
    obtain ⟨c, d, cs, rfl⟩ : ∃ c d rest, cs = c :: d :: rest := by
      match cs, hlength with
      | c :: d :: rest, _ => exact ⟨c, d, rest, rfl⟩
    simp only [List.forall_mem_cons] at h
    obtain ⟨hc, hd, hrest⟩ := h
    obtain ⟨v, hv, hhigh, hvc⟩ := hc.value
    obtain ⟨w, hw, hlow, hwd⟩ := hd.value
    obtain ⟨bs, hbs, hnibbles, hlower⟩ := ih (by simpa [Nat.mul_succ] using hlength) hrest
    refine ⟨UInt8.ofNat (16 * v + w) :: bs, by rw [List.length_cons, hbs], ?_, ?_⟩
    · rw [nibbles_cons hv hw, ← hnibbles]
      simp [hhigh, hlow]
    · obtain ⟨hfirst, hsecond⟩ := halves_ofNat hv hw
      rw [List.flatMap_cons, digitPair, hfirst, hsecond, hlower, hvc, hwd]
      rfl

/-- What is read in pairs up to the end is worth what the bytes read are worth. -/
theorem nibbles_of_pairsFrom {position n : Nat} {form bs : Bytes} (even : form.length = 2 * n)
    (h : pairsFrom position form = .ok bs) : form.map digitValue? = nibbles bs := by
  induction n generalizing position form bs with
  | zero =>
    obtain rfl := List.length_eq_zero_iff.1 even
    obtain rfl := Except.ok.inj h
    rfl
  | succ n ih =>
    obtain ⟨high, low, rest, rfl⟩ : ∃ high low rest, form = high :: low :: rest := by
      match form, even with
      | high :: low :: rest, _ => exact ⟨high, low, rest, rfl⟩
    rw [pairsFrom, digitAt, digitAt] at h
    cases hhigh : digitValue? high with
    | none =>
      rw [hhigh] at h
      cases h
    | some v =>
      cases hlow : digitValue? low with
      | none =>
        rw [hhigh, hlow] at h
        cases h
      | some w =>
        cases hrest : pairsFrom (position + 2) rest with
        | error fault =>
          rw [hhigh, hlow, hrest] at h
          cases h
        | ok more =>
          rw [hhigh, hlow, hrest] at h
          obtain rfl := Except.ok.inj h
          have hmore := ih (by simpa [Nat.mul_succ] using even) hrest
          rw [nibbles_cons (isDigit_of_digitValue? hhigh).1 (isDigit_of_digitValue? hlow).1, ← hmore]
          rw [List.map_cons, List.map_cons, hhigh, hlow]

private theorem isSome_of_mem_nibbles {bs : Bytes} {v? : Option Nat} (h : v? ∈ nibbles bs) : ∃ v, v? = some v := by
  obtain ⟨b, -, hb⟩ := List.mem_flatMap.1 h
  simp only [List.mem_cons, List.not_mem_nil, or_false] at hb
  rcases hb with rfl | rfl
  · exact ⟨_, rfl⟩
  · exact ⟨_, rfl⟩

/-- Bytes that are worth something each are the text of as many digits. -/
theorem text_of_nibbles {form bs : Bytes} (h : form.map digitValue? = nibbles bs) :
    ∃ cs : List Char, cs.length = form.length ∧ (∀ c ∈ cs, IsDigit c) ∧ cs.flatMap String.utf8EncodeChar = form := by
  have worth : ∀ b ∈ form, ∃ v, digitValue? b = some v :=
    fun b hb => isSome_of_mem_nibbles (h ▸ List.mem_map_of_mem hb)
  refine ⟨form.map fun b => Char.ofNat b.toNat, List.length_map _, List.forall_mem_map.2 fun b hb => ?_, ?_⟩
  · obtain ⟨v, hv⟩ := worth b hb
    exact (isDigit_of_digitValue? hv).2.1
  · clear h
    induction form with
    | nil => rfl
    | cons b form ih =>
      obtain ⟨⟨v, hv⟩, hrest⟩ := List.forall_mem_cons.1 worth
      rw [List.map_cons, List.flatMap_cons, ih hrest, (isDigit_of_digitValue? hv).2.2]
      rfl

/-- A text of two digits for each byte is read, and as bytes whose text it is in lower case. -/
theorem decode_encode_of_digits {n : Nat} {t : String} (hlength : t.length = 2 * n) (h : ∀ c ∈ t.toList, IsDigit c) :
    ∃ bs, decode n (Utf8.encode t) = .ok bs ∧ bs.length = n ∧ text bs = t.toLower := by
  obtain ⟨bs, hbs, hnibbles, hlower⟩ := bytes_of_digits (by rw [String.length_toList, hlength]) h
  have hform : (Utf8.encode t).length = 2 * n := by
    rw [← hbs, ← length_nibbles, ← hnibbles, List.length_map, Utf8.encode]
  refine ⟨bs, ?_, hbs, ?_⟩
  · rw [decode, if_neg (by omega), if_neg (by omega)]
    exact pairsFrom_of_nibbles hnibbles 0
  · rw [text, hlower, ← String.toList_map, String.ofList_toList]
    rfl

/-- Nothing but digits is read, two for each byte. -/
theorem digits_of_decode {n : Nat} {t : String} {bs : Bytes} (h : decode n (Utf8.encode t) = .ok bs) :
    t.length = 2 * n ∧ ∀ c ∈ t.toList, IsDigit c := by
  rw [decode] at h
  split at h
  · cases h
  split at h
  · cases h
  next heven =>
  have hform : (Utf8.encode t).length = 2 * n := Decidable.not_not.1 heven
  obtain ⟨cs, hlength, hdigits, hcs⟩ := text_of_nibbles (nibbles_of_pairsFrom hform h)
  rw [← Utf8.encode_ofList] at hcs
  obtain rfl := Utf8.encode_injective hcs
  rw [← String.length_toList, String.toList_ofList, hlength, hform]
  exact ⟨rfl, hdigits⟩

end Hex

namespace ClientId

theorem ofText_eq_ok_iff {text : String} {id : ClientId} :
    ofText text = .ok id ↔ Hex.decode 16 (Utf8.encode (Text.trim text)) = .ok id.toBytes := by
  rw [ofText]
  constructor
  · intro h
    split at h
    · next bs hread =>
      obtain ⟨hlength, hdigits⟩ := Hex.digits_of_decode hread
      obtain ⟨bs', hread', hbs, -⟩ := Hex.decode_encode_of_digits hlength hdigits
      obtain rfl := Except.ok.inj (hread'.symm.trans hread)
      obtain rfl := Except.ok.inj h
      have hsame : (Block.fit 16 bs').toBytes = bs' := by
        rw [Block.toBytes_fit (by omega), List.take_of_length_le (by omega)]
      rw [hread, hsame]
    · cases h
  · intro h
    rw [h]
    exact congrArg Except.ok (congrArg mk (Block.fit_toBytes id.toBlock))

/-- An id is read back from its text. -/
theorem ofText_hex (id : ClientId) : ofText id.hex = .ok id := by
  have hplain : Text.trim id.hex = id.hex := Text.trim_of_plain fun _ => Hex.isBlank_of_mem_text
  have hread := Hex.decode_encode_text id.toBytes
  rw [id.length_toBytes] at hread
  rw [ofText_eq_ok_iff, hplain, hex, hread]

/-- An id is read from its text, through any white space around it. A text is read exactly if it is 32 digits of either
case apart from white space around it, and these digits in lower case are the text of the id that is read. Every other
text is refused as one that is no id. -/
theorem ids_read_from_their_digits :
    (∀ (id : ClientId) (u v : String), (∀ c ∈ u.toList, Text.isBlank c = true) →
      (∀ c ∈ v.toList, Text.isBlank c = true) → ofText (u ++ id.hex ++ v) = .ok id) ∧
    ∀ text : String,
      ((∃ id, ofText text = .ok id) ↔ (Text.trim text).length = 32 ∧ ∀ c ∈ (Text.trim text).toList, Hex.IsDigit c) ∧
      (∀ id, ofText text = .ok id → id.hex = (Text.trim text).toLower) ∧
      ((∃ fault, ofText text = .error (.config (.clientId text fault))) ↔
        ¬((Text.trim text).length = 32 ∧ ∀ c ∈ (Text.trim text).toList, Hex.IsDigit c)) := by
  refine ⟨fun id u v hu hv => ?_, fun text => ?_⟩
  · rw [ofText_eq_ok_iff, Text.trim_blanks_around hu hv]
    exact ofText_eq_ok_iff.1 (ofText_hex id)
  have hread : (∃ id, ofText text = .ok id) ↔
      (Text.trim text).length = 32 ∧ ∀ c ∈ (Text.trim text).toList, Hex.IsDigit c := by
    constructor
    · rintro ⟨id, h⟩
      exact Hex.digits_of_decode (ofText_eq_ok_iff.1 h)
    · rintro ⟨hlength, hdigits⟩
      obtain ⟨bs, h, -⟩ := Hex.decode_encode_of_digits (n := 16) hlength hdigits
      exact ⟨_, by rw [ofText, h]⟩
  refine ⟨hread, fun id h => ?_, ?_⟩
  · have h := ofText_eq_ok_iff.1 h
    obtain ⟨hlength, hdigits⟩ := Hex.digits_of_decode h
    obtain ⟨bs, hbs, -, hlower⟩ := Hex.decode_encode_of_digits hlength hdigits
    rw [h, Except.ok.injEq] at hbs
    rw [hex, hbs, hlower]
  · rw [← hread]
    constructor
    · rintro ⟨fault, hfault⟩ ⟨id, h⟩
      rw [h] at hfault
      cases hfault
    · intro other
      cases hcase : Hex.decode 16 (Utf8.encode (Text.trim text)) with
      | ok bs => exact absurd ⟨_, by rw [ofText, hcase]⟩ other
      | error fault => exact ⟨fault, by rw [ofText, hcase]⟩

/-- An id between wide spaces, digits of mixed case, and a text with a letter that is no digit. -/
theorem spaced_id_read :
    ofText "\u3000 abababababababababababababababab\u2029\r\n" = .ok (replicate 0xab) ∧
      (∃ id, ofText " 00112233445566778899AAbbCCddEEff" = .ok id ∧ id.hex = "00112233445566778899aabbccddeeff") ∧
      ∃ fault, ofText "zz112233445566778899aabbccddeeff" =
        .error (.config (.clientId "zz112233445566778899aabbccddeeff" fault)) := by
  obtain ⟨hback, hall⟩ := ids_read_from_their_digits
  have hbefore : "\u3000 ".toList.all Text.isBlank = true := by decide +kernel
  have hafter : "\u2029\r\n".toList.all Text.isBlank = true := by decide +kernel
  have hdigits : (Text.trim " 00112233445566778899AAbbCCddEEff").toList.all (Hex.IsDigit ·) = true := by decide +kernel
  obtain ⟨id, hid⟩ := (hall " 00112233445566778899AAbbCCddEEff").1.2
    ⟨by decide +kernel, fun c hc => of_decide_eq_true (List.all_eq_true.1 hdigits c hc)⟩
  have hletter : 'z' ∈ (Text.trim "zz112233445566778899aabbccddeeff").toList := by decide +kernel
  refine ⟨?_, ⟨id, hid, ((hall _).2.1 id hid).trans (by decide +kernel)⟩,
    (hall _).2.2.2 fun hread => absurd (hread.2 'z' hletter) (by decide)⟩
  exact hback (replicate 0xab) "\u3000 " "\u2029\r\n" (List.all_eq_true.1 hbefore) (List.all_eq_true.1 hafter)

end ClientId

end SealedPost
