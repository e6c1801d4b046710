import Mathlib.Data.List.TakeWhile
import SealedPost.Directory
import SealedPost.Proofs.Framing
import SealedPost.Proofs.Utf8

/-! Directory listings: records of one size back to back, the names that their fields keep, and the first record of a
name or of an id. -/
namespace SealedPost

namespace Bytes

theorem takeWhile_append_zeros (bs : Bytes) (k : Nat) :
    (bs ++ List.replicate k 0).takeWhile (· ≠ 0) = bs.takeWhile (· ≠ 0) := by
  induction bs with
  | nil => cases k <;> rfl
  | cons b bs ih =>
    rw [List.cons_append, List.takeWhile_cons, List.takeWhile_cons, ih]

end Bytes

namespace Utf8

private theorem ofNat_ne_zero {n : Nat} (hpos : 0 < n) (hbyte : n < 256) : UInt8.ofNat n ≠ 0 := by
  intro h
  have hn := congrArg UInt8.toNat h
  rw [UInt8.toNat_ofNat', Nat.mod_eq_of_lt hbyte] at hn
  exact Nat.ne_of_gt hpos hn

/-- Only NUL is written with a zero byte. -/
theorem ne_zero_of_mem_utf8EncodeChar {c : Char} (h : c ≠ '\x00') : ∀ b ∈ String.utf8EncodeChar c, b ≠ 0 := by
  have hpos : 0 < c.val.toNat := by
    refine Nat.pos_of_ne_zero fun h0 => h (Char.ext ?_)
    exact UInt32.toNat_inj.1 h0
  unfold String.utf8EncodeChar
  generalize c.val.toNat = v at hpos
  simp only
  split
  · simp only [List.mem_singleton, forall_eq]
    exact ofNat_ne_zero hpos (by omega)
  -- In the longer forms the marking bits alone keep every byte from being zero.
  split
  · simp only [List.forall_mem_cons]
    exact ⟨ofNat_ne_zero (by omega) (by omega), ofNat_ne_zero (by omega) (by omega), List.forall_mem_nil _⟩
  split
  · simp only [List.forall_mem_cons]
    exact ⟨ofNat_ne_zero (by omega) (by omega), ofNat_ne_zero (by omega) (by omega),
      ofNat_ne_zero (by omega) (by omega), List.forall_mem_nil _⟩
  · simp only [List.forall_mem_cons]
    exact ⟨ofNat_ne_zero (by omega) (by omega), ofNat_ne_zero (by omega) (by omega),
      ofNat_ne_zero (by omega) (by omega), ofNat_ne_zero (by omega) (by omega), List.forall_mem_nil _⟩

theorem ne_zero_of_mem_encode {s : String} (h : '\x00' ∉ s.toList) : ∀ b ∈ encode s, b ≠ 0 := by
  intro b hb
  obtain ⟨c, hc, hin⟩ := List.mem_flatMap.1 hb
  exact ne_zero_of_mem_utf8EncodeChar (fun hnul => h (hnul ▸ hc)) b hin

/-- Before its first zero byte a text has the characters before its first NUL. -/
theorem takeWhile_flatMap (cs : List Char) : (cs.flatMap String.utf8EncodeChar).takeWhile (· ≠ 0) =
    (cs.takeWhile (· ≠ '\x00')).flatMap String.utf8EncodeChar := by
  induction cs with
  | nil => rfl
  | cons c cs ih =>
    by_cases hnul : c = '\x00'
    · subst hnul
      rfl
    · have hplain : ∀ b ∈ String.utf8EncodeChar c, decide (b ≠ 0) = true :=
        fun b hb => decide_eq_true (ne_zero_of_mem_utf8EncodeChar hnul b hb)
      have hkept : decide (c ≠ '\x00') = true := decide_eq_true hnul
      rw [List.flatMap_cons, List.takeWhile_append_of_pos hplain, ih, List.takeWhile_cons, if_pos hkept,
        List.flatMap_cons]

end Utf8

namespace Peer

@[simp] theorem length_encode (p : Peer) : p.encode.length = recordSize := by
  simp [encode, recordSize, nameField, nameFieldSize, p.id.length_toBytes]

/-- What the field of a name keeps of it: of the first 254 bytes of its UTF-8 form those before the first zero, with
U+FFFD for what is no character any more. -/
def keptName (name : String) : String :=
  Utf8.decodeLossy (((Utf8.encode name).take 254).takeWhile (· ≠ 0))

/-- A name that fits its field and has no NUL is kept whole. -/
theorem keptName_of_fits {name : String} (short : (Utf8.encode name).length ≤ 254) (plain : '\x00' ∉ name.toList) :
    keptName name = name := by
  have hnonzero : ∀ b ∈ Utf8.encode name, decide (b ≠ 0) = true :=
    fun b hb => decide_eq_true (Utf8.ne_zero_of_mem_encode plain b hb)
  rw [keptName, List.take_of_length_le short, List.takeWhile_eq_self_iff.2 hnonzero, Utf8.decodeLossy_encode]

/-- A record is read back but for what its name loses. -/
theorem ofRecord_encode (p : Peer) : ofRecord p.encode = { p with name := keptName p.name } := by
  have hid : Block.fit 16 p.encode = p.id.toBlock := Block.fit_append ..
  have hfield : p.encode.drop 16 = nameField p.name := List.drop_left' p.id.length_toBytes
  rw [ofRecord, hid, hfield, nameField_eq, Bytes.takeWhile_append_zeros]
  rfl

/-- At this place of a list stands a client that is wanted, and at no place before it another one. -/
structure First (wanted : Peer → Prop) (peers : List Peer) (place : Nat) (p : Peer) : Prop where
  stands : peers[place]? = some p
  fits : wanted p
  first : ∀ earlier q, earlier < place → peers[earlier]? = some q → ¬wanted q

abbrev FirstNamed (name : String) : List Peer → Nat → Peer → Prop :=
  First (·.name = name)

abbrev FirstWithId (id : ClientId) : List Peer → Nat → Peer → Prop :=
  First (·.id = id)

/-- What is found in a list stands at its first place of this kind. -/
theorem find?_eq_some_iff {wanted : Peer → Prop} [DecidablePred wanted] {peers : List Peer} {p : Peer} :
    peers.find? (fun q => wanted q) = some p ↔ ∃ place, First wanted peers place p := by
  rw [List.find?_eq_some_iff_getElem]
  constructor
  · rintro ⟨fits, place, inside, rfl, first⟩
    refine ⟨place, List.getElem?_eq_getElem inside, of_decide_eq_true fits, fun earlier q before stands => ?_⟩
    obtain ⟨_, rfl⟩ := List.getElem?_eq_some_iff.1 stands
    simpa using first earlier before
  · rintro ⟨place, stands, fits, first⟩
    obtain ⟨inside, hplace⟩ := List.getElem?_eq_some_iff.1 stands
    refine ⟨decide_eq_true fits, place, inside, hplace, fun earlier before => ?_⟩
    simpa using first earlier _ before (List.getElem?_eq_getElem (Nat.lt_trans before inside))

end Peer

namespace Directory

section lookup

variable {d : Directory} {name : String} {id : ClientId}

theorem find?_eq_some_iff {p : Peer} : d.find? name = some p ↔ ∃ place, Peer.FirstNamed name d.peers place p :=
  Peer.find?_eq_some_iff

theorem find?_eq_none_iff : d.find? name = none ↔ ∀ p ∈ d.peers, p.name ≠ name := by
  simp [find?]

/-- An id goes by the name that its first record has. -/
theorem nameOf?_eq_some_iff :
    d.nameOf? id = some name ↔ ∃ place p, Peer.FirstWithId id d.peers place p ∧ p.name = name := by
  rw [nameOf?, Option.map_eq_some_iff]
  constructor
  · rintro ⟨p, found, named⟩
    obtain ⟨place, hfirst⟩ := Peer.find?_eq_some_iff.1 found
    exact ⟨place, p, hfirst, named⟩
  · rintro ⟨place, p, hfirst, named⟩
    exact ⟨p, Peer.find?_eq_some_iff.2 ⟨place, hfirst⟩, named⟩

theorem nameOf?_eq_none_iff : d.nameOf? id = none ↔ ∀ p ∈ d.peers, p.id ≠ id := by
  simp [nameOf?]

end lookup

theorem parsePeers_append {record : Bytes} (h : record.length = Peer.recordSize) (rest : Bytes) :
    parsePeers (record ++ rest) = Peer.ofRecord record :: parsePeers rest := by
  rw [parsePeers, Bytes.pieces_append (by decide) h, List.filter_cons, if_pos (decide_eq_true h), List.map_cons]
  rfl

theorem parsePeers_of_short {rest : Bytes} (h : rest.length < Peer.recordSize) : parsePeers rest = [] := by
  rw [parsePeers, List.map_eq_nil_iff, List.filter_eq_nil_iff]
  intro piece hpiece
  have hlength := Bytes.length_le_of_mem_pieces hpiece
  simp only [decide_eq_true_eq]
  omega

/-- Records are read back in order, and a rest that is no record is left out. -/
theorem parsePeers_flatMap_encode_append (rs : List Peer) {rest : Bytes} (h : rest.length < Peer.recordSize) :
    parsePeers (rs.flatMap Peer.encode ++ rest) = rs.map fun p => { p with name := Peer.keptName p.name } := by
  induction rs with
  | nil => exact parsePeers_of_short h
  | cons p rs ih =>
    rw [List.flatMap_cons, List.append_assoc, parsePeers_append p.length_encode, ih, Peer.ofRecord_encode,
      List.map_cons]

/-- The records of a payload, each read from its own 271 bytes. -/
theorem parsePeers_eq (payload : Bytes) : parsePeers payload =
    (List.range (payload.length / 271)).map fun i => Peer.ofRecord ((payload.drop (271 * i)).take 271) := by
  induction hn : payload.length / 271 generalizing payload with
  | zero => exact parsePeers_of_short (Nat.lt_of_div_eq_zero (by decide) hn)
  | succ n ih =>
    have hlong : 271 ≤ payload.length := by omega
    have hrest : (payload.drop 271).length / 271 = n := by
      rw [List.length_drop]
      omega
    have hread : parsePeers (payload.take 271 ++ payload.drop 271) = _ :=
      parsePeers_append (List.length_take_of_le hlong) (payload.drop 271)
    rw [List.take_append_drop, ih _ hrest] at hread
    rw [hread, List.range_succ_eq_map, List.map_cons, List.map_map]
    congr 1
    refine List.map_congr_left fun i _ => ?_
    rw [Function.comp, List.drop_drop, Nat.mul_succ, Nat.add_comm]

theorem parsePeers_encode_append_of_fits {rs : List Peer} {rest : Bytes} (h : rest.length < Peer.recordSize)
    (fits : ∀ p ∈ rs, (Utf8.encode p.name).length ≤ 254 ∧ '\x00' ∉ p.name.toList) :
    parsePeers (rs.flatMap Peer.encode ++ rest) = rs := by
  rw [parsePeers_flatMap_encode_append rs h]
  refine (List.map_congr_left fun p hp => ?_).trans (List.map_id _)
  rw [Peer.keptName_of_fits (fits p hp).1 (fits p hp).2]
  rfl

/-- A listing is read back record by record, in order and with its duplicates, whatever is left over after it: ids as
they are, names as far as their fields keep them. A client registers with the same field that its record in a listing
has. Of arbitrary bytes each whole record is read, from its own bytes alone. -/
theorem listings_read_back :
    (∀ (rs : List Peer) (rest : Bytes), rest.length < 271 →
      parsePeers (rs.flatMap Peer.encode ++ rest) = (rs.map fun p => ⟨p.id, Peer.keptName p.name⟩) ∧
      ((∀ p ∈ rs, (Utf8.encode p.name).length ≤ 254 ∧ '\x00' ∉ p.name.toList) →
        parsePeers (rs.flatMap Peer.encode ++ rest) = rs)) ∧
    (∀ (name : String) (key : PublicKey) (id : ClientId), ∃ field : Bytes, field.length = 255 ∧
      field = (Utf8.encode name).take 254 ++ List.replicate (255 - min 254 (Utf8.encode name).length) 0 ∧
      Peer.encode ⟨id, name⟩ = id.toBytes ++ field ∧
      (Request.register name key).payload = field ++ key.toBytes) ∧
    ∀ payload : Bytes, (parsePeers payload).length = payload.length / 271 ∧
      ∀ i < payload.length / 271,
        (parsePeers payload)[i]? = some (Peer.ofRecord ((payload.drop (271 * i)).take 271)) := by
  refine ⟨fun rs rest short => ⟨parsePeers_flatMap_encode_append rs short,
    parsePeers_encode_append_of_fits short⟩, fun name key id => ?_, fun payload => ⟨?_, fun i hi => ?_⟩⟩
  · exact ⟨nameField name, Bytes.length_padded .., nameField_eq name, rfl, rfl⟩
  · rw [parsePeers_eq, List.length_map, List.length_range]
  · rw [parsePeers_eq, List.getElem?_map, List.getElem?_range hi, Option.map_some]

theorem cut_name_read_with_replacement :
    let long := String.ofList (List.replicate 253 'a' ++ ['é', 'b'])
    let read := String.ofList (List.replicate 253 'a' ++ ['\uFFFD'])
    let rs : List Peer := [⟨.replicate 1, long⟩, ⟨.replicate 1, "A\x00B"⟩, ⟨.replicate 1, "A\x00B"⟩]
    let rest : Bytes := List.replicate 270 65
    rest.length < 271 ∧ parsePeers (rs.flatMap Peer.encode ++ rest) =
      [⟨.replicate 1, read⟩, ⟨.replicate 1, "A"⟩, ⟨.replicate 1, "A"⟩] := by
  intro long read rs rest
  have short : rest.length < 271 := List.length_replicate.trans_lt (by decide)
  have hlong : Peer.keptName long = read := by
    rw [Peer.keptName, Utf8.encode, String.toList_ofList]
    exact congrArg String.ofList (by decide +kernel)
  have hnul : Peer.keptName "A\x00B" = "A" := by decide +kernel
  refine ⟨short, (listings_read_back.1 rs rest short).1.trans ?_⟩
  rw [List.map_cons, List.map_cons, List.map_cons, List.map_nil, hlong, hnul]

end Directory

end SealedPost
