import SealedPost.Proofs.Listings

/-! What the field of a name keeps of a name: its characters from the front, and a replacement for the one that the
field cuts. -/
namespace SealedPost

namespace Peer

/-- The field of a name ends inside the character `c`: those before it are in it whole, and there is no NUL among
them. -/
structure CutInside (name : String) (before : List Char) (c : Char) : Prop where
  follows : before ++ [c] <+: name.toList
  plain : '\x00' ∉ before
  starts : (Utf8.encode (String.ofList before)).length < 254
  ends : 254 < (Utf8.encode (String.ofList (before ++ [c]))).length

theorem CutInside.ne_nul {name : String} {before : List Char} {c : Char} (h : CutInside name before c) :
    c ≠ '\x00' := by
  rintro rfl
  have hstarts := h.starts
  have hends := h.ends
  rw [Utf8.encode_ofList, List.flatMap_append, List.length_append, ← Utf8.encode_ofList] at hends
  exact absurd hends (Nat.not_lt.2 hstarts)

/-- A name whose last character does not fit any more. -/
theorem CutInside.last {before : List Char} {c : Char} (plain : '\x00' ∉ before)
    (starts : (before.flatMap String.utf8EncodeChar).length < 254)
    (ends : 254 < ((before ++ [c]).flatMap String.utf8EncodeChar).length) :
    CutInside (String.ofList (before ++ [c])) before c where
  follows := ⟨[], by rw [String.toList_ofList, List.append_nil]⟩
  plain := plain
  starts := by rwa [Utf8.encode_ofList]
  ends := by rwa [Utf8.encode_ofList]

/-- What is kept of a name comes from the first 254 bytes of the text before its first NUL. -/
theorem keptName_eq (name : String) : keptName name =
    Utf8.decodeLossy (((name.toList.takeWhile (· ≠ '\x00')).flatMap String.utf8EncodeChar).take 254) := by
  rw [keptName, ← List.take_takeWhile, Utf8.encode, Utf8.takeWhile_flatMap]

section cut

variable {name : String} {before : List Char} {c : Char}

/-- Of a character that is cut nothing is kept but a replacement character. -/
theorem keptName_of_cut (h : CutInside name before c) : keptName name = String.ofList (before ++ ['\uFFFD']) := by
  obtain ⟨more, hname⟩ := h.follows
  have hplain : ∀ d ∈ before ++ [c], decide (d ≠ '\x00') = true := by
    intro d hd
    rcases List.mem_append.1 hd with hbefore | hlast
    · exact decide_eq_true fun hnul => h.plain (hnul ▸ hbefore)
    · exact decide_eq_true (List.mem_singleton.1 hlast ▸ h.ne_nul)
  have hstarts := h.starts
  have hends := h.ends
  rw [Utf8.encode_ofList] at hstarts hends
  rw [keptName_eq, ← hname, List.takeWhile_append_of_pos hplain, List.append_assoc, List.singleton_append,
    Utf8.decodeLossy, Utf8.scan_take_flatMap hstarts hends]
  simp [Function.comp_def]

/-- A name is kept up to a character that is cut, or else as the bytes of its field are. -/
theorem keptName_cut_or_whole (name : String) :
    (∃ before c, CutInside name before c ∧ keptName name = String.ofList (before ++ ['\uFFFD'])) ∨
      ∃ kept, keptName name = String.ofList kept ∧ kept <+: name.toList ∧ '\x00' ∉ kept ∧
        Utf8.encode (String.ofList kept) = ((Utf8.encode name).take 254).takeWhile (· ≠ 0) := by
  obtain ⟨kept, rest, hplain, hfits, hcut⟩ := Utf8.take_flatMap (name.toList.takeWhile (· ≠ '\x00')) 254
  have hfront : kept <+: name.toList.takeWhile (· ≠ '\x00') := ⟨rest, hplain.symm⟩
  have hnul : '\x00' ∉ kept := fun hin => by simpa using List.mem_takeWhile_imp (hfront.subset hin)
  rcases hcut with htake | ⟨c, more, rfl, hstarts, hends⟩
  · refine .inr ⟨kept, ?_, hfront.trans (List.takeWhile_prefix _), hnul, ?_⟩
    · rw [keptName_eq, htake, ← Utf8.encode_ofList, Utf8.decodeLossy_encode]
    · rw [Utf8.encode_ofList, ← htake, ← Utf8.takeWhile_flatMap, List.take_takeWhile, Utf8.encode]
  · have hnext : kept ++ [c] <+: name.toList.takeWhile (· ≠ '\x00') := ⟨more, by rw [hplain]; simp⟩
    have hinside : CutInside name kept c :=
      ⟨hnext.trans (List.takeWhile_prefix _), hnul, by rwa [Utf8.encode_ofList], by rwa [Utf8.encode_ofList]⟩
    exact .inl ⟨kept, c, hinside, keptName_of_cut hinside⟩

private theorem length_keptField_le (name : String) :
    (((Utf8.encode name).take 254).takeWhile (· ≠ 0)).length ≤ 254 :=
  (List.takeWhile_prefix _).length_le.trans (List.length_take_le ..)

/-- What is kept of a name is a prefix of it, unless a character is cut that does not look like its replacement. -/
theorem keptName_prefix_iff (name : String) :
    (keptName name).toList <+: name.toList ↔ ∀ before c, CutInside name before c → c = '\uFFFD' := by
  constructor
  · intro hkept before c hcut
    rw [keptName_of_cut hcut, String.toList_ofList] at hkept
    have hsame : before ++ [c] = before ++ ['\uFFFD'] :=
      (List.prefix_of_prefix_length_le hcut.follows hkept (by simp)).eq_of_length (by simp)
    simpa using hsame
  · intro looks
    rcases keptName_cut_or_whole name with ⟨before, c, hcut, hkept⟩ | ⟨kept, hkept, hfollows, -⟩
    · rw [hkept, String.toList_ofList, ← looks before c hcut]
      exact hcut.follows
    · rw [hkept, String.toList_ofList]
      exact hfollows

/-- What was kept of a name is kept once more as it is, a replacement character at its end included. -/
theorem keptName_keptName (name : String) : keptName (keptName name) = keptName name := by
  rcases keptName_cut_or_whole name with ⟨before, c, hcut, hkept⟩ | ⟨kept, hkept, -, hnul, hfield⟩
  · rw [hkept]
    by_cases hfits : (Utf8.encode (String.ofList (before ++ ['\uFFFD']))).length ≤ 254
    · exact keptName_of_fits hfits (by simp [hcut.plain])
    -- The replacement character does not fit either: it is cut in its turn, and replaced by itself.
    · exact keptName_of_cut ⟨by simp, hcut.plain, hcut.starts, Nat.lt_of_not_le hfits⟩
  · rw [hkept]
    exact keptName_of_fits (hfield ▸ length_keptField_le name) (by simpa using hnul)

/-- Where no character is cut, the bytes of the field are those of what is kept. -/
theorem encode_keptName_of_uncut (uncut : ∀ before c, ¬CutInside name before c) :
    Utf8.encode (keptName name) = ((Utf8.encode name).take 254).takeWhile (· ≠ 0) := by
  rcases keptName_cut_or_whole name with ⟨before, c, hcut, -⟩ | ⟨kept, hkept, -, -, hfield⟩
  · exact absurd hcut (uncut before c)
  · rw [hkept]
    exact hfield

end cut

private theorem length_encode_keptName_le (name : String) : (Utf8.encode (keptName name)).length ≤ 256 := by
  rcases keptName_cut_or_whole name with ⟨before, c, hcut, hkept⟩ | ⟨kept, hkept, -, -, hfield⟩
  · have hstarts := hcut.starts
    have hreplacement : (String.utf8EncodeChar '\uFFFD').length = 3 := by decide
    rw [Utf8.encode_ofList] at hstarts
    rw [hkept, Utf8.encode_ofList, List.flatMap_append, List.flatMap_singleton, List.length_append,
      hreplacement]
    omega
  · rw [hkept, hfield]
    exact (length_keptField_le name).trans (by decide)

end Peer

/-- A registration starts with the same field of the name as a record ends with. -/
theorem Request.register_nameField (name : String) (key : PublicKey) :
    (register name key).payload.take 255 = nameField name :=
  List.take_left' (Bytes.length_padded ..)

namespace Directory

/-- One record is read as one client. -/
theorem parsePeers_encode (p : Peer) : parsePeers p.encode = [⟨p.id, Peer.keptName p.name⟩] := by
  have hshort : ([] : Bytes).length < Peer.recordSize := by decide
  simpa using parsePeers_flatMap_encode_append [p] hshort

/-- A name is cut at its end and no more altered, unless its field cuts a character. However the field was written, in
a record or in a registration, the name that is read from it has then the characters before that one and a replacement
character. So it is a prefix of the name exactly if no character is cut but one that is a replacement character itself.
-/
theorem name_cut_at_end_or_in_character (name : String) (id : ClientId) (key : PublicKey) :
    ∃ read : String, parsePeers (Peer.encode ⟨id, name⟩) = [⟨id, read⟩] ∧
      parsePeers (id.toBytes ++ (Request.register name key).payload.take 255) = [⟨id, read⟩] ∧
      (∀ before c, Peer.CutInside name before c → read = String.ofList (before ++ ['\uFFFD'])) ∧
      (read.toList <+: name.toList ↔ ∀ before c, Peer.CutInside name before c → c = '\uFFFD') := by
  have hrecord := parsePeers_encode ⟨id, name⟩
  refine ⟨Peer.keptName name, hrecord, ?_, fun before c hcut => Peer.keptName_of_cut hcut,
    Peer.keptName_prefix_iff name⟩
  rw [Request.register_nameField]
  exact hrecord

theorem half_character_replaced :
    let letters := List.replicate 252 'a'
    let name := String.ofList (letters ++ ['😀'])
    Peer.CutInside name letters '😀' ∧
      parsePeers (Peer.encode ⟨.replicate 1, name⟩) = [⟨.replicate 1, String.ofList (letters ++ ['\uFFFD'])⟩] := by
  intro letters name
  have hcut : Peer.CutInside name letters '😀' :=
    .last (by decide +kernel) (by decide +kernel) (by decide +kernel)
  obtain ⟨read, hrecord, -, hread, -⟩ :=
    name_cut_at_end_or_in_character name (.replicate 1) ⟨.replicate 160 7⟩
  rw [hread letters '😀' hcut] at hrecord
  exact ⟨hcut, hrecord⟩

/-- The name that is read after a cut inside its last character is no prefix of the name. -/
theorem cut_name_is_no_prefix :
    let letters := List.replicate 253 'a'
    let name := String.ofList (letters ++ ['é'])
    let read := String.ofList (letters ++ ['\uFFFD'])
    parsePeers (Peer.encode ⟨.replicate 1, name⟩) = [⟨.replicate 1, read⟩] ∧
      parsePeers ((ClientId.replicate 1).toBytes ++ (Request.register name ⟨.replicate 160 7⟩).payload.take 255) =
        [⟨.replicate 1, read⟩] ∧ ¬read.toList <+: name.toList := by
  intro letters name read
  have hkept : Peer.keptName name = read := by
    rw [Peer.keptName, Utf8.encode_ofList]
    exact congrArg String.ofList (by decide +kernel)
  have hrecord := parsePeers_encode ⟨.replicate 1, name⟩
  rw [hkept] at hrecord
  refine ⟨hrecord, ?_, ?_⟩
  · rw [Request.register_nameField]
    exact hrecord
  · rw [String.toList_ofList, String.toList_ofList]
    decide +kernel

/-- Of a record its id is read and what the field of its name keeps, and this record is read again as it is when it is
written in its turn. A name that the field cut inside a character is read with a replacement character in the place of
this one, so with up to 256 bytes; any other is read from the bytes that the field has of it. -/
theorem record_read_again_unchanged (p : Peer) :
    let q : Peer := ⟨p.id, Peer.keptName p.name⟩
    parsePeers p.encode = [q] ∧ parsePeers q.encode = [q] ∧ (Utf8.encode q.name).length ≤ 256 ∧
      (∀ before c, Peer.CutInside p.name before c → q.name = String.ofList (before ++ ['\uFFFD'])) ∧
      ((∀ before c, ¬Peer.CutInside p.name before c) →
        Utf8.encode q.name = ((Utf8.encode p.name).take 254).takeWhile (· ≠ 0)) := by
  intro q
  refine ⟨parsePeers_encode p, ?_, Peer.length_encode_keptName_le p.name,
    fun before c hcut => Peer.keptName_of_cut hcut, Peer.encode_keptName_of_uncut⟩
  rw [parsePeers_encode, Peer.keptName_keptName]

/-- The name that is read is too long for its own field, and the field cuts it inside its replacement character. -/
theorem overlong_name_read_again :
    let letters := List.replicate 253 'a'
    let name := String.ofList (letters ++ ['😀'])
    let read := String.ofList (letters ++ ['\uFFFD'])
    Peer.CutInside name letters '😀' ∧ parsePeers (Peer.encode ⟨.replicate 1, name⟩) = [⟨.replicate 1, read⟩] ∧
      (Utf8.encode read).length = 256 ∧ parsePeers (Peer.encode ⟨.replicate 1, read⟩) = [⟨.replicate 1, read⟩] := by
  intro letters name read
  have hcut : Peer.CutInside name letters '😀' :=
    .last (by decide +kernel) (by decide +kernel) (by decide +kernel)
  have hlength : (Utf8.encode read).length = 256 := by
    rw [Utf8.encode_ofList]
    decide +kernel
  obtain ⟨hfirst, hagain, -, hcutName, -⟩ := record_read_again_unchanged ⟨.replicate 1, name⟩
  have hread : Peer.keptName name = read := hcutName letters '😀' hcut
  simp only [hread] at hfirst hagain
  exact ⟨hcut, hfirst, hlength, hagain⟩

end Directory

end SealedPost
