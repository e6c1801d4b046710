import SealedPost.Proofs.Framing

/-! The records of a queue: what is read off arbitrary bytes, and what is left of a queue that was cut. -/
namespace SealedPost

namespace QueuedMessage

def recordHeader (sender : ClientId) (messageId : UInt32) (kind : UInt8) (size : UInt32) : Bytes :=
  sender.toBytes ++ Bytes.ofNatLE 4 messageId.toNat ++ kind :: Bytes.ofNatLE 4 size.toNat

@[simp] theorem length_recordHeader (sender : ClientId) (messageId : UInt32) (kind : UInt8) (size : UInt32) :
    (recordHeader sender messageId kind size).length = headerSize := by
  simp [recordHeader, headerSize, sender.length_toBytes]

theorem encode_eq {m : QueuedMessage} (fits : m.content.length < 2 ^ 32) :
    m.encode = recordHeader m.sender m.messageId m.kind.byte (UInt32.ofNat m.content.length) ++ m.content := by
  rw [recordHeader, UInt32.toNat_ofNat', Nat.mod_eq_of_lt fits]
  rfl

/-- Bytes that are long enough start with a record header, field by field. -/
theorem recordHeader_append_drop {bs : Bytes} (h : headerSize ≤ bs.length) :
    recordHeader ⟨Block.fit 16 bs⟩ (UInt32.ofNat (Bytes.natLE ((bs.drop 16).take 4))) ((bs.drop 20).headD 0)
      (UInt32.ofNat (Bytes.natLE ((bs.drop 21).take 4))) ++ bs.drop headerSize = bs := by
  have hlong : 25 ≤ bs.length := h
  have hid : ((bs.drop 16).take 4).length = 4 := Bytes.length_take_drop (by omega)
  have hsize : ((bs.drop 21).take 4).length = 4 := Bytes.length_take_drop (by omega)
  rw [recordHeader, ofNatLE_uint32_natLE hid, ofNatLE_uint32_natLE hsize, Block.toBytes_fit (by omega),
    List.append_assoc, List.append_assoc, List.cons_append, headerSize, bs.take_drop_append_drop 21 4,
    Bytes.headD_drop_cons_drop (by omega), bs.take_drop_append_drop 16 4, List.take_append_drop]

/-- A record is read off bytes exactly where they start with it. -/
theorem next?_eq_some_iff {bs rest : Bytes} {m : QueuedMessage} :
    next? bs = some (m, rest) ↔
      bs = m.encode ++ rest ∧ m.content.length < 2 ^ 32 ∧ .ofByte m.kind.byte = m.kind := by
  constructor
  · intro h
    simp only [next?] at h
    split at h
    · cases h
    · next hlong =>
      have hheader : headerSize ≤ bs.length := by omega
      have hcontent : ((bs.drop headerSize).take (Bytes.natLE ((bs.drop 21).take 4))).length =
          Bytes.natLE ((bs.drop 21).take 4) := by
        rw [List.length_take, List.length_drop]
        omega
      have hfits := Nat.lt_of_le_of_lt (Nat.le_of_eq hcontent) (Bytes.natLE_take_four_lt _)
      simp only [Option.some.injEq, Prod.mk.injEq] at h
      obtain ⟨rfl, rfl⟩ := h
      refine ⟨?_, hfits, by rw [MessageKind.byte_ofByte]⟩
      rw [encode_eq hfits]
      simp only [hcontent, MessageKind.byte_ofByte]
      rw [List.append_assoc, ← List.drop_drop, List.take_append_drop, recordHeader_append_drop hheader]
  · rintro ⟨rfl, fits, canonical⟩
    rw [next?_encode_append m fits, canonical]

/-- No record is read off bytes that hold no whole header, or less content than their header declares. -/
theorem unfinished_of_next?_eq_none {bs : Bytes} (h : next? bs = none) :
    bs.length < headerSize ∨ ∃ sender messageId kind size tail,
      bs = recordHeader sender messageId kind size ++ tail ∧ tail.length < size.toNat := by
  simp only [next?] at h
  split at h
  · next hshort =>
    by_cases hheader : bs.length < headerSize
    · exact .inl hheader
    · refine .inr ⟨_, _, _, _, _, (recordHeader_append_drop (by omega)).symm, ?_⟩
      rw [UInt32.toNat_ofNat', Nat.mod_eq_of_lt (Bytes.natLE_take_four_lt _), List.length_drop]
      omega
  · cases h

/-- A record that was cut is not read. -/
theorem next?_take_encode_append {m : QueuedMessage} (fits : m.content.length < 2 ^ 32) (rest : Bytes) {cut : Nat}
    (inside : cut < m.encode.length) : next? ((m.encode ++ rest).take cut) = none := by
  cases hread : next? ((m.encode ++ rest).take cut) with
  | none => rfl
  | some read =>
    obtain ⟨other, left⟩ := read
    obtain ⟨hcut, hother⟩ := next?_eq_some_iff.1 hread
    -- What is read off the cut bytes is read off all of them too, so it is the record itself, which is longer.
    have hall : m.encode ++ rest = other.encode ++ (left ++ (m.encode ++ rest).drop cut) := by
      rw [← List.append_assoc, ← hcut, List.take_append_drop]
    have hsame := (next?_encode_append m fits rest).symm.trans (next?_eq_some_iff.2 ⟨hall, hother⟩)
    have hlength := congrArg List.length (Prod.mk.inj (Option.some.inj hsame)).2
    rw [List.length_append, List.length_drop, List.length_append] at hlength
    omega

end QueuedMessage

open QueuedMessage

theorem parseQueue_eq_nil {bs : Bytes} (h : next? bs = none) : parseQueue bs = [] := by
  rw [parseQueue]
  split
  · rfl
  · next hsome => rw [h] at hsome; cases hsome

theorem mem_parseQueue {p : Bytes} {m : QueuedMessage} (h : m ∈ parseQueue p) :
    m.content.length < 2 ^ 32 ∧ .ofByte m.kind.byte = m.kind := by
  fun_induction parseQueue p with
  | case1 => cases h
  | case2 p first rest hnext ih =>
    rcases List.mem_cons.1 h with rfl | hrest
    · exact (next?_eq_some_iff.1 hnext).2
    · exact ih hrest

/-- All bytes of a payload are those of its records in order, and then a rest that no record is read off. -/
theorem parseQueue_rest (p : Bytes) : ∃ rest, p = (parseQueue p).flatMap encode ++ rest ∧ next? rest = none := by
  fun_induction parseQueue p with
  | case1 p hnext => exact ⟨p, rfl, hnext⟩
  | case2 p first rest hnext ih =>
    obtain ⟨last, hrest, hlast⟩ := ih
    refine ⟨last, ?_, hlast⟩
    rw [List.flatMap_cons, List.append_assoc, ← hrest]
    exact (next?_eq_some_iff.1 hnext).1

private theorem map_canonical {ms : List QueuedMessage} (canonical : ∀ m ∈ ms, .ofByte m.kind.byte = m.kind) :
    (ms.map fun m => { m with kind := .ofByte m.kind.byte }) = ms := by
  refine (List.map_congr_left fun m hm => ?_).trans (List.map_id _)
  rw [canonical m hm]
  rfl

/-- What follows a payload goes on where its last whole record ended. -/
theorem parseQueue_append (p q : Bytes) : ∃ rest, p = (parseQueue p).flatMap encode ++ rest ∧
    parseQueue (p ++ q) = parseQueue p ++ parseQueue (rest ++ q) := by
  obtain ⟨rest, hp, -⟩ := parseQueue_rest p
  refine ⟨rest, hp, ?_⟩
  have hread := parseQueue_flatMap_encode_append (parseQueue p) (fun m hm => (mem_parseQueue hm).1) (rest ++ q)
  rwa [map_canonical fun m hm => (mem_parseQueue hm).2, ← List.append_assoc, ← hp] at hread

private theorem headerSize_mul_length_le (ms : List QueuedMessage) :
    headerSize * ms.length ≤ (ms.flatMap encode).length := by
  induction ms with
  | nil => exact Nat.le_refl _
  | cons m ms ih =>
    rw [List.flatMap_cons, List.length_append, QueuedMessage.length_encode, List.length_cons, Nat.mul_add_one]
    omega

/-- The rounds of reading a payload take it apart: they are no more than it has room for, each reads one record
where the one before it stopped, and what they leave is too short for a header or for the content that its header
declares. What was read stays read when more bytes follow. -/
theorem parseQueue_takes_payload_apart (p : Bytes) :
    headerSize * (parseQueue p).length ≤ p.length ∧
      (∃ rest, p = (parseQueue p).flatMap encode ++ rest ∧
        (rest.length < headerSize ∨ ∃ sender messageId kind size tail,
          rest = recordHeader sender messageId kind size ++ tail ∧ tail.length < size.toNat)) ∧
      (∀ earlier m later, parseQueue p = earlier ++ m :: later →
        next? (p.drop (earlier.flatMap encode).length) =
          some (m, p.drop ((earlier ++ [m]).flatMap encode).length)) ∧
      ∀ q, parseQueue p <+: parseQueue (p ++ q) := by
  obtain ⟨rest, hp, hrest⟩ := parseQueue_rest p
  refine ⟨?_, ⟨rest, hp, unfinished_of_next?_eq_none hrest⟩, ?_, ?_⟩
  · have hlength := congrArg List.length hp
    have hrecords := headerSize_mul_length_le (parseQueue p)
    rw [List.length_append] at hlength
    omega
  · intro earlier m later hsplit
    have hm : m ∈ parseQueue p := by simp [hsplit]
    have hbytes : p = (earlier ++ [m]).flatMap encode ++ (later.flatMap encode ++ rest) := by
      rw [hsplit] at hp
      simpa using hp
    have hafter : p.drop ((earlier ++ [m]).flatMap encode).length = later.flatMap encode ++ rest := by
      rw [hbytes, List.drop_left]
    have hbefore : p.drop (earlier.flatMap encode).length = m.encode ++ (later.flatMap encode ++ rest) := by
      rw [hbytes, List.flatMap_append, List.flatMap_singleton, List.append_assoc, List.drop_left]
    rw [hafter, hbefore, next?_eq_some_iff]
    exact ⟨rfl, mem_parseQueue hm⟩
  · intro q
    obtain ⟨rest, -, hread⟩ := parseQueue_append p q
    exact ⟨_, hread.symm⟩

theorem record_before_overlong_read :
    let first : QueuedMessage := ⟨1, .replicate 1, .keyRequest, []⟩
    let second : QueuedMessage := ⟨2, .replicate 2, .unknown 77, [63, 63]⟩
    let tail := recordHeader (.replicate 3) 3 4 0xFFFFFFFF ++ [17]
    let p := [first, second].flatMap encode ++ tail
    parseQueue p = [first] ++ second :: [] ∧ next? (p.drop 25) = some (second, p.drop 52) := by
  intro first second tail p
  have hread : parseQueue p = [first] ++ second :: [] := by
    have hall := parseQueue_flatMap_encode_append [first, second] (by decide) tail
    rw [parseQueue_eq_nil (show next? tail = none by decide)] at hall
    exact hall
  obtain ⟨-, -, hrounds, -⟩ := parseQueue_takes_payload_apart p
  exact ⟨hread, hrounds [first] second [] hread⟩

/-- Of the prefixes of a queue, the longest one whose records lie entirely within a cut. -/
structure LongestWithin (cut : Nat) (ms kept : List QueuedMessage) : Prop where
  initial : kept <+: ms
  within : (kept.flatMap encode).length ≤ cut
  longest : ∀ other, other <+: ms → (other.flatMap encode).length ≤ cut → other <+: kept

/-- A first record that lies within the cut is kept. -/
theorem LongestWithin.cons {cut : Nat} {m : QueuedMessage} {ms kept : List QueuedMessage}
    (h : LongestWithin (cut - m.encode.length) ms kept) (inside : m.encode.length ≤ cut) :
    LongestWithin cut (m :: ms) (m :: kept) where
  initial := List.cons_prefix_cons.2 ⟨rfl, h.initial⟩
  within := by
    have hkept := h.within
    rw [List.flatMap_cons, List.length_append]
    omega
  longest := by
    intro other hother hwithin
    cases other with
    | nil => exact List.nil_prefix
    | cons first other =>
      obtain ⟨rfl, hrest⟩ := List.cons_prefix_cons.1 hother
      rw [List.flatMap_cons, List.length_append] at hwithin
      exact List.cons_prefix_cons.2 ⟨rfl, h.longest other hrest (by omega)⟩

theorem LongestWithin.nil {cut : Nat} {ms : List QueuedMessage}
    (h : ∀ m ∈ ms.head?, cut < m.encode.length) : LongestWithin cut ms [] where
  initial := List.nil_prefix
  within := Nat.zero_le _
  longest := by
    intro other hother hwithin
    cases other with
    | nil => exact List.nil_prefix
    | cons first other =>
      obtain ⟨later, rfl⟩ := hother
      have hfirst := h first rfl
      rw [List.flatMap_cons, List.length_append] at hwithin
      omega

/-- A cut leaves the records that lie entirely before it. -/
theorem parseQueue_take_flatMap_encode (ms : List QueuedMessage) (fits : ∀ m ∈ ms, m.content.length < 2 ^ 32)
    (cut : Nat) : ∃ kept, LongestWithin cut ms kept ∧
      parseQueue ((ms.flatMap encode).take cut) = kept.map fun m => { m with kind := .ofByte m.kind.byte } := by
  induction ms generalizing cut with
  | nil => exact ⟨[], .nil (by simp), by simp⟩
  | cons m ms ih =>
    have hm : m.content.length < 2 ^ 32 := fits m (by simp)
    rw [List.flatMap_cons]
    by_cases inside : m.encode.length ≤ cut
    · obtain ⟨kept, hkept, hread⟩ := ih (fun m hm => fits m (by simp [hm])) (cut - m.encode.length)
      refine ⟨m :: kept, hkept.cons inside, ?_⟩
      rw [List.take_append, List.take_of_length_le inside, parseQueue_cons (m.next?_encode_append hm _), hread]
      rfl
    · refine ⟨[], .nil (by simpa using inside), ?_⟩
      rw [parseQueue_eq_nil (next?_take_encode_append hm _ (by omega))]
      rfl

/-- A queue that is cut anywhere reads as the longest of its prefixes that lie entirely within the cut, in order and
record by record. Sender, message id and content are those that were written, and so is every kind that can be read at
all; uncut, the whole queue is read. -/
theorem cut_queue_reads_whole_records (ms : List QueuedMessage) (fits : ∀ m ∈ ms, m.content.length < 2 ^ 32) :
    (∀ cut, ∃ kept, LongestWithin cut ms kept ∧
      parseQueue ((ms.flatMap encode).take cut) = (kept.map fun m => { m with kind := .ofByte m.kind.byte }) ∧
      ((∀ m ∈ kept, ∃ b, m.kind = .ofByte b) → parseQueue ((ms.flatMap encode).take cut) = kept)) ∧
    parseQueue (ms.flatMap encode) = (ms.map fun m => { m with kind := .ofByte m.kind.byte }) ∧
    ((∀ m ∈ ms, ∃ b, m.kind = .ofByte b) → parseQueue (ms.flatMap encode) = ms) := by
  have readable {kept : List QueuedMessage} (h : ∀ m ∈ kept, ∃ b, m.kind = .ofByte b) :
      (kept.map fun m => { m with kind := .ofByte m.kind.byte }) = kept := by
    refine map_canonical fun m hm => ?_
    obtain ⟨b, hb⟩ := h m hm
    rw [hb, MessageKind.byte_ofByte]
  have whole := parseQueue_flatMap_encode ms fits
  refine ⟨fun cut => ?_, whole, fun h => whole.trans (readable h)⟩
  obtain ⟨kept, hkept, hread⟩ := parseQueue_take_flatMap_encode ms fits cut
  exact ⟨kept, hkept, hread, fun h => hread.trans (readable h)⟩

theorem record_cut_in_header_dropped :
    let first : QueuedMessage := ⟨1, .replicate 1, .text, [104, 105]⟩
    let second : QueuedMessage := ⟨2, .replicate 2, .unknown 2, []⟩
    (∀ m ∈ [first, second], m.content.length < 2 ^ 32) ∧
      parseQueue (([first, second].flatMap encode).take 51) = [first] ∧
      parseQueue ([first, second].flatMap encode) = [first, { second with kind := .keySend }] := by
  intro first second
  have fits : ∀ m ∈ [first, second], m.content.length < 2 ^ 32 := by decide
  obtain ⟨hcuts, hwhole, -⟩ := cut_queue_reads_whole_records [first, second] fits
  obtain ⟨kept, hkept, hread, -⟩ := hcuts 51
  have hone : [first] <+: kept := hkept.longest [first] ⟨[second], rfl⟩ (by decide)
  have hshort : kept.length < 2 := by
    refine Nat.lt_of_not_le fun hlong => ?_
    obtain rfl := hkept.initial.eq_of_length_le hlong
    exact absurd hkept.within (by decide)
  obtain rfl : [first] = kept := hone.eq_of_length_le (Nat.le_of_lt_succ hshort)
  exact ⟨fits, hread, hwhole⟩

end SealedPost
