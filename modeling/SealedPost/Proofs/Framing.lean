import SealedPost.Proofs.Bytes
import SealedPost.Queue
import SealedPost.Wire.Request
import SealedPost.Wire.Response

/-! What is written on the wire is read back: headers, requests, and the records of a queue. -/
namespace SealedPost

namespace Block

theorem fit_append {n : Nat} (b : Block n) (rest : Bytes) : fit n (b.toBytes ++ rest) = b := by
  obtain ⟨bs, rfl⟩ := b
  simp [fit, Bytes.padded]

theorem fit_toBytes {n : Nat} (b : Block n) : fit n b.toBytes = b := by
  simpa using fit_append b []

theorem fit_take {n : Nat} {bs : Bytes} (h : n ≤ bs.length) : fit n (bs.take n) = fit n bs := by
  have hfront := fit_toBytes ⟨bs.take n, List.length_take_of_le h⟩
  have hwhole := fit_append ⟨bs.take n, List.length_take_of_le h⟩ (bs.drop n)
  rw [List.take_append_drop] at hwhole
  exact hfront.trans hwhole.symm

theorem first?_append {n : Nat} (b : Block n) (rest : Bytes) : first? n (b.toBytes ++ rest) = some b := by
  obtain ⟨bs, rfl⟩ := b
  simp [first?, ofBytes?]

end Block

/-- The first sixteen bytes make the id, where there are that many. -/
theorem ClientId.first?_eq_some_iff {bs : Bytes} {id : ClientId} :
    first? bs = some id ↔ 16 ≤ bs.length ∧ id.toBytes = bs.take 16 := by
  obtain ⟨⟨bytes, hlen⟩⟩ := id
  simp only [first?, Block.first?, Block.ofBytes?]
  constructor
  · intro h
    split at h
    · next hlong =>
      cases h
      rw [List.length_take] at hlong
      exact ⟨by omega, rfl⟩
    · cases h
  · rintro ⟨hlong, rfl⟩
    rw [dif_pos (by rw [List.length_take]; omega)]
    rfl

private theorem natLE_ofNatLE_of_lt {width v : Nat} (h : v < 256 ^ width) :
    Bytes.natLE (Bytes.ofNatLE width v) = v := by
  rw [Bytes.natLE_ofNatLE, Nat.mod_eq_of_lt h]

private theorem uint16_of_natLE (v : UInt16) : UInt16.ofNat (Bytes.natLE (Bytes.ofNatLE 2 v.toNat)) = v := by
  rw [natLE_ofNatLE_of_lt v.toNat_lt, UInt16.ofNat_toNat]

private theorem uint32_of_natLE (v : UInt32) : UInt32.ofNat (Bytes.natLE (Bytes.ofNatLE 4 v.toNat)) = v := by
  rw [natLE_ofNatLE_of_lt v.toNat_lt, UInt32.ofNat_toNat]

theorem ofNatLE_uint16_natLE {bs : Bytes} (h : bs.length = 2) :
    Bytes.ofNatLE 2 (UInt16.ofNat (Bytes.natLE bs)).toNat = bs := by
  have hlt : Bytes.natLE bs < 2 ^ 16 := Nat.lt_of_lt_of_eq bs.natLE_lt (by simp [h])
  have hback := Bytes.ofNatLE_natLE bs
  rw [h] at hback
  rw [UInt16.toNat_ofNat', Nat.mod_eq_of_lt hlt, hback]

theorem ofNatLE_uint32_natLE {bs : Bytes} (h : bs.length = 4) :
    Bytes.ofNatLE 4 (UInt32.ofNat (Bytes.natLE bs)).toNat = bs := by
  have hlt : Bytes.natLE bs < 2 ^ 32 := Nat.lt_of_lt_of_eq bs.natLE_lt (by simp [h])
  have hback := Bytes.ofNatLE_natLE bs
  rw [h] at hback
  rw [UInt32.toNat_ofNat', Nat.mod_eq_of_lt hlt, hback]

namespace RequestHeader

@[simp] theorem length_encode (h : RequestHeader) : h.encode.length = size := by
  simp [encode, size, h.clientId.length_toBytes]

theorem decode_encode_append (h : RequestHeader) (rest : Bytes) : decode (h.encode ++ rest) = .ok h := by
  have hlen := h.clientId.length_toBytes
  have hlong : ¬(h.encode ++ rest).length < size := by simp
  have hid : Block.fit 16 (h.encode ++ rest) = h.clientId.toBlock := by
    rw [encode, List.append_assoc, List.append_assoc]
    exact Block.fit_append _ _
  have hcode : (((h.encode ++ rest).drop 17).take 2) = Bytes.ofNatLE 2 h.code.toNat := by
    simp [encode, List.drop_append, List.take_append, hlen]
  have hsize : (((h.encode ++ rest).drop 19).take 4) = Bytes.ofNatLE 4 h.payloadSize.toNat := by
    simp [encode, List.drop_append, List.take_append, hlen]
  have hversion : ((h.encode ++ rest).drop 16).headD 0 = h.version := by
    simp [encode, hlen]
  rw [decode, if_neg hlong, hid, hcode, hsize, hversion, uint16_of_natLE, uint32_of_natLE]

end RequestHeader

namespace ResponseHeader

@[simp] theorem length_encode (h : ResponseHeader) : h.encode.length = size := by
  simp [encode, size]

theorem decode_encode_append (h : ResponseHeader) (rest : Bytes) : decode (h.encode ++ rest) = .ok h := by
  have hlong : ¬(h.encode ++ rest).length < size := by simp
  have hcode : (((h.encode ++ rest).drop 1).take 2) = Bytes.ofNatLE 2 h.code.toNat := by
    simp [encode]
  have hsize : (((h.encode ++ rest).drop 3).take 4) = Bytes.ofNatLE 4 h.payloadSize.toNat := by
    simp [encode]
  rw [decode, if_neg hlong, hcode, hsize, uint16_of_natLE, uint32_of_natLE]
  rfl

end ResponseHeader

/-- The field of a name is cut or filled to 254 bytes, and one more zero ends it. -/
theorem nameField_eq (name : String) : nameField name =
    (Utf8.encode name).take 254 ++ List.replicate (255 - min 254 (Utf8.encode name).length) 0 := by
  have hshort : min 254 (Utf8.encode name).length ≤ 255 := by omega
  rw [nameField, nameFieldSize, Bytes.padded, List.length_take, List.take_of_length_le]
  simp only [List.length_append, List.length_take, List.length_replicate]
  omega

namespace Request

theorem decode_encode (r : Request) : RequestHeader.decode r.encode = .ok r.header :=
  r.header.decode_encode_append r.payload

theorem drop_encode (r : Request) : r.encode.drop RequestHeader.size = r.payload := by
  rw [encode, List.drop_append_of_le_length (by simp), List.drop_of_length_le (by simp), List.nil_append]

/-- The payload of every request fits the size field of its header. -/
theorem payload_lt (r : Request) : r.payload.length < 2 ^ 32 := by
  cases r with
  | register username key => simp [payload, nameField, nameFieldSize, key.length_toBytes]
  | clientList sender => simp [payload]
  | publicKey sender target => simp [payload, target.length_toBytes]
  | sendMessage sender target kind content fits =>
    simp only [payload, List.length_append, List.length_cons, Bytes.length_ofNatLE, target.length_toBytes]
    omega
  | waitingMessages sender => simp [payload]

theorem payloadSize_header (r : Request) : r.header.payloadSize.toNat = r.payload.length := by
  rw [header, UInt32.toNat_ofNat']
  exact Nat.mod_eq_of_lt r.payload_lt

section message

variable (sender target : ClientId) (kind : MessageKind) (content : Bytes) (fits : content.length + 21 < 2 ^ 32)

theorem target_payload : Block.fit 16 (sendMessage sender target kind content fits).payload = target.toBlock := by
  rw [payload, List.append_assoc]
  exact Block.fit_append _ _

theorem kind_payload : ((sendMessage sender target kind content fits).payload.drop 16).headD 0 = kind.byte := by
  simp [payload, target.length_toBytes]

theorem content_payload : (sendMessage sender target kind content fits).payload.drop 21 = content := by
  simp [payload, List.drop_append, target.length_toBytes]

end message

theorem message_eq_ok {sender target : ClientId} {kind : MessageKind} {content : Bytes} {r : Request}
    (h : message sender target kind content = .ok r) :
    ∃ fits, r = .sendMessage sender target kind content fits := by
  unfold message at h
  split at h
  · cases h
  · split at h
    · next fits => cases h; exact ⟨fits, rfl⟩
    · cases h

end Request

namespace QueuedMessage

@[simp] theorem length_encode (m : QueuedMessage) : m.encode.length = headerSize + m.content.length := by
  simp only [encode, headerSize, List.length_append, List.length_cons, Bytes.length_ofNatLE, m.sender.length_toBytes]

/-- A record is read off the front of a queue, and what follows it is left. -/
theorem next?_encode_append (m : QueuedMessage) (fits : m.content.length < 2 ^ 32) (rest : Bytes) :
    next? (m.encode ++ rest) = some ({ m with kind := .ofByte m.kind.byte }, rest) := by
  have hlen := m.sender.length_toBytes
  have hsize : Bytes.natLE (((m.encode ++ rest).drop 21).take 4) = m.content.length := by
    rw [show ((m.encode ++ rest).drop 21).take 4 = Bytes.ofNatLE 4 m.content.length by
      simp [encode, List.drop_append, List.drop_eq_nil_of_le, hlen]]
    exact natLE_ofNatLE_of_lt (by simpa using fits)
  have hid : UInt32.ofNat (Bytes.natLE (((m.encode ++ rest).drop 16).take 4)) = m.messageId := by
    rw [show ((m.encode ++ rest).drop 16).take 4 = Bytes.ofNatLE 4 m.messageId.toNat by
      simp [encode, hlen]]
    exact uint32_of_natLE _
  have hsender : Block.fit 16 (m.encode ++ rest) = m.sender.toBlock := by
    simp only [encode, List.append_assoc]
    exact Block.fit_append _ _
  have hkind : ((m.encode ++ rest).drop 20).headD 0 = m.kind.byte := by
    simp [encode, List.drop_append, hlen]
  have hcontent : ((m.encode ++ rest).drop headerSize).take m.content.length = m.content := by
    simp [encode, headerSize, List.drop_append, List.drop_eq_nil_of_le, hlen]
  have hrest : (m.encode ++ rest).drop (headerSize + m.content.length) = rest := by
    rw [← length_encode, List.drop_left]
  have hlong : ¬(m.encode ++ rest).length < headerSize + m.content.length := by simp
  simp only [next?, hsize, if_neg hlong, hid, hsender, hkind, hcontent, hrest]

end QueuedMessage

theorem parseQueue_cons {payload rest : Bytes} {m : QueuedMessage} (h : QueuedMessage.next? payload = some (m, rest)) :
    parseQueue payload = m :: parseQueue rest := by
  rw [parseQueue]
  split
  · next hn => rw [h] at hn; cases hn
  · next hn => rw [h] at hn; cases hn; rfl

@[simp] theorem parseQueue_nil : parseQueue [] = [] := by
  rw [parseQueue]
  rfl

/-- Records one after the other are read back in order, and what follows them is read on. -/
theorem parseQueue_flatMap_encode_append (ms : List QueuedMessage) (fits : ∀ m ∈ ms, m.content.length < 2 ^ 32)
    (rest : Bytes) : parseQueue (ms.flatMap QueuedMessage.encode ++ rest) =
      (ms.map fun m => { m with kind := .ofByte m.kind.byte }) ++ parseQueue rest := by
  induction ms with
  | nil => rfl
  | cons m ms ih =>
    rw [List.flatMap_cons, List.append_assoc, parseQueue_cons (m.next?_encode_append (fits m (by simp)) _),
      ih fun m hm => fits m (by simp [hm])]
    rfl

/-- A queue that is whole is read back, its kinds as their bytes tell. -/
theorem parseQueue_flatMap_encode (ms : List QueuedMessage) (fits : ∀ m ∈ ms, m.content.length < 2 ^ 32) :
    parseQueue (ms.flatMap QueuedMessage.encode) = ms.map fun m => { m with kind := .ofByte m.kind.byte } := by
  simpa using parseQueue_flatMap_encode_append ms fits []

end SealedPost
