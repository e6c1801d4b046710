import SealedPost.Proofs.Framing

/-! Requests on the wire: each tells where it ends, and its arguments are read off it. -/
namespace SealedPost.Request

/-- The five layouts: which sender and code stand in the header of a request, and where its payload holds the
arguments. -/
def LaidOut (sender : ClientId) (code : UInt16) (payload : Bytes) : Request → Prop
  | register username key =>
    let name := Utf8.encode username
    sender = .replicate 0 ∧ code = 600 ∧
      payload.take 255 = name.take 254 ++ List.replicate (255 - min 254 name.length) 0 ∧
      payload.drop 255 = key.toBytes
  | clientList own => sender = own ∧ code = 601 ∧ payload = []
  | publicKey own target => sender = own ∧ code = 602 ∧ payload = target.toBytes
  | sendMessage own target kind content _ =>
    sender = own ∧ code = 603 ∧ payload.take 16 = target.toBytes ∧ payload[16]? = some kind.byte ∧
      Bytes.natLE ((payload.drop 17).take 4) = content.length ∧ payload.drop 21 = content
  | waitingMessages own => sender = own ∧ code = 604 ∧ payload = []

theorem laidOut (r : Request) : r.LaidOut r.sender r.code.number r.payload := by
  cases r with
  | register username key =>
    have hname : (nameField username).length = 255 := Bytes.length_padded ..
    refine ⟨rfl, rfl, ?_, ?_⟩
    · rw [← nameField_eq, payload, ← hname, List.take_left]
    · rw [payload, ← hname, List.drop_left]
  | clientList own => exact ⟨rfl, rfl, rfl⟩
  | publicKey own target => exact ⟨rfl, rfl, rfl⟩
  | sendMessage own target kind content fits =>
    have htarget := target.length_toBytes
    refine ⟨rfl, rfl, ?_, ?_, ?_, content_payload own target kind content fits⟩
    · simp [payload, htarget]
    · simp [payload, htarget]
    · have hsize : ((sendMessage own target kind content fits).payload.drop 17).take 4 =
          Bytes.ofNatLE 4 content.length := by
        simp [payload, List.drop_append, List.drop_eq_nil_of_le, htarget]
      have hlt : content.length < 256 ^ 4 := Nat.lt_trans (by omega) fits
      rw [hsize, Bytes.natLE_ofNatLE, Nat.mod_eq_of_lt hlt]
  | waitingMessages own => exact ⟨rfl, rfl, rfl⟩

/-- The bytes of a request are its header, as many bytes of payload as the header declares, and nothing more. -/
theorem read_encode_append (r : Request) (rest : Bytes) : ∃ size : UInt32,
    RequestHeader.decode (r.encode ++ rest) = .ok ⟨r.sender, 2, r.code.number, size⟩ ∧
      size.toNat = r.payload.length ∧
      ((r.encode ++ rest).drop 23).take size.toNat = r.payload ∧ (r.encode ++ rest).drop (23 + size.toNat) = rest := by
  have hafter : (r.encode ++ rest).drop 23 = r.payload ++ rest := by
    rw [encode, List.append_assoc]
    exact List.drop_left' (RequestHeader.length_encode _)
  refine ⟨r.header.payloadSize, ?_, r.payloadSize_header, ?_, ?_⟩
  · rw [encode, List.append_assoc]
    exact RequestHeader.decode_encode_append ..
  · rw [hafter, payloadSize_header, List.take_left]
  · rw [← List.drop_drop, hafter, payloadSize_header, List.drop_left]

/-- Bytes that start with two requests start with the same bytes of a request. -/
theorem encode_unique {r other : Request} {rest others : Bytes} (h : r.encode ++ rest = other.encode ++ others) :
    r.encode = other.encode ∧ rest = others := by
  obtain ⟨size, hread, -, -, hrest⟩ := r.read_encode_append rest
  obtain ⟨size', hread', -, -, hrest'⟩ := other.read_encode_append others
  have hsize : size = size' := by
    rw [h, hread'] at hread
    exact (congrArg RequestHeader.payloadSize (Except.ok.inj hread)).symm
  have hrests : rest = others := by rw [← hrest, ← hrest', h, hsize]
  rw [hrests] at h
  exact ⟨List.append_cancel_right h, hrests⟩

section message

variable {sender target : ClientId} {kind : MessageKind} {content : Bytes}

theorem message_of_fits (fits : content.length + 21 < 2 ^ 32) :
    message sender target kind content = .ok (.sendMessage sender target kind content fits) := by
  have hshort : ¬content.length ≥ 1 <<< 32 := Nat.not_le.2 (Nat.lt_of_le_of_lt (by omega) fits)
  rw [message, if_neg hshort]
  exact dif_pos fits

theorem message_of_long_content (h : 2 ^ 32 ≤ content.length) :
    message sender target kind content = .error (.payloadTooLarge content.length) :=
  if_pos h

theorem message_of_long_payload (hcontent : content.length < 2 ^ 32) (h : 2 ^ 32 ≤ content.length + 21) :
    message sender target kind content = .error (.payloadTooLarge (content.length + 21)) := by
  have hshort : ¬content.length ≥ 1 <<< 32 := Nat.not_le.2 hcontent
  rw [message, if_neg hshort]
  exact dif_neg (Nat.not_lt.2 h)

/-- A content is refused exactly if the payload around it is too long for its size field. -/
theorem message_eq_ok_iff : (∃ r, message sender target kind content = .ok r) ↔ content.length + 21 ≤ 2 ^ 32 - 1 := by
  constructor
  · rintro ⟨r, h⟩
    obtain ⟨fits, -⟩ := message_eq_ok h
    exact Nat.le_sub_one_of_lt fits
  · intro h
    exact ⟨_, message_of_fits (Nat.lt_of_le_sub_one (by decide) h)⟩

end message

/-- Whatever follows a request on the wire, a receiver finds its header and takes off exactly its payload, which holds
its arguments; so no request goes on where another ends. A message becomes a request exactly if its whole payload can
be counted in 32 bits, and no size in a request is wrapped. -/
theorem requests_delimit_themselves :
    (∀ (r : Request) (rest : Bytes), ∃ sender code, ∃ size : UInt32, ∃ payload,
      RequestHeader.decode (r.encode ++ rest) = .ok ⟨sender, 2, code, size⟩ ∧
        ((r.encode ++ rest).drop 23).take size.toNat = payload ∧ payload.length = size.toNat ∧
        (r.encode ++ rest).drop (23 + size.toNat) = rest ∧
        payload = r.payload ∧ r.LaidOut sender code payload) ∧
    (∀ r other : Request, r.encode <+: other.encode → r.encode = other.encode) ∧
    ∀ sender target kind content,
      ((∃ r, message sender target kind content = .ok r) ↔ content.length + 21 ≤ 2 ^ 32 - 1) ∧
      (∀ r, message sender target kind content = .ok r → ∃ fits, r = .sendMessage sender target kind content fits) ∧
      (2 ^ 32 ≤ content.length →
        message sender target kind content = .error (.payloadTooLarge content.length)) ∧
      (content.length < 2 ^ 32 → 2 ^ 32 - 1 < content.length + 21 →
        message sender target kind content = .error (.payloadTooLarge (content.length + 21))) := by
  refine ⟨fun r rest => ?_, fun r other hstart => ?_, fun sender target kind content => ?_⟩
  · obtain ⟨size, hheader, hsize, hpayload, hrest⟩ := r.read_encode_append rest
    exact ⟨r.sender, r.code.number, size, r.payload, hheader, hpayload, hsize.symm, hrest, rfl, r.laidOut⟩
  · obtain ⟨rest, hrest⟩ := hstart
    exact (encode_unique (hrest.trans (List.append_nil _).symm)).1
  · exact ⟨message_eq_ok_iff, fun _ => message_eq_ok, message_of_long_content,
      fun hcontent h => message_of_long_payload hcontent (Nat.le_of_pred_lt h)⟩

theorem overlong_message_refused :
    let content : Bytes := List.replicate (2 ^ 32) 0
    2 ^ 32 ≤ content.length ∧ message (.replicate 1) (.replicate 2) .text content =
      .error (.payloadTooLarge (2 ^ 32)) := by
  intro content
  have hlength : content.length = 2 ^ 32 := List.length_replicate
  obtain ⟨-, -, hmessage⟩ := requests_delimit_themselves
  obtain ⟨-, -, hlong, -⟩ := hmessage (.replicate 1) (.replicate 2) .text content
  have hmany : 2 ^ 32 ≤ content.length := Nat.le_of_eq hlength.symm
  exact ⟨hmany, hlength ▸ hlong hmany⟩

end SealedPost.Request
