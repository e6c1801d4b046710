import SealedPost.Proofs.Framing

/-! Headers and the bytes in front of a payload determine each other: every header is read back from its bytes, and all
bytes that are long enough start with a header. -/
namespace SealedPost

/-- Values written in `size` bytes at the front of a byte string. A value is read back whatever follows it; bytes are a
framing fault exactly if they are too few; and a value that is read off enough bytes is written as they are. So no two
values have the same bytes, and every `size` bytes are those of a value. -/
structure FrontForm {α : Type} (size : Nat) (encode : α → Bytes) (decode : Bytes → Except Failure α) : Prop where
  decode_encode_append : ∀ value rest, decode (encode value ++ rest) = .ok value
  framing_iff : ∀ bs, (∃ fault, decode bs = .error (.framing fault)) ↔ bs.length < size
  encode_decode : ∀ bs, size ≤ bs.length → ∃ value, decode bs = .ok value ∧ encode value = bs.take size
  encode_injective : Function.Injective encode
  exists_encode : ∀ front : Bytes, front.length = size → ∃ value, encode value = front

/-- Where values fill `size` bytes and too few bytes are a fault, it is enough that values are read back, and that other
bytes are a value and what follows it. -/
theorem FrontForm.of_inverse {α : Type} {size : Nat} {encode : α → Bytes} {decode : Bytes → Except Failure α}
    (filled : ∀ value, (encode value).length = size)
    (written : ∀ value rest, decode (encode value ++ rest) = .ok value)
    (short : ∀ bs, bs.length < size → ∃ fault, decode bs = .error (.framing fault))
    (read : ∀ bs, size ≤ bs.length → ∃ value, decode bs = .ok value ∧ encode value ++ bs.drop size = bs) :
    FrontForm size encode decode := by
  have front (bs : Bytes) (long : size ≤ bs.length) :
      ∃ value, decode bs = .ok value ∧ encode value = bs.take size := by
    obtain ⟨value, hvalue, hbytes⟩ := read bs long
    refine ⟨value, hvalue, ?_⟩
    have hfront := congrArg (List.take size) hbytes
    rwa [List.take_left' (filled value)] at hfront
  refine ⟨written, fun bs => ⟨fun ⟨fault, hfault⟩ => ?_, short bs⟩, front, fun value other h => ?_, fun bs h => ?_⟩
  · refine Nat.lt_of_not_le fun long => ?_
    obtain ⟨value, hvalue, -⟩ := read bs long
    rw [hvalue] at hfault
    cases hfault
  · have hvalue := written value []
    rw [h, written other []] at hvalue
    exact (Except.ok.inj hvalue).symm
  · obtain ⟨value, -, hvalue⟩ := front bs (Nat.le_of_eq h.symm)
    exact ⟨value, hvalue.trans (List.take_of_length_le (Nat.le_of_eq h))⟩

/-- Bytes that are long enough start with a request header, field by field. -/
theorem RequestHeader.encode_append_drop {bs : Bytes} (h : size ≤ bs.length) :
    ∃ header, decode bs = .ok header ∧ header.encode ++ bs.drop size = bs := by
  refine ⟨_, if_neg (Nat.not_lt.2 h), ?_⟩
  have hlong : 23 ≤ bs.length := h
  have hcode : ((bs.drop 17).take 2).length = 2 := Bytes.length_take_drop (by omega)
  have hsize : ((bs.drop 19).take 4).length = 4 := Bytes.length_take_drop (by omega)
  rw [encode, ofNatLE_uint16_natLE hcode, ofNatLE_uint32_natLE hsize, Block.toBytes_fit (by omega), List.append_assoc,
    List.append_assoc, List.cons_append, size, bs.take_drop_append_drop 19 4, bs.take_drop_append_drop 17 2,
    Bytes.headD_drop_cons_drop (by omega), List.take_append_drop]

/-- Bytes that are long enough start with a response header, field by field. -/
theorem ResponseHeader.encode_append_drop {bs : Bytes} (h : size ≤ bs.length) :
    ∃ header, decode bs = .ok header ∧ header.encode ++ bs.drop size = bs := by
  refine ⟨_, if_neg (Nat.not_lt.2 h), ?_⟩
  have hlong : 7 ≤ bs.length := h
  have hcode : ((bs.drop 1).take 2).length = 2 := Bytes.length_take_drop (by omega)
  have hsize : ((bs.drop 3).take 4).length = 4 := Bytes.length_take_drop (by omega)
  rw [encode, ofNatLE_uint16_natLE hcode, ofNatLE_uint32_natLE hsize, List.append_assoc, List.cons_append, size,
    bs.take_drop_append_drop 3 4, bs.take_drop_append_drop 1 2]
  exact Bytes.headD_drop_cons_drop (i := 0) (by omega)

/-- Both kinds of header and the bytes in front of a payload determine each other: 23 bytes for a request, and 7 for a
response. -/
theorem headers_determined_by_front :
    FrontForm 23 RequestHeader.encode RequestHeader.decode ∧
      FrontForm 7 ResponseHeader.encode ResponseHeader.decode := by
  constructor
  · refine .of_inverse RequestHeader.length_encode RequestHeader.decode_encode_append (fun bs short => ?_)
      fun _ => RequestHeader.encode_append_drop
    exact ⟨.requestHeader bs.length, if_pos short⟩
  · refine .of_inverse ResponseHeader.length_encode ResponseHeader.decode_encode_append (fun bs short => ?_)
      fun _ => ResponseHeader.encode_append_drop
    exact ⟨.responseHeader bs.length, if_pos short⟩

end SealedPost
