import SealedPost.Cipher.KeyForm
import SealedPost.Proofs.Listings
import SealedPost.Proofs.Records

/-! The decoders written with reads by position, where a read outside of a byte string ends the program. None of them
ever makes such a read, and the branches that their length checks rule out are never run. -/
namespace SealedPost

/-- A read outside a byte string: the positions asked for, and the length there is. -/
structure OutOfBounds where
  start : Nat
  stop : Nat
  length : Nat
deriving DecidableEq

/-- What a program comes to that reads byte strings by position and ends at the first read outside of one. -/
abbrev Access := Except OutOfBounds

namespace Bytes

def byteAt (bs : Bytes) (i : Nat) : Access UInt8 :=
  if h : i < bs.length then .ok bs[i] else .error ⟨i, i + 1, bs.length⟩

def slice (bs : Bytes) (start stop : Nat) : Access Bytes :=
  if start ≤ stop ∧ stop ≤ bs.length then .ok ((bs.take stop).drop start) else .error ⟨start, stop, bs.length⟩

def slice? (bs : Bytes) (start stop : Nat) : Option Bytes :=
  (bs.slice start stop).toOption

/-- The number in `width` bytes from a position on, each of them read on its own, least significant first. -/
def numberAt (bs : Bytes) (i width : Nat) : Access Nat :=
  natLE <$> (List.range' i width).mapM bs.byteAt

theorem byteAt_eq {bs : Bytes} {i : Nat} (h : i < bs.length) : bs.byteAt i = .ok ((bs.drop i).headD 0) := by
  rw [byteAt, dif_pos h, List.drop_eq_getElem_cons h]
  rfl

theorem slice_eq {bs : Bytes} {start stop : Nat} (order : start ≤ stop) (h : stop ≤ bs.length) :
    bs.slice start stop = .ok ((bs.take stop).drop start) :=
  if_pos ⟨order, h⟩

theorem mapM_byteAt_eq {bs : Bytes} {i width : Nat} (h : i + width ≤ bs.length) :
    (List.range' i width).mapM bs.byteAt = .ok ((bs.drop i).take width) := by
  induction width generalizing i with
  | zero => rfl
  | succ width ih =>
    rw [List.range'_succ, List.mapM_cons, byteAt_eq (by omega), ih (by omega), ← headD_drop_cons_drop (by omega)]
    rfl

/-- Bytes read one by one make the number that is read from a slice. -/
theorem numberAt_eq {bs : Bytes} {i width : Nat} (h : i + width ≤ bs.length) :
    bs.numberAt i width = .ok (natLE ((bs.drop i).take width)) := by
  rw [numberAt, mapM_byteAt_eq h]
  rfl

example : Bytes.numberAt [7, 0, 1] 1 4 = .error ⟨3, 4, 3⟩ := rfl

end Bytes

/-- What the decoders come to in the branches behind their length checks, where no id can be read, no key, or no field
for a name: what is written there, unless something else is given. -/
structure Fallbacks where
  requestSender : Access (Except Failure RequestHeader) := .ok (.error (.framing (.stated "Invalid client id")))
  answerClient : Access (Except Failure KeyAnswer) := .ok (.error (.truncatedPayload 176))
  answerKey : Failure → Access (Except Failure KeyAnswer) := fun e => .ok (.error e)
  receiptRecipient : Access (Except Failure Receipt) := .ok (.error (.truncatedPayload 20))
  listedId : Access (Option Peer) := .ok none
  listedName : Access (Option Peer) := .ok none
  queueSender : Access (List QueuedMessage) := .ok []

section decoders

variable (fallbacks : Fallbacks)

def RequestHeader.decodeChecked (bs : Bytes) : Access (Except Failure RequestHeader) :=
  if bs.length < size then return .error (.framing (.requestHeader bs.length))
  else do
    match ClientId.first? (← bs.slice 0 16) with
    | none => fallbacks.requestSender
    | some clientId =>
      let version ← bs.byteAt 16
      let code ← bs.numberAt 17 2
      let payloadSize ← bs.numberAt 19 4
      return .ok ⟨clientId, version, .ofNat code, .ofNat payloadSize⟩

def ResponseHeader.decodeChecked (bs : Bytes) : Access (Except Failure ResponseHeader) :=
  if bs.length < size then return .error (.framing (.responseHeader bs.length))
  else do
    let version ← bs.byteAt 0
    let code ← bs.numberAt 1 2
    let payloadSize ← bs.numberAt 3 4
    return .ok ⟨version, .ofNat code, .ofNat payloadSize⟩

def KeyAnswer.decodeChecked (bs : Bytes) : Access (Except Failure KeyAnswer) :=
  if bs.length < 176 then return .error (.truncatedPayload 176)
  else match ClientId.first? bs with
    | none => fallbacks.answerClient
    | some clientId => do
      match PublicKey.ofBytes (← bs.slice 16 176) with
      | .error e => fallbacks.answerKey e
      | .ok publicKey => return .ok ⟨clientId, publicKey⟩

def Receipt.decodeChecked (bs : Bytes) : Access (Except Failure Receipt) :=
  if bs.length < 20 then return .error (.truncatedPayload 20)
  else match ClientId.first? bs with
    | none => fallbacks.receiptRecipient
    | some recipient => do
      let messageId ← bs.numberAt 16 4
      return .ok ⟨recipient, .ofNat messageId⟩

def Peer.ofRecordChecked (record : Bytes) : Access (Option Peer) :=
  match ClientId.first? record with
  | none => fallbacks.listedId
  | some id =>
    match record.slice? 16 recordSize with
    | none => fallbacks.listedName
    | some field => do
      let name ← field.slice 0 (field.findIdx (· = 0))
      return some ⟨id, Utf8.decodeLossy name⟩

def Directory.parsePeersChecked (payload : Bytes) : Access (List Peer) :=
  ((Bytes.pieces Peer.recordSize payload).filter (·.length = Peer.recordSize)).filterMapM
    (Peer.ofRecordChecked fallbacks)

/-- How a round of reading a queue ends: the loop is left, with what is read after it, or a message is read and the loop
goes on with the rest. -/
inductive QueuedMessage.Round where
  | left (later : List QueuedMessage)
  | read (m : QueuedMessage) (rest : Bytes)

def QueuedMessage.round (rest : Bytes) : Access Round :=
  if rest.length < headerSize then return .left []
  else match ClientId.first? rest with
    | none => .left <$> fallbacks.queueSender
    | some sender => do
      let messageId ← rest.numberAt 16 4
      let kind ← rest.byteAt 20
      let size ← rest.numberAt 21 4
      let body ← rest.slice headerSize rest.length
      if size > body.length then return .left []
      let content ← body.slice 0 size
      return .read ⟨.ofNat messageId, sender, .ofByte kind, content⟩ (← body.slice size body.length)

def Der.announcedLengthChecked? (bs : Bytes) : Option Nat :=
  bs[0]?.bind fun tag =>
    if tag ≠ 0x30 then none
    else bs[1]?.bind fun first =>
      if first < 128 then some (2 + first.toNat)
      else
        let count := (first &&& 0x7F).toNat
        if count = 0 ∨ count > 2 then none
        else (bs.slice? 2 (2 + count)).map fun digits => 2 + count + Bytes.natBE digits

def Rsa.Public.ofWireChecked (wire : PublicKey) : Access (Except Failure Rsa.Public) :=
  match (Der.announcedLengthChecked? wire.toBytes).filter (· ≤ wire.toBytes.length) with
  | none => return .error (.crypto .publicKeyNotDer)
  | some n => do
    match ofInfo? (← wire.toBytes.slice 0 n) with
    | none => return .error (.crypto .publicKeyMalformed)
    | some key => return .ok key

end decoders

section equal

variable (fallbacks : Fallbacks) (bs : Bytes)

private theorem ok_bind {α β : Type} (a : α) (f : α → Access β) : (Except.ok a >>= f) = f a :=
  rfl

theorem ClientId.first?_of_long {bs : Bytes} (h : 16 ≤ bs.length) : first? bs = some ⟨Block.fit 16 bs⟩ :=
  first?_eq_some_iff.2 ⟨h, Block.toBytes_fit h⟩

theorem PublicKey.ofBytes_of_length {bs : Bytes} (h : bs.length = 160) : ofBytes bs = .ok ⟨Block.fit 160 bs⟩ := by
  rw [ofBytes, Block.ofBytes?, dif_pos h]
  exact congrArg (fun block => Except.ok (PublicKey.mk block)) (Block.fit_toBytes ⟨bs, h⟩).symm

/-- Whatever stands in the dead branches, no byte is read outside. -/
theorem RequestHeader.decodeChecked_eq : decodeChecked fallbacks bs = .ok (decode bs) := by
  rw [decodeChecked, decode]
  split
  · rfl
  · next hshort =>
    have hlong : 23 ≤ bs.length := Nat.le_of_not_lt hshort
    have hfront : (bs.take 16).length = 16 := List.length_take_of_le (by omega)
    rw [Bytes.slice_eq (by omega) (by omega), ok_bind, List.drop_zero, ClientId.first?_of_long (by omega),
      Block.fit_take (by omega)]
    dsimp only
    rw [Bytes.byteAt_eq (by omega), Bytes.numberAt_eq (by omega), Bytes.numberAt_eq (by omega)]
    rfl

theorem ResponseHeader.decodeChecked_eq : decodeChecked bs = .ok (decode bs) := by
  rw [decodeChecked, decode]
  split
  · rfl
  · next hshort =>
    have hlong : 7 ≤ bs.length := Nat.le_of_not_lt hshort
    rw [Bytes.byteAt_eq (by omega), Bytes.numberAt_eq (by omega), Bytes.numberAt_eq (by omega)]
    rfl

theorem KeyAnswer.decodeChecked_eq : decodeChecked fallbacks bs = .ok (decode bs) := by
  rw [decodeChecked, decode]
  split
  · rfl
  · next hshort =>
    have hlong : 176 ≤ bs.length := Nat.le_of_not_lt hshort
    have hafter : (bs.drop 16).length = bs.length - 16 := List.length_drop
    rw [ClientId.first?_of_long (by omega)]
    dsimp only
    rw [Bytes.slice_eq (by omega) hlong, ok_bind, List.drop_take,
      PublicKey.ofBytes_of_length (List.length_take_of_le (by omega)), Block.fit_take (by omega)]
    rfl

theorem Receipt.decodeChecked_eq : decodeChecked fallbacks bs = .ok (decode bs) := by
  rw [decodeChecked, decode]
  split
  · rfl
  · next hshort =>
    have hlong : 20 ≤ bs.length := Nat.le_of_not_lt hshort
    rw [ClientId.first?_of_long (by omega)]
    dsimp only
    rw [Bytes.numberAt_eq (by omega)]
    rfl

theorem Peer.ofRecordChecked_eq {record : Bytes} (h : record.length = recordSize) :
    ofRecordChecked fallbacks record = .ok (some (ofRecord record)) := by
  have hlong : record.length = 271 := h
  have hfield : record.slice? 16 recordSize = some (record.drop 16) := by
    rw [Bytes.slice?, Bytes.slice_eq (by decide) (Nat.le_of_eq h.symm), List.take_of_length_le (Nat.le_of_eq h)]
    rfl
  have hname (field : Bytes) : field.slice 0 (field.findIdx (· = 0)) = .ok (field.takeWhile (· ≠ 0)) := by
    rw [Bytes.slice_eq (Nat.zero_le _) List.findIdx_le_length, List.drop_zero, List.takeWhile_eq_take_findIdx_not]
    simp
  rw [ofRecordChecked, ClientId.first?_of_long (by omega), hfield]
  dsimp only
  rw [hname]
  rfl

theorem Directory.parsePeersChecked_eq : parsePeersChecked fallbacks bs = .ok (parsePeers bs) := by
  have hrecords (records : List Bytes) (whole : ∀ record ∈ records, record.length = Peer.recordSize) :
      records.filterMapM (Peer.ofRecordChecked fallbacks) = .ok (records.map Peer.ofRecord) := by
    induction records with
    | nil => rfl
    | cons record rest ih =>
      rw [List.filterMapM_cons, Peer.ofRecordChecked_eq fallbacks (whole record (by simp)),
        ih fun other hother => whole other (by simp [hother])]
      rfl
  refine hrecords _ fun record hrecord => ?_
  exact of_decide_eq_true (List.mem_filter.1 hrecord).2

theorem QueuedMessage.round_eq :
    round fallbacks bs = .ok ((next? bs).elim (.left []) fun first => .read first.1 first.2) := by
  have hheader : headerSize = 25 := rfl
  rw [round, next?]
  split
  · next hshort =>
    rw [if_pos (by omega)]
    rfl
  · next hshort =>
    have hbody : (bs.drop headerSize).length = bs.length - headerSize := List.length_drop
    rw [ClientId.first?_of_long (by omega)]
    dsimp only
    rw [Bytes.numberAt_eq (by omega), Bytes.byteAt_eq (by omega), Bytes.numberAt_eq (by omega),
      Bytes.slice_eq (by omega) (Nat.le_refl _), List.take_length]
    simp only [ok_bind]
    generalize Bytes.natLE ((bs.drop 21).take 4) = size
    by_cases hcut : bs.length < headerSize + size
    · rw [if_pos hcut, if_pos (by omega)]
      rfl
    · rw [if_neg hcut, if_neg (by omega), Bytes.slice_eq (Nat.zero_le _) (by omega),
        Bytes.slice_eq (by omega) (Nat.le_refl _), List.take_length, List.drop_drop]
      rfl

theorem QueuedMessage.round_shorter {fallbacks : Fallbacks} {bs rest : Bytes} {m : QueuedMessage}
    (h : round fallbacks bs = .ok (.read m rest)) : rest.length < bs.length := by
  rw [round_eq] at h
  cases hnext : next? bs with
  | none =>
    rw [hnext] at h
    cases h
  | some first =>
    rw [hnext] at h
    cases h
    exact next?_shorter hnext

/-- The low seven bits of a byte are what it has over 128. -/
private theorem toNat_and_of_le {b : UInt8} (h : ¬b < 128) : (b &&& 0x7F).toNat = b.toNat - 128 := by
  have hbyte := b.toNat_lt
  have hlong : 128 ≤ b.toNat := Nat.le_of_not_lt h
  rw [UInt8.toNat_and]
  change b.toNat &&& (2 ^ 7 - 1) = _
  rw [Nat.and_two_pow_sub_one_eq_mod]
  omega

theorem Der.announcedLengthChecked?_eq : announcedLengthChecked? bs = announcedLength? bs := by
  match bs with
  | [] => rfl
  | [tag] => exact ite_self _
  | tag :: first :: rest =>
    have hdigits (count : Nat) : Bytes.slice? (tag :: first :: rest) 2 (2 + count) =
        if rest.length < count then none else some (rest.take count) := by
      rw [Bytes.slice?, Bytes.slice, List.length_cons, List.length_cons]
      by_cases h : rest.length < count
      · rw [if_pos h, if_neg (by omega)]
        rfl
      · rw [if_neg h, if_pos (by omega), Nat.add_comm]
        rfl
    rw [announcedLengthChecked?, announcedLength?]
    change (if tag ≠ 0x30 then none else if first < 128 then _ else _) = _
    by_cases hfirst : first < 128
    · rw [if_pos hfirst, if_pos hfirst]
    · rw [if_neg hfirst, if_neg hfirst, toNat_and_of_le hfirst, hdigits]
      by_cases hmany : rest.length < first.toNat - 128
      · simp [hmany]
      · simp [hmany]

theorem Rsa.Public.ofWireChecked_eq (wire : PublicKey) : ofWireChecked wire = .ok (ofWire wire) := by
  rw [ofWireChecked, ofWire, Der.announcedLengthChecked?_eq]
  cases Der.announcedLength? wire.toBytes with
  | none => rfl
  | some n =>
    have hfits : decide (n ≤ wire.toBytes.length) = true ↔ ¬n > 160 := by
      rw [decide_eq_true_iff, wire.length_toBytes, Nat.not_lt]
    rw [Option.filter_some]
    by_cases hlong : n > 160
    · rw [if_neg fun h => hfits.1 h hlong]
      dsimp only
      rw [if_pos hlong]
      rfl
    · have hinside := hfits.2 hlong
      rw [if_pos hinside]
      dsimp only
      rw [if_neg hlong, Bytes.slice_eq (Nat.zero_le _) (of_decide_eq_true hinside), List.drop_zero, ok_bind]
      cases ofInfo? (wire.toBytes.take n) <;> rfl

end equal

section queue

variable (fallbacks : Fallbacks)

def parseQueueChecked (payload : Bytes) : Access (List QueuedMessage) :=
  match _h : QueuedMessage.round fallbacks payload with
  | .error outside => .error outside
  | .ok (.left later) => .ok later
  | .ok (.read m rest) => (m :: ·) <$> parseQueueChecked rest
termination_by payload.length
decreasing_by exact QueuedMessage.round_shorter _h

/-- By strong induction on the length, since each round leaves a shorter rest. -/
theorem parseQueueChecked_eq (payload : Bytes) : parseQueueChecked fallbacks payload = .ok (parseQueue payload) := by
  fun_induction parseQueue payload with
  | case1 payload hnext =>
    have hround := QueuedMessage.round_eq fallbacks payload
    rw [hnext] at hround
    rw [parseQueueChecked]
    split
    · next h => rw [hround] at h; cases h
    · next h => rw [hround] at h; cases h; rfl
    · next h => rw [hround] at h; cases h
  | case2 payload m rest hnext ih =>
    have hround := QueuedMessage.round_eq fallbacks payload
    rw [hnext] at hround
    rw [parseQueueChecked]
    split
    · next h => rw [hround] at h; cases h
    · next h => rw [hround] at h; cases h
    · next h =>
      rw [hround] at h
      cases h
      rw [ih]
      rfl

end queue

/-- Whatever bytes come in, no decoder reads a byte or takes a slice outside of them, in no round of a queue either: by
position it comes to the same value as by taking the bytes apart. It does so whatever stands in the branches behind its
length checks, and be it a read outside, so these are never run: sixteen bytes always make an id, and 160 a key. -/
theorem decoders_read_within_their_bytes (fallbacks : Fallbacks) (bs : Bytes) (wire : PublicKey) :
    RequestHeader.decodeChecked fallbacks bs = .ok (RequestHeader.decode bs) ∧
    ResponseHeader.decodeChecked bs = .ok (ResponseHeader.decode bs) ∧
    KeyAnswer.decodeChecked fallbacks bs = .ok (KeyAnswer.decode bs) ∧
    Receipt.decodeChecked fallbacks bs = .ok (Receipt.decode bs) ∧
    Directory.parsePeersChecked fallbacks bs = .ok (Directory.parsePeers bs) ∧
    parseQueueChecked fallbacks bs = .ok (parseQueue bs) ∧
    Rsa.Public.ofWireChecked wire = .ok (Rsa.Public.ofWire wire) :=
  ⟨RequestHeader.decodeChecked_eq fallbacks bs, ResponseHeader.decodeChecked_eq bs,
    KeyAnswer.decodeChecked_eq fallbacks bs, Receipt.decodeChecked_eq fallbacks bs,
    Directory.parsePeersChecked_eq fallbacks bs, parseQueueChecked_eq fallbacks bs, Rsa.Public.ofWireChecked_eq wire⟩

end SealedPost
