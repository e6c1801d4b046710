import Mathlib.Control.Monad.Basic
import SealedPost.Cipher.Transparent
import SealedPost.Link.Scripted
import SealedPost.Proofs.Exchange
import SealedPost.Proofs.Framing

/-! How a response is read off a byte stream: what a round trip makes of any bytes that arrive, and how many of them it
takes. -/
namespace SealedPost

/-- A link that hands out a byte stream, `left` of it in each state of the world: a call to receive takes as many bytes
as it asks for, or meets the end of the stream where fewer are left. -/
structure Link.Streams {w : Type} (link : Link (StateM w)) (left : w → Bytes → Prop) : Prop where
  gives : ∀ {x : w} {b : Bytes} {count : Nat}, left x b → count ≤ b.length →
    ∃ x', (link.receive count).run x = (.ok (b.take count), x') ∧ left x' (b.drop count)
  ends : ∀ {x : w} {b : Bytes} {count : Nat}, left x b → b.length < count →
    ∃ reason x', (link.receive count).run x = (.error (.endOfStream reason), x')

namespace ResponseCode

theorem ofNumber?_eq_some_iff {n : UInt16} {code : ResponseCode} : ofNumber? n = some code ↔ n = code.number := by
  constructor
  · intro h
    unfold ofNumber? at h
    grind [number]
  · rintro rfl
    exact ofNumber?_number code

end ResponseCode

/-- A header that is there in full can be read, whatever its bytes are. -/
theorem ResponseHeader.decode_of_long {bs : Bytes} (h : size ≤ bs.length) : decode bs = .ok {
    version := bs.headD 0
    code := UInt16.ofNat (Bytes.natLE ((bs.drop 1).take 2))
    payloadSize := UInt32.ofNat (Bytes.natLE ((bs.drop 3).take 4)) } := by
  rw [decode, if_neg (Nat.not_lt.2 h)]

/-- Only the first seven bytes tell a header. -/
theorem ResponseHeader.decode_take {bs : Bytes} (h : size ≤ bs.length) : decode (bs.take size) = decode bs := by
  have hlength : (bs.take size).length = size := List.length_take_of_le h
  have hversion : (bs.take size).headD 0 = bs.headD 0 := by
    cases bs <;> rfl
  rw [decode_of_long h, decode_of_long (Nat.le_of_eq hlength.symm), hversion, size, List.drop_take, List.drop_take,
    List.take_take, List.take_take]
  rfl

namespace Response

/-- A response is judged by its code number: a general error first, and then any code but the expected one. -/
theorem payloadFor_eq (expected : ResponseCode) (r : Response) : r.payloadFor expected =
    if r.header.code = 9000 then .error .serverRejected
    else if r.header.code ≠ expected.number then .error (.unexpectedResponse expected.number r.header.code)
    else .ok r.payload := by
  have hread (code : ResponseCode) : r.header.responseCode? = some code ↔ r.header.code = code.number :=
    ResponseCode.ofNumber?_eq_some_iff
  unfold payloadFor
  split
  · next hgeneral => rw [if_pos (show r.header.code = 9000 from (hread _).1 hgeneral)]
  · next code hother hcode =>
    have hlisted : r.header.code ≠ 9000 := fun h =>
      hother (Option.some.inj (hcode.symm.trans ((hread .generalError).2 h)))
    rw [if_neg hlisted]
    by_cases heq : code = expected
    · subst heq
      rw [if_pos rfl, if_neg (not_not_intro ((hread code).1 hcode))]
    · have hcodes : r.header.code ≠ expected.number := fun h =>
        heq (Option.some.inj (hcode.symm.trans ((hread expected).2 h)))
      rw [if_neg heq, if_pos hcodes]
  · next hunknown =>
    have hcodes (code : ResponseCode) : r.header.code ≠ code.number := fun h => by
      rw [(hread code).2 h] at hunknown
      cases hunknown
    rw [if_neg (show r.header.code ≠ 9000 from hcodes .generalError), if_pos (hcodes expected)]

def atFront (b : Bytes) : Except Failure Response :=
  match ResponseHeader.decode b with
  | .error _ => .error (.framing .closedEarly)
  | .ok header =>
    if b.length < ResponseHeader.size + header.payloadSize.toNat then
      .error (.truncatedPayload header.payloadSize.toNat)
    else .ok ⟨header, (b.drop ResponseHeader.size).take header.payloadSize.toNat⟩

/-- Behind a header that is there, the payload is judged by the size that the header declares. -/
theorem atFront_of_long {b : Bytes} {size : Nat} (hsize : size = Bytes.natLE ((b.drop 3).take 4)) (h : 7 ≤ b.length) :
    ∃ header : ResponseHeader, header.code = UInt16.ofNat (Bytes.natLE ((b.drop 1).take 2)) ∧
      header.payloadSize.toNat = size ∧ atFront b =
        if b.length < 7 + size then .error (.truncatedPayload size) else .ok ⟨header, (b.drop 7).take size⟩ := by
  have hfield : (UInt32.ofNat (Bytes.natLE ((b.drop 3).take 4))).toNat = size := by
    rw [hsize, UInt32.toNat_ofNat']
    exact Nat.mod_eq_of_lt (Bytes.natLE_take_four_lt _)
  refine ⟨⟨b.headD 0, UInt16.ofNat (Bytes.natLE ((b.drop 1).take 2)), UInt32.ofNat (Bytes.natLE ((b.drop 3).take 4))⟩,
    rfl, hfield, ?_⟩
  rw [atFront, ResponseHeader.decode_of_long h]
  dsimp only
  rw [hfield]
  rfl

/-- Whether a response is there in full and what it is taken for, read off the bytes at their places. -/
theorem atFront_payloadFor (b : Bytes) (expected : ResponseCode) {code : UInt16} {size : Nat}
    (hcode : code = UInt16.ofNat (Bytes.natLE ((b.drop 1).take 2))) (hsize : size = Bytes.natLE ((b.drop 3).take 4)) :
    ((atFront b).bind fun response => response.payloadFor expected) =
      if b.length < 7 then .error (.framing .closedEarly)
      else if b.length < 7 + size then .error (.truncatedPayload size)
      else if code = 9000 then .error .serverRejected
      else if code ≠ expected.number then .error (.unexpectedResponse expected.number code)
      else .ok ((b.drop 7).take size) := by
  by_cases hshort : b.length < 7
  · rw [if_pos hshort, atFront, ResponseHeader.decode, ResponseHeader.size, if_pos hshort]
    rfl
  · obtain ⟨header, hheader, -, hfront⟩ := atFront_of_long hsize (Nat.le_of_not_lt hshort)
    rw [if_neg hshort, hfront, hcode, ← hheader]
    by_cases hcut : b.length < 7 + size
    · rw [if_pos hcut, if_pos hcut]
      rfl
    · rw [if_neg hcut, if_neg hcut]
      exact payloadFor_eq expected _

end Response

namespace Session
open SealedPost.Action

variable {w : Type} (env : Surroundings (StateM w)) {left : w → Bytes → Prop} (streams : env.link.Streams left)
  {s : Session} {record : List Event} {x x' : w} {b : Bytes}

private theorem exec_recorded_receive {count : Nat} {outcome : Except LinkFault Bytes} (asFailure : LinkFault → Failure)
    (h : (env.link.receive count).run x = (outcome, x')) :
    (call asFailure (env.recorded.link.receive count)).exec s record x =
      ⟨outcome.mapError asFailure, s, record ++ [.receive count outcome], x'⟩ :=
  exec_call_recording h

include streams in
private theorem exec_payload (header : ResponseHeader) (arrived : left x b) : ∃ record' x',
    (do let payload ← call (failureAtEnd (.truncatedPayload header.payloadSize.toNat))
          (env.recorded.link.receive header.payloadSize.toNat)
        if payload.length = header.payloadSize.toNat then pure ⟨header, payload⟩
        else throw (.truncatedPayload header.payloadSize.toNat) :
      Action (StateT (List Event) (StateM w)) Response).exec s record x =
        ⟨if b.length < header.payloadSize.toNat then .error (.truncatedPayload header.payloadSize.toNat)
          else .ok ⟨header, b.take header.payloadSize.toNat⟩, s, record', x'⟩ ∧
      (header.payloadSize.toNat ≤ b.length → left x' (b.drop header.payloadSize.toNat)) := by
  by_cases hcut : b.length < header.payloadSize.toNat
  · obtain ⟨reason, x', hpayload⟩ := streams.ends arrived hcut
    rw [exec_bind, exec_recorded_receive env _ hpayload, if_pos hcut]
    exact ⟨_, x', rfl, fun henough => absurd hcut (Nat.not_lt.2 henough)⟩
  · have henough : header.payloadSize.toNat ≤ b.length := Nat.le_of_not_lt hcut
    obtain ⟨x', hpayload, hrest⟩ := streams.gives arrived henough
    rw [exec_bind, exec_recorded_receive env _ hpayload, if_neg hcut]
    dsimp only [Except.mapError]
    rw [if_pos (List.length_take_of_le henough)]
    exact ⟨_, x', rfl, fun _ => hrest⟩

include streams in
/-- Reading a response off a stream takes the one at its front, and nothing that follows it. -/
theorem exec_readResponse_of_stream (arrived : left x b) : ∃ record' x',
    (readResponse env.recorded).exec s record x = ⟨Response.atFront b, s, record', x'⟩ ∧
      ∀ response, Response.atFront b = .ok response →
        left x' (b.drop (ResponseHeader.size + response.header.payloadSize.toNat)) := by
  by_cases hshort : b.length < ResponseHeader.size
  · obtain ⟨reason, x', hhead⟩ := streams.ends arrived hshort
    rw [readResponse, exec_bind, exec_recorded_receive env _ hhead, Response.atFront, ResponseHeader.decode,
      if_pos hshort]
    refine ⟨_, x', rfl, fun response hresponse => ?_⟩
    cases hresponse
  have hlong : ResponseHeader.size ≤ b.length := Nat.le_of_not_lt hshort
  obtain ⟨x₁, hhead, hrest⟩ := streams.gives arrived hlong
  obtain ⟨header, hheader⟩ : ∃ header, ResponseHeader.decode b = .ok header := ⟨_, ResponseHeader.decode_of_long hlong⟩
  have hdecode : ResponseHeader.decode (b.take ResponseHeader.size) = .ok header :=
    (ResponseHeader.decode_take hlong).trans hheader
  have hcut : b.length < ResponseHeader.size + header.payloadSize.toNat ↔
      (b.drop ResponseHeader.size).length < header.payloadSize.toNat := by
    rw [List.length_drop]
    omega
  rw [readResponse, exec_bind, exec_recorded_receive env _ hhead]
  simp only [Except.mapError, exec_bind, exec_ofExcept, hdecode]
  rw [Response.atFront, hheader]
  dsimp only
  simp only [hcut]
  -- Where no payload is announced nothing more is received, and a stream that ends here is no loss.
  by_cases hempty : header.payloadSize.toNat = 0
  · simp only [hempty]
    refine ⟨_, x₁, rfl, fun response hresponse => ?_⟩
    cases hresponse
    rw [hempty]
    exact hrest
  · rw [if_neg hempty]
    obtain ⟨record', x', hexec, hleft⟩ := exec_payload env streams header hrest
    refine ⟨record', x', hexec, fun response hresponse => ?_⟩
    split at hresponse
    · cases hresponse
    · next henough =>
      cases hresponse
      rw [← List.drop_drop]
      exact hleft (Nat.le_of_not_lt henough)

include streams in
/-- What a round trip makes of a stream. -/
theorem exec_roundTrip_of_stream {request : Request} {expected : ResponseCode} {x₀ : w}
    (sent : (env.link.send request.encode).run x₀ = (.ok (), x)) (arrived : left x b) : ∃ record' x',
    (roundTrip env.recorded request expected).exec s record x₀ =
        ⟨(Response.atFront b).bind fun response => response.payloadFor expected, s, record', x'⟩ ∧
      ∀ response, Response.atFront b = .ok response →
        left x' (b.drop (ResponseHeader.size + response.header.payloadSize.toNat)) := by
  have hsend : (call transportFailure (env.recorded.link.send request.encode)).exec s record x₀ =
      ⟨.ok (), s, record ++ [.send request.encode (.ok ())], x⟩ := exec_call_recording sent
  obtain ⟨record', x', hread, hleft⟩ : ∃ record' x', (readResponse env.recorded).exec s
      (record ++ [.send request.encode (.ok ())]) x = ⟨Response.atFront b, s, record', x'⟩ ∧ _ :=
    exec_readResponse_of_stream env streams arrived
  refine ⟨record', x', ?_, hleft⟩
  rw [roundTrip, exec_bind, hsend]
  dsimp only
  rw [exec_bind, hread]
  cases Response.atFront b <;> rfl

/-- A receive that fails for another reason than the end of the stream is the end of the reading, for that reason. -/
theorem Reading.eq_transport {events : List Event} {result : Except Failure Response} (h : Reading events result)
    {count : Nat} {fault : LinkFault} (received : .receive count (.error fault) ∈ events)
    (early : ∀ reason, fault ≠ .endOfStream reason) : result = .error (.transport fault.message) := by
  have hfailure (atEnd : Failure) : failureAtEnd atEnd fault = .transport fault.message := by
    cases fault with
    | endOfStream reason => exact absurd rfl (early reason)
    | _ => rfl
  cases h with
  | headLost lost =>
    cases List.mem_singleton.1 received
    exact congrArg Except.error (hfailure _)
  | headBroken broken => exact absurd (List.mem_singleton.1 received) nofun
  | payload read rest =>
    have hrest := (List.mem_cons.1 received).resolve_left nofun
    cases rest with
    | none empty => exact nomatch hrest
    | lost announced lost =>
      cases List.mem_singleton.1 hrest
      exact congrArg Except.error (hfailure _)
    | short announced misfit => exact absurd (List.mem_singleton.1 hrest) nofun
    | whole announced fits => exact absurd (List.mem_singleton.1 hrest) nofun

theorem RoundTrip.eq_transport {request : Request} {expected : ResponseCode} {events : List Event}
    {result : Except Failure Bytes} (h : RoundTrip request expected events result) {count : Nat} {fault : LinkFault}
    (received : .receive count (.error fault) ∈ events) (early : ∀ reason, fault ≠ .endOfStream reason) :
    result = .error (.transport fault.message) := by
  cases h with
  | unsent lost => exact absurd (List.mem_singleton.1 received) nofun
  | unread reading =>
    cases reading.eq_transport ((List.mem_cons.1 received).resolve_left nofun) early
    rfl
  | answered reading => cases reading.eq_transport ((List.mem_cons.1 received).resolve_left nofun) early

/-- Reading a response is complete and exact. Once the request is sent, the result hangs on the bytes that arrive alone:
whether the header is there, whether the payload is, whether the code is the general error, and whether it is the
expected one, in this order. A response that is there in full is taken off the stream with nothing of what follows it.
And where receiving fails for another reason than the end of the stream, that is what is returned. -/
theorem response_read_exactly (request : Request) (expected : ResponseCode) (s : Session) (x₀ x : w)
    (sent : (env.link.send request.encode).run x₀ = (.ok (), x)) :
    let ending := (roundTrip env.recorded request expected).exec s [] x₀
    (∀ (left : w → Bytes → Prop) (b : Bytes), env.link.Streams left → left x b →
      let code := UInt16.ofNat (Bytes.natLE ((b.drop 1).take 2))
      let size := Bytes.natLE ((b.drop 3).take 4)
      ending.result =
        (if b.length < 7 then .error (.framing .closedEarly)
        else if b.length < 7 + size then .error (.truncatedPayload size)
        else if code = 9000 then .error .serverRejected
        else if code ≠ expected.number then .error (.unexpectedResponse expected.number code)
        else .ok ((b.drop 7).take size)) ∧
      (7 + size ≤ b.length → left ending.inner (b.drop (7 + size)))) ∧
    ∀ count fault, .receive count (.error fault) ∈ ending.outer → (∀ reason, fault ≠ .endOfStream reason) →
      ending.result = .error (.transport fault.message) := by
  intro ending
  constructor
  · intro left b streams arrived code size
    obtain ⟨record, x', hexec, hleft⟩ : ∃ record x', ending = ⟨_, s, record, x'⟩ ∧ _ :=
      exec_roundTrip_of_stream env streams sent arrived
    rw [hexec]
    refine ⟨Response.atFront_payloadFor b expected rfl rfl, fun hwhole => ?_⟩
    obtain ⟨header, -, hsize, hfront⟩ := Response.atFront_of_long (b := b) rfl (Nat.le_of_add_right_le hwhole)
    rw [if_neg (Nat.not_lt.2 hwhole)] at hfront
    have hrest := hleft _ hfront
    rwa [hsize] at hrest
  · intro count fault received early
    obtain ⟨events, hevents, htrip, -⟩ := roundTrip_does env request expected s [] x₀
    rw [List.nil_append] at hevents
    rw [show ending.outer = events from hevents] at received
    exact htrip.eq_transport received early

/-- A scripted link streams what arrived, unless its script interferes. -/
theorem scriptedLink_streams : (ScriptedLink.link : Link (StateM ScriptedLink)).Streams fun x b =>
    x.current.receiveFault = none ∧ x.current.shortAt = none ∧ x.inbound = b where
  gives := by
    rintro x _ count ⟨unfaulted, unshortened, rfl⟩ henough
    refine ⟨{ x with received := x.received + 1, inbound := x.inbound.drop count }, ?_, unfaulted, unshortened, rfl⟩
    change ScriptedLink.take count x = _
    simp [ScriptedLink.take, ScriptedLink.takeAsked, ScriptedLink.takeInbound, unfaulted, unshortened,
      Nat.not_lt.2 henough]
  ends := by
    rintro x _ count ⟨unfaulted, unshortened, rfl⟩ hfew
    refine ⟨"end of stream", { x with received := x.received + 1, inbound := [] }, ?_⟩
    change ScriptedLink.take count x = _
    simp [ScriptedLink.take, ScriptedLink.takeAsked, ScriptedLink.takeInbound, unfaulted, unshortened, hfew]

open Transparent in
theorem answer_taken_off_longer_stream :
    let env : Surroundings (StateM ScriptedLink) :=
      ⟨ScriptedLink.link, suite ⟨pure (.error .random), pure (.error .random), pure []⟩⟩
    let payload : Bytes := List.replicate 20 2
    let request := Request.waitingMessages (.replicate 1)
    let reply := (Response.ofPayload .messageSent payload).encode ++ [9, 9]
    let ending := (roundTrip env.recorded request .messageSent).exec {} [] { script := [{ reply }] }
    ending.result = .ok payload ∧ ending.inner.inbound = [9, 9] := by
  intro env payload request reply ending
  obtain ⟨hstream, -⟩ := response_read_exactly env request .messageSent {} { script := [{ reply }] } _ rfl
  obtain ⟨hresult, hrest⟩ := hstream _ reply scriptedLink_streams ⟨rfl, rfl, rfl⟩
  obtain ⟨-, -, hleft⟩ := hrest (by decide +kernel)
  constructor
  · rw [hresult]
    decide +kernel
  · rw [hleft]
    decide +kernel

end Session

end SealedPost
