import SealedPost.Proofs.Recording

/-! The courses of one exchange with the relay: reading a response, a round trip, and a connection around them. -/
namespace SealedPost.Session
open SealedPost.Action

variable {w : Type} (env : Surroundings (StateM w))

inductive PayloadReading (header : ResponseHeader) : List Event → Except Failure Response → Prop
  | none (empty : header.payloadSize.toNat = 0) : PayloadReading header [] (.ok ⟨header, []⟩)
  | lost (announced : header.payloadSize.toNat ≠ 0) (fault : LinkFault) :
      PayloadReading header [.receive header.payloadSize.toNat (.error fault)]
        (.error (failureAtEnd (.truncatedPayload header.payloadSize.toNat) fault))
  | short {payload : Bytes} (announced : header.payloadSize.toNat ≠ 0)
      (misfit : payload.length ≠ header.payloadSize.toNat) :
      PayloadReading header [.receive header.payloadSize.toNat (.ok payload)]
        (.error (.truncatedPayload header.payloadSize.toNat))
  | whole {payload : Bytes} (announced : header.payloadSize.toNat ≠ 0)
      (fits : payload.length = header.payloadSize.toNat) :
      PayloadReading header [.receive header.payloadSize.toNat (.ok payload)] (.ok ⟨header, payload⟩)

inductive Reading : List Event → Except Failure Response → Prop
  | headLost (fault : LinkFault) :
      Reading [.receive ResponseHeader.size (.error fault)] (.error (failureAtEnd (.framing .closedEarly) fault))
  | headBroken {head : Bytes} {e : Failure} (broken : ResponseHeader.decode head = .error e) :
      Reading [.receive ResponseHeader.size (.ok head)] (.error e)
  | payload {head : Bytes} {header : ResponseHeader} {events : List Event} {result : Except Failure Response}
      (read : ResponseHeader.decode head = .ok header) (rest : PayloadReading header events result) :
      Reading (.receive ResponseHeader.size (.ok head) :: events) result

/-- How a round trip goes: the request is sent, and where that worked the response is read and judged. -/
inductive RoundTrip (request : Request) (expected : ResponseCode) : List Event → Except Failure Bytes → Prop
  | unsent (fault : LinkFault) :
      RoundTrip request expected [.send request.encode (.error fault)] (.error (transportFailure fault))
  | unread {events : List Event} {e : Failure} (reading : Reading events (.error e)) :
      RoundTrip request expected (.send request.encode (.ok ()) :: events) (.error e)
  | answered {events : List Event} {response : Response} (reading : Reading events (.ok response)) :
      RoundTrip request expected (.send request.encode (.ok ()) :: events) (response.payloadFor expected)

/-- A course inside a connection: nothing else where the connection does not open, and a close at the end of every
other one. -/
inductive Connected {α : Type} (inside : Course α) : Course α
  | refused (s : Session) (fault : LinkFault) :
      Connected inside s [.connect (.error fault)] (.error (transportFailure fault)) s
  | held {s s' : Session} {events : List Event} {result : Except Failure α} (course : inside s events result s') :
      Connected inside s (.connect (.ok ()) :: (events ++ [.disconnect])) result s'

theorem Connected.session_eq {α : Type} {course : List Event → Except Failure α → Prop} {s s' : Session}
    {events : List Event} {result : Except Failure α} (h : Connected (.still course) s events result s') : s' = s := by
  cases h with
  | refused fault => rfl
  | held inside => exact inside.2

private theorem does_checked (header : ResponseHeader) (payload : Bytes) :
    (if payload.length = header.payloadSize.toNat then pure ⟨header, payload⟩
      else throw (.truncatedPayload header.payloadSize.toNat) :
        Action (StateT (List Event) (StateM w)) Response).Does
      (.still fun events result => events = [] ∧ result =
        if payload.length = header.payloadSize.toNat then .ok ⟨header, payload⟩
        else .error (.truncatedPayload header.payloadSize.toNat)) := by
  split
  · exact does_ofExcept _
  · exact does_ofExcept _

private theorem does_payload (header : ResponseHeader) :
    (do let payload ← call (failureAtEnd (.truncatedPayload header.payloadSize.toNat))
          (env.recorded.link.receive header.payloadSize.toNat)
        if payload.length = header.payloadSize.toNat then pure ⟨header, payload⟩
        else throw (.truncatedPayload header.payloadSize.toNat) :
      Action (StateT (List Event) (StateM w)) Response).Does
      (.still fun events result => header.payloadSize.toNat ≠ 0 → PayloadReading header events result) := by
  refine ((does_call _ (.receive _) _).bind fun payload => does_checked header payload).mono ?_
  rintro s events result s' (⟨⟨outcome, rfl, hr⟩, rfl⟩ | ⟨⟨⟨outcome, rfl, hr⟩, rfl⟩, ⟨rfl, rfl⟩, rfl⟩)
  · cases outcome with
    | error fault => cases hr; exact ⟨fun announced => .lost announced fault, rfl⟩
    | ok payload => cases hr
  · cases outcome with
    | error fault => cases hr
    | ok payload =>
      cases hr
      refine ⟨fun announced => ?_, rfl⟩
      split
      · next fits => exact .whole announced fits
      · next misfit => exact .short announced misfit

/-- Over any link, a response is read in one of the ways that a reading has. -/
theorem readResponse_does : (readResponse env.recorded).Does (.still Reading) := by
  refine ((does_call _ (.receive _) _).bind fun head => (does_ofExcept (ResponseHeader.decode head)).bind
    fun header => (?_ : Action.Does _ (.still (PayloadReading header)))).mono ?_
  · dsimp only
    split
    · next empty =>
      refine ((does_ofExcept (.ok [])).bind fun payload => does_checked header payload).mono ?_
      rintro s events result s' (⟨⟨rfl, hr⟩, rfl⟩ | ⟨⟨⟨rfl, hr⟩, rfl⟩, ⟨rfl, rfl⟩, rfl⟩)
      · cases hr
      · cases hr
        rw [List.length_nil, if_pos empty.symm]
        exact ⟨.none empty, rfl⟩
    · next announced =>
      exact (does_payload env header).mono fun s events result s' hc => ⟨hc.1 announced, hc.2⟩
  · rintro s events result s' (⟨⟨outcome, rfl, hr⟩, rfl⟩ | ⟨⟨⟨outcome, rfl, hr⟩, rfl⟩, hrest⟩)
    · cases outcome with
      | error fault => cases hr; exact ⟨.headLost fault, rfl⟩
      | ok head => cases hr
    · cases outcome with
      | error fault => cases hr
      | ok head =>
        cases hr
        rcases hrest with ⟨⟨rfl, hd⟩, rfl⟩ | ⟨⟨⟨rfl, hd⟩, rfl⟩, hread, rfl⟩
        · exact ⟨.headBroken hd.symm, rfl⟩
        · exact ⟨.payload hd.symm hread, rfl⟩

/-- Over any link, a round trip goes in one of its ways. -/
theorem roundTrip_does (request : Request) (expected : ResponseCode) :
    (roundTrip env.recorded request expected).Does (.still (RoundTrip request expected)) := by
  refine ((does_call _ (.send request.encode) _).bind fun _ => (readResponse_does env).bind fun response =>
    does_ofExcept (response.payloadFor expected)).mono ?_
  rintro s events result s' (⟨⟨outcome, rfl, hr⟩, rfl⟩ | ⟨⟨⟨outcome, rfl, hr⟩, rfl⟩, hrest⟩)
  · cases outcome with
    | error fault => cases hr; exact ⟨.unsent fault, rfl⟩
    | ok _ => cases hr
  · cases outcome with
    | error fault => cases hr
    | ok _ =>
      rcases hrest with ⟨hread, rfl⟩ | ⟨⟨hread, rfl⟩, ⟨rfl, rfl⟩, rfl⟩
      · exact ⟨.unread hread, rfl⟩
      · exact ⟨by rw [List.append_nil]; exact .answered hread, rfl⟩

/-- A connection that opened is closed, whatever happened inside. -/
theorem withConnection_does {α : Type} {action : Action (StateT (List Event) (StateM w)) α} {inside : Course α}
    (h : action.Does inside) : (withConnection env.recorded action).Does (Connected inside) := by
  refine ((does_call _ .connect _).bind fun _ => h.attempt.bind fun outcome =>
    (does_perform .disconnect _).bind fun _ => does_ofExcept outcome).mono ?_
  rintro s events result s' (⟨⟨outcome, rfl, hr⟩, rfl⟩ | ⟨⟨⟨outcome, rfl, hr⟩, rfl⟩, hrest⟩)
  · cases outcome with
    | error fault => cases hr; exact .refused s' fault
    | ok _ => cases hr
  · cases outcome with
    | error fault => cases hr
    | ok _ =>
      rcases hrest with ⟨_, ⟨⟩, _⟩ | ⟨⟨_, ⟨⟩, hin⟩, ⟨⟨_, _, ⟨⟩⟩, _⟩ | ⟨⟨⟨rfl, _⟩, rfl⟩, ⟨rfl, rfl⟩, rfl⟩⟩
      exact .held hin

end SealedPost.Session
