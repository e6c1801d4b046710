import SealedPost.Proofs.FailedOperations
import SealedPost.Proofs.Framing

/-! The scripts of operations, and what it means to follow one on a connection: round trips one after another, up to the
first failure. -/
namespace SealedPost

namespace Event

def onLink : Event → Bool
  | .connect _ | .send _ _ | .receive _ _ | .disconnect => true
  | .freshKeyPair _ | .freshKey _ | .wrap _ _ _ => false

def failed : Event → Bool
  | .connect (.error _) | .send _ (.error _) | .receive _ (.error _) => true
  | .freshKeyPair (.error _) | .freshKey (.error _) | .wrap _ _ (.error _) => true
  | _ => false

def cipherFailure? : Event → Option Failure
  | .freshKeyPair (.error e) | .freshKey (.error e) | .wrap _ _ (.error e) => some e
  | _ => none

def sent? : Event → Option Bytes
  | .send bytes (.ok ()) => some bytes
  | _ => none

theorem mem_of_sent {events : List Event} {bytes : Bytes} (h : bytes ∈ events.filterMap sent?) :
    .send bytes (.ok ()) ∈ events := by
  obtain ⟨event, hevent, hsent⟩ := List.mem_filterMap.1 h
  unfold sent? at hsent
  split at hsent
  · cases hsent
    exact hevent
  · cases hsent

/-- Nothing is picked from calls on the link where only the cryptography counts. -/
theorem filterMap_eq_nil {α : Type} {pick : Event → Option α} {events : List Event}
    (honLink : events.filter onLink = events) (quiet : ∀ event, event.onLink = true → pick event = none) :
    events.filterMap pick = [] :=
  List.filterMap_eq_nil_iff.2 fun event hevent => quiet event (List.filter_eq_self.1 honLink event hevent)

/-- What is picked from a connection is picked from inside it, where opening and closing it does not count. -/
theorem filterMap_connected {α : Type} {pick : Event → Option α} (opening : pick (.connect (.ok ())) = none)
    (closing : pick .disconnect = none) (inside : List Event) :
    (.connect (.ok ()) :: (inside ++ [.disconnect])).filterMap pick = inside.filterMap pick := by
  rw [List.filterMap_cons_none opening, List.filterMap_append, List.filterMap_cons_none closing, List.filterMap_nil,
    List.append_nil]

end Event

/-- The failures of an operation that is refused because of what the client is or holds. -/
def Failure.isRefusal : Failure → Bool
  | .notRegistered | .alreadyRegistered _ | .channelNotEstablished _ => true
  | _ => false

theorem Failure.not_isRefusal_of_fatal {e : Failure} (h : e.isConnectionFatal = true) : e.isRefusal = false := by
  cases e <;> first | rfl | cases h

theorem ResponseHeader.decode_fatal {bs : Bytes} {e : Failure} (h : decode bs = .error e) :
    e.isConnectionFatal = true := by
  unfold decode at h
  split at h <;> cases h
  rfl

theorem KeyAnswer.decode_fatal {bs : Bytes} {e : Failure} (h : decode bs = .error e) : e.isConnectionFatal = true := by
  unfold decode at h
  split at h <;> cases h
  rfl

theorem Receipt.decode_fatal {bs : Bytes} {e : Failure} (h : decode bs = .error e) : e.isConnectionFatal = true := by
  unfold decode at h
  split at h <;> cases h
  rfl

theorem Response.payloadFor_fatal {r : Response} {expected : ResponseCode} {e : Failure}
    (h : r.payloadFor expected = .error e) : e.isConnectionFatal = true := by
  unfold payloadFor at h
  split at h
  · cases h
    rfl
  · split at h <;> cases h
    rfl
  · cases h
    rfl

theorem Request.message_not_isRefusal {sender target : ClientId} {kind : MessageKind} {content : Bytes} {e : Failure}
    (h : message sender target kind content = .error e) : e.isRefusal = false := by
  unfold message at h
  split at h
  · cases h
    rfl
  · split at h <;> cases h
    rfl

def RequestCode.answer : RequestCode → ResponseCode
  | .register => .registerOk
  | .clientList => .clientList
  | .publicKey => .publicKey
  | .sendMessage => .messageSent
  | .waitingMessages => .waitingMessages

theorem RequestCode.answer_ne_generalError (code : RequestCode) : code.answer ≠ .generalError := by
  cases code <;> decide

/-- The number of bytes without which the payload of that response is of no use. -/
def RequestCode.leastAnswer : RequestCode → Nat
  | .register => 16
  | .publicKey => 176
  | .sendMessage => 20
  | .clientList | .waitingMessages => 0

def Response.Serves (r : Response) (code : RequestCode) : Prop :=
  r.header.responseCode? = some code.answer ∧ code.leastAnswer ≤ r.payload.length

def Operation.script : Operation → List RequestCode
  | .register _ => [.register]
  | .clientList | .findPeer _ => [.clientList]
  | .fetchPublicKey _ => [.publicKey]
  | .requestKey _ | .sendText _ _ | .sendFile _ _ => [.sendMessage]
  | .sendKey _ => [.publicKey, .sendMessage]
  | .fetchWaiting => [.clientList, .waitingMessages]

def Operation.refusal? (s : Session) : Operation → Option Failure
  | .register _ => s.identity.map fun me => .alreadyRegistered me.username
  | .sendText peer _ | .sendFile peer _ =>
    if s.identity.isNone then some .notRegistered
    else if (s.keys.lookup peer).isNone then some (.channelNotEstablished peer)
    else none
  | _ => if s.identity.isNone then some .notRegistered else none

namespace Session

/-- Round trips for these requests on an open connection, one after another. For each one whole request is sent and,
where that worked, its response is read: the header, and then the payload where one is announced. A further request
goes out only after a response that was read in full and serves. After anything else there is no further call. -/
inductive Exchanges : List Request → List Event → Prop
  | finished : Exchanges [] []
  | unsent {request : Request} (fault : LinkFault) : Exchanges [request] [.send request.encode (.error fault)]
  | unread {request : Request} {events : List Event} {e : Failure} (reading : Reading events (.error e)) :
      Exchanges [request] (.send request.encode (.ok ()) :: events)
  | unserved {request : Request} {events : List Event} {response : Response} (reading : Reading events (.ok response))
      (useless : ¬response.Serves request.code) : Exchanges [request] (.send request.encode (.ok ()) :: events)
  | served {request : Request} {requests : List Request} {events later : List Event} {response : Response}
      (reading : Reading events (.ok response)) (serves : response.Serves request.code)
      (rest : Exchanges requests later) :
      Exchanges (request :: requests) (.send request.encode (.ok ()) :: (events ++ later))

/-- The calls on the link of an operation that is not refused: a connect, and unless that fails the round trips of its
script, as far as they go, and a disconnect. -/
inductive Contact {α : Type} (script : List RequestCode) (result : Except Failure α) : List Event → Prop
  | refused (fault : LinkFault) (told : result = .error (transportFailure fault)) :
      Contact script result [.connect (.error fault)]
  | held {requests : List Request} {calls : List Event} (exchanges : Exchanges requests calls)
      (order : requests.map Request.code <+: script)
      (whole : ∀ a, result = .ok a → requests.map Request.code = script) :
      Contact script result (.connect (.ok ()) :: (calls ++ [.disconnect]))

def Halts (earlier later : Event) : Prop :=
  earlier.failed = true → later = .disconnect

/-- A result that goes on from another one: a failure is handed on, and none that says of a refusal is made. -/
def GoesOn {α β : Type} (result : Except Failure α) (further : Except Failure β) : Prop :=
  match result with
  | .error e => further = .error e
  | .ok _ => ∀ e, further = .error e → e.isRefusal = false

theorem goesOn_ok {α β : Type} (a : α) (b : β) : GoesOn (.ok a) (.ok b) :=
  fun _ absurd => nomatch absurd

theorem goesOn_map {α β : Type} (result : Except Failure α) (f : α → β) : GoesOn result (result.map f) := by
  cases result with
  | error e => rfl
  | ok a => exact goesOn_ok a (f a)

structure Follows {α : Type} (script : List RequestCode) (events : List Event) (result : Except Failure α) : Prop where
  exchanges : ∃ requests, Exchanges requests (events.filter Event.onLink) ∧ requests.map Request.code <+: script ∧
    ∀ a, result = .ok a → requests.map Request.code = script
  halts : events.Pairwise Halts
  blame : ∀ e, result = .error e → e.isRefusal = true → ∃ event ∈ events, event.cipherFailure? = some e

/-- What happened while a part of a script was followed to its end: nothing failed, and further round trips may come
after it. -/
structure Done (script : List RequestCode) (events : List Event) : Prop where
  onward : ∃ requests, requests.map Request.code = script ∧ ∀ more later, Exchanges more later →
    Exchanges (requests ++ more) (events.filter Event.onLink ++ later)
  clean : ∀ event ∈ events, event.failed = false

structure Disciplined {α : Type} (script : List RequestCode) (events : List Event) (result : Except Failure α) :
    Prop where
  contact : Contact script result (events.filter Event.onLink)
  halts : events.Pairwise Halts
  blame : ∀ e, result = .error e → e.isRefusal = true → ∃ event ∈ events, event.cipherFailure? = some e

section reading

variable {events : List Event}

theorem Reading.clean {response : Response} (h : Reading events (.ok response)) :
    ∀ event ∈ events, event.failed = false := by
  generalize hresult : (.ok response : Except Failure Response) = result at h
  rcases h with _ | _ | ⟨_, _ | _ | _ | _⟩ <;> cases hresult <;> simp [Event.failed]

theorem Reading.halts {result : Except Failure Response} (h : Reading events result) : events.Pairwise Halts := by
  rcases h with _ | _ | ⟨_, _ | _ | _ | _⟩ <;> simp [Halts, Event.failed]

theorem Reading.onLink {result : Except Failure Response} (h : Reading events result) :
    events.filter Event.onLink = events := by
  rcases h with _ | _ | ⟨_, _ | _ | _ | _⟩ <;> rfl

theorem Reading.sends_nothing {result : Except Failure Response} (h : Reading events result) :
    events.filterMap Event.sent? = [] := by
  rcases h with _ | _ | ⟨_, _ | _ | _ | _⟩ <;> rfl

private theorem failureAtEnd_fatal {atEnd : Failure} (h : atEnd.isConnectionFatal = true) (fault : LinkFault) :
    (failureAtEnd atEnd fault).isConnectionFatal = true := by
  cases fault with
  | endOfStream reason => exact h
  | _ => rfl

theorem Reading.fatal {e : Failure} (h : Reading events (.error e)) : e.isConnectionFatal = true := by
  generalize hresult : (.error e : Except Failure Response) = result at h
  rcases h with fault | broken | ⟨_, _ | ⟨_, fault⟩ | _ | _⟩ <;> cases hresult
  · exact failureAtEnd_fatal rfl fault
  · exact ResponseHeader.decode_fatal broken
  · exact failureAtEnd_fatal rfl fault
  · rfl

end reading

section roundTrip

variable {request : Request} {expected : ResponseCode} {events : List Event}

theorem RoundTrip.exchanges {result : Except Failure Bytes} (h : RoundTrip request expected events result) :
    Exchanges [request] events := by
  rcases h with fault | reading | reading
  · exact .unsent fault
  · exact .unread reading
  · rename_i events response
    by_cases serves : response.Serves request.code
    · have done := Exchanges.served reading serves .finished
      rwa [List.append_nil] at done
    · exact .unserved reading serves

theorem RoundTrip.onLink {result : Except Failure Bytes} (h : RoundTrip request expected events result) :
    events.filter Event.onLink = events := by
  rcases h with fault | reading | reading
  · rfl
  · exact congrArg (Event.send _ _ :: ·) reading.onLink
  · exact congrArg (Event.send _ _ :: ·) reading.onLink

/-- All that a round trip with a payload sent is its request. -/
theorem RoundTrip.sent {payload : Bytes} (h : RoundTrip request expected events (.ok payload)) :
    events.filterMap Event.sent? = [request.encode] := by
  generalize hresult : (.ok payload : Except Failure Bytes) = result at h
  rcases h with _ | _ | reading
  · cases hresult
  · cases hresult
  · exact congrArg (request.encode :: ·) reading.sends_nothing

theorem LookingUp.onLink {id peer : ClientId} {result : Except Failure KeyAnswer}
    (h : LookingUp id peer events result) : events.filter Event.onLink = events := by
  rcases h with trip | trip <;> exact trip.onLink

theorem Delivering.onLink {id peer : ClientId} {kind : MessageKind} {content : Bytes} {result : Except Failure Receipt}
    (h : Delivering id peer kind content events result) : events.filter Event.onLink = events := by
  rcases h with _ | ⟨-, trip⟩ | ⟨-, trip⟩
  · rfl
  · exact trip.onLink
  · exact trip.onLink

theorem RoundTrip.halts {result : Except Failure Bytes} (h : RoundTrip request expected events result) :
    events.Pairwise Halts := by
  have sent {read : List Event} (hread : read.Pairwise Halts) :
      (.send request.encode (.ok ()) :: read).Pairwise Halts :=
    List.pairwise_cons.2 ⟨fun _ _ absurd => (nomatch absurd), hread⟩
  rcases h with fault | reading | reading
  · exact List.pairwise_singleton ..
  · exact sent reading.halts
  · exact sent reading.halts

/-- A connection on which a round trip failed is of no further use, however it failed. -/
theorem RoundTrip.fatal {e : Failure} (h : RoundTrip request expected events (.error e)) :
    e.isConnectionFatal = true := by
  generalize hresult : (.error e : Except Failure Bytes) = result at h
  rcases h with fault | reading | ⟨reading⟩
  · cases hresult
    rfl
  · cases hresult
    exact reading.fatal
  · exact Response.payloadFor_fatal hresult.symm

/-- A round trip is a script of one request. -/
theorem RoundTrip.follows {result : Except Failure Bytes} (h : RoundTrip request expected events result) :
    Follows [request.code] events result where
  exchanges := ⟨[request], by rw [h.onLink]; exact h.exchanges, List.prefix_refl _, fun _ _ => rfl⟩
  halts := h.halts
  blame := by
    rintro e rfl refused
    rw [Failure.not_isRefusal_of_fatal h.fatal] at refused
    cases refused

/-- A round trip that got what it asked for, and enough of it, may be followed by others. -/
theorem RoundTrip.done {payload : Bytes} (h : RoundTrip request request.code.answer events (.ok payload))
    (enough : request.code.leastAnswer ≤ payload.length) : Done [request.code] events := by
  have honLink := h.onLink
  generalize hresult : (.ok payload : Except Failure Bytes) = result at h
  rcases h with _ | _ | ⟨reading⟩
  · cases hresult
  · cases hresult
  · rename_i read response
    have htaken := Response.toOption_payloadFor request.code.answer_ne_generalError response
    rw [← hresult] at htaken
    have hserves : response.Serves request.code := by
      split at htaken
      · next hcode =>
        obtain rfl : payload = response.payload := Option.some.inj htaken
        exact ⟨hcode, enough⟩
      · cases htaken
    refine ⟨⟨[request], rfl, fun more later rest => ?_⟩, ?_⟩
    · rw [honLink]
      exact .served reading hserves rest
    · intro event hevent
      rcases List.mem_cons.1 hevent with rfl | hread
      · rfl
      · exact reading.clean event hread

end roundTrip

section following

variable {α β : Type} {script further : List RequestCode} {events later : List Event} {e : Failure}

theorem Done.drawn {event : Event} (aside : event.onLink = false) (clean : event.failed = false) : Done [] [event] where
  onward := ⟨[], rfl, fun more later rest => by rwa [List.filter_cons_of_neg (by simp [aside])]⟩
  clean := by simpa using clean

/-- A script that was followed to its end can be gone on with. -/
theorem Done.andThen {result : Except Failure α} (first : Done script events) (rest : Follows further later result) :
    Follows (script ++ further) (events ++ later) result := by
  obtain ⟨requests, rfl, honward⟩ := first.onward
  obtain ⟨more, hmore, hprefix, hwhole⟩ := rest.exchanges
  have hclean (a) (ha : a ∈ events) (b : Event) : Halts a b := by
    intro failed
    rw [first.clean a ha] at failed
    cases failed
  refine ⟨⟨requests ++ more, ?_, ?_, fun a ha => ?_⟩, ?_, fun e he refused => ?_⟩
  · rw [List.filter_append]
    exact honward more _ hmore
  · rw [List.map_append]
    exact (List.prefix_append_right_inj _).2 hprefix
  · rw [List.map_append, hwhole a ha]
  · refine List.pairwise_append.2 ⟨?_, rest.halts, ?_⟩
    · exact List.pairwise_of_forall_mem_list fun a ha b _ => hclean a ha b
    · exact fun a ha b _ => hclean a ha b
  · obtain ⟨event, hevent, hfailure⟩ := rest.blame e he refused
    exact ⟨event, List.mem_append_right _ hevent, hfailure⟩

/-- A failure before anything was sent. -/
theorem Follows.nothing (hlocal : e.isRefusal = false) : Follows script [] (.error e : Except Failure α) where
  exchanges := ⟨[], .finished, List.nil_prefix, fun _ absurd => nomatch absurd⟩
  halts := .nil
  blame := by
    rintro _ ⟨⟩ refused
    rw [hlocal] at refused
    cases refused

theorem Follows.undrawn {event : Event} (aside : event.onLink = false) (failure : event.cipherFailure? = some e) :
    Follows script [event] (.error e : Except Failure α) where
  exchanges := ⟨[], by rw [List.filter_cons_of_neg (by simp [aside])]; exact .finished, List.nil_prefix,
    fun _ absurd => nomatch absurd⟩
  halts := List.pairwise_singleton ..
  blame := by
    rintro _ ⟨⟩ -
    exact ⟨event, List.mem_singleton.2 rfl, failure⟩

/-- What follows the first part of a script and fails there follows the whole script. -/
theorem Follows.cut (h : Follows script events (.error e : Except Failure α)) :
    Follows (script ++ further) events (.error e : Except Failure β) := by
  obtain ⟨requests, hexchanges, hprefix, -⟩ := h.exchanges
  refine ⟨⟨requests, hexchanges, hprefix.trans (List.prefix_append ..), fun _ absurd => nomatch absurd⟩, h.halts, ?_⟩
  rintro _ ⟨⟩
  exact h.blame e rfl

theorem Follows.goesOn {result : Except Failure α} {result' : Except Failure β} (h : Follows script events result)
    (on : GoesOn result result') : Follows script events result' := by
  obtain ⟨requests, hexchanges, hprefix, hwhole⟩ := h.exchanges
  cases result with
  | error e =>
    obtain rfl : result' = .error e := on
    refine ⟨⟨requests, hexchanges, hprefix, fun _ absurd => nomatch absurd⟩, h.halts, ?_⟩
    rintro _ ⟨⟩
    exact h.blame e rfl
  | ok a =>
    refine ⟨⟨requests, hexchanges, hprefix, fun _ _ => hwhole a rfl⟩, h.halts, fun e he refused => ?_⟩
    rw [on e he] at refused
    cases refused

theorem Disciplined.goesOn {result : Except Failure α} {result' : Except Failure β}
    (h : Disciplined script events result) (on : GoesOn result result') : Disciplined script events result' := by
  obtain ⟨contact, halts, blame⟩ := h
  cases result with
  | error e =>
    obtain rfl : result' = .error e := on
    refine ⟨?_, halts, ?_⟩
    · generalize events.filter Event.onLink = calls at contact
      rcases contact with ⟨fault, told⟩ | ⟨exchanges, order, -⟩
      · cases told
        exact .refused fault rfl
      · exact .held exchanges order fun _ absurd => nomatch absurd
    · rintro _ ⟨⟩
      exact blame e rfl
  | ok a =>
    refine ⟨?_, halts, fun e he refused => ?_⟩
    · generalize events.filter Event.onLink = calls at contact
      rcases contact with ⟨fault, told⟩ | ⟨exchanges, order, whole⟩
      · cases told
      · exact .held exchanges order fun _ _ => whole a rfl
    · rw [on e he] at refused
      cases refused

/-- A connection around what follows a script. -/
theorem Connected.disciplined {inside : Course α} {s s' : Session} {result : Except Failure α}
    (h : Connected inside s events result s')
    (follows : ∀ ⦃events result s'⦄, inside s events result s' → Follows script events result) :
    Disciplined script events result := by
  cases h with
  | refused s fault =>
    refine ⟨.refused fault rfl, List.pairwise_singleton .., ?_⟩
    rintro _ ⟨⟩ refused
    cases refused
  | held taken =>
    obtain ⟨⟨requests, hexchanges, hprefix, hwhole⟩, halts, blame⟩ := follows taken
    refine ⟨?_, ?_, fun e he refused => ?_⟩
    · rw [List.filter_cons_of_pos rfl, List.filter_append]
      exact .held hexchanges hprefix hwhole
    · refine List.pairwise_cons.2 ⟨fun _ _ absurd => (nomatch absurd), List.pairwise_append.2 ⟨halts, ?_, ?_⟩⟩
      · exact List.pairwise_singleton ..
      · intro _ _ event hevent _
        exact List.mem_singleton.1 hevent
    · obtain ⟨event, hevent, hfailure⟩ := blame e he refused
      exact ⟨event, by simp [hevent], hfailure⟩

end following

end Session

end SealedPost
