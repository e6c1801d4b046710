import Mathlib.Control.Monad.Basic
import SealedPost.Cipher.Transparent
import SealedPost.Link.Scripted
import SealedPost.Proofs.History

/-! A failed operation leaves a client as it was: who it is, every key that it holds, and its directory too, unless a
new one was told before the failure. -/
namespace SealedPost

namespace Event

/-- The responses that come in whole in a record of calls: a header that can be read, and as much payload as it
announces. `due` is a header whose payload is still to come. -/
def responses : Option ResponseHeader → List Event → List Response
  | _, [] => []
  | none, .receive _ (.ok head) :: events =>
    match ResponseHeader.decode head with
    | .error _ => responses none events
    | .ok header =>
      if header.payloadSize.toNat = 0 then ⟨header, []⟩ :: responses none events else responses (some header) events
  | some header, .receive _ (.ok payload) :: events =>
    if payload.length = header.payloadSize.toNat then ⟨header, payload⟩ :: responses none events
    else responses none events
  | _, _ :: events => responses none events

/-- The payload of the first whole response with a directory. -/
def listing? (events : List Event) : Option Bytes :=
  ((responses none events).find? (·.header.responseCode? = some .clientList)).map Response.payload

end Event

/-- Of the payload of a response, that is what is taken where this code is expected. -/
theorem Response.toOption_payloadFor {expected : ResponseCode} (h : expected ≠ .generalError) (r : Response) :
    (r.payloadFor expected).toOption = if r.header.responseCode? = some expected then some r.payload else none := by
  unfold payloadFor
  split
  · next hcode => rw [hcode, if_neg fun heq => h (Option.some.inj heq).symm]; rfl
  · next code _ hcode =>
    rw [hcode]
    by_cases heq : code = expected <;> simp [heq, Except.toOption]
  · next hcode => rw [hcode]; rfl

namespace Session

/-- What was read whole is the first response in the record. -/
theorem Reading.responses_append {events : List Event} {result : Except Failure Response} (h : Reading events result)
    (rest : List Event) :
    Event.responses none (events ++ rest) = result.toOption.toList ++ Event.responses none rest := by
  rcases h with fault | broken | ⟨read, empty | ⟨announced, fault⟩ | ⟨announced, misfit⟩ | ⟨announced, fits⟩⟩
  · rfl
  · simp [Event.responses, broken, Except.toOption]
  · simp [Event.responses, read, empty, Except.toOption]
  · simp [Event.responses, read, announced, Except.toOption]
  · simp [Event.responses, read, announced, misfit, Except.toOption]
  · simp [Event.responses, read, announced, fits, Except.toOption]

/-- A round trip reads one response at most, and what it returns is taken from there. -/
theorem RoundTrip.told {request : Request} {expected : ResponseCode} {events : List Event}
    {result : Except Failure Bytes} (h : RoundTrip request expected events result) : ∃ told : Option Response,
      (∀ rest, Event.responses none (events ++ rest) = told.toList ++ Event.responses none rest) ∧
      result.toOption = told.bind fun response => (response.payloadFor expected).toOption := by
  have sent (read rest : List Event) : Event.responses none (.send request.encode (.ok ()) :: read ++ rest) =
      Event.responses none (read ++ rest) := rfl
  rcases h with fault | reading | reading
  · exact ⟨none, fun _ => rfl, rfl⟩
  · exact ⟨none, fun rest => by rw [sent, reading.responses_append]; rfl, rfl⟩
  · rename_i response
    exact ⟨some response, fun rest => by rw [sent, reading.responses_append]; rfl, rfl⟩

/-- What a round trip for the directory takes is the first directory that is told in it. -/
theorem RoundTrip.listing?_append {id : ClientId} {events : List Event} {result : Except Failure Bytes}
    (h : RoundTrip (.clientList id) .clientList events result) (rest : List Event) :
    Event.listing? (events ++ rest) = result.toOption.or (Event.listing? rest) := by
  obtain ⟨told, hread, htaken⟩ := h.told
  rw [Event.listing?, hread, htaken]
  cases told with
  | none => rfl
  | some response =>
    rw [Option.bind_some, Response.toOption_payloadFor (by decide)]
    by_cases hcode : response.header.responseCode? = some .clientList <;> simp [Event.listing?, hcode]

/-- The session with the first directory that is told in a record of calls, or as it is if none is. -/
def withListing (s : Session) (events : List Event) : Session :=
  { s with directory := (Event.listing? events).elim s.directory .ofPayload }

variable {α : Type} {id : ClientId} {s s' : Session} {events : List Event}

/-- Asking for the directory keeps what is told, and nothing where nothing is. -/
theorem Refreshing.eq_withListing {result : Except Failure Unit} (h : Refreshing id s events result s')
    (rest : List Event) (quiet : ∀ e, result = .error e → Event.listing? rest = none) :
    s' = s.withListing (events ++ rest) := by
  rcases h with trip | trip
  · rw [withListing, trip.listing?_append, quiet _ rfl]
    rfl
  · rw [withListing, trip.listing?_append]
    rfl

theorem Fetching.eq_withListing {result : Except Failure Bytes} (h : Fetching id s events result s') :
    s' = s.withListing (events ++ [.disconnect]) := by
  rcases h with refresh | ⟨refresh, trip⟩
  · exact refresh.eq_withListing _ fun _ _ => rfl
  · rw [List.append_assoc]
    exact refresh.eq_withListing _ nofun

theorem Connected.eq_withListing {course : Course α} {result : Except Failure α}
    (h : ∀ ⦃events result s'⦄, course s events result s' → s' = s.withListing (events ++ [.disconnect]))
    (connected : Connected course s events result s') : s' = s.withListing events := by
  rcases connected with fault | inside
  · rfl
  · exact h inside

theorem Registered.eq_withListing {course : ClientId → Course α} {result : Except Failure α}
    (h : ∀ ⦃id result s'⦄, course id s events result s' → s' = s.withListing events)
    (registered : Registered course s events result s') : s' = s.withListing events := by
  rcases registered with _ | ⟨_, taken⟩
  · rfl
  · exact h taken

theorem Finding.eq_withListing {name : String} {result : Except Failure Peer} (h : Finding name s events result s') :
    s' = s.withListing events := by
  have listing {events : List Event} {result : Except Failure Directory}
      (listed : Registered Listing s events result s') : s' = s.withListing events := by
    refine Registered.eq_withListing (fun id result s' course => ?_) listed
    rcases course with course | course <;>
      exact Connected.eq_withListing (fun _ _ _ refresh => refresh.eq_withListing _ fun _ _ => rfl) course
  rcases h with listed | ⟨listed, ⟨rfl, -⟩, rfl⟩
  · exact listing listed
  · rw [List.append_nil]
    exact listing listed

theorem Collecting.failed_eq_withListing {ciphers : Ciphers} {e : Failure}
    (h : Collecting ciphers id s events (.error e) s') : s' = s.withListing events := by
  cases h with
  | failed course => exact Connected.eq_withListing (fun _ _ _ fetching => fetching.eq_withListing) course

end Session

/-- Wherever a course of this kind fails, the session is as it was. -/
def Course.FailsClean {α : Type} (course : Course α) : Prop :=
  ∀ ⦃s events e s'⦄, course s events (.error e) s' → s' = s

section failsClean
open Session

variable {α β : Type}

theorem Course.FailsClean.mapped {course : Course α} (h : course.FailsClean) (f : α → β) :
    (course.mapped f).FailsClean := by
  rintro s events e s' ⟨_ | _, hended, taken⟩
  · exact h taken
  · cases hended

theorem Course.FailsClean.registered {course : ClientId → Course α} (h : ∀ id, (course id).FailsClean) :
    (Registered course).FailsClean := by
  rintro s events e s' (_ | ⟨_, taken⟩)
  · rfl
  · exact h _ taken

namespace Session

theorem Connected.failsClean_still (course : List Event → Except Failure α → Prop) :
    (Connected (.still course)).FailsClean :=
  fun _ _ _ _ connected => connected.session_eq

theorem Registering.failsClean (username : String) : (Registering username).FailsClean := by
  rintro s events e s' (_ | _ | _ | _) <;> rfl

theorem Listing.failsClean (id : ClientId) : (Listing id).FailsClean := by
  intro s events e s' h
  cases h with
  | failed course =>
    cases course with
    | refused fault => rfl
    | held inside =>
      cases inside
      rfl

theorem KeySharing.failsClean (peer id : ClientId) : (KeySharing peer id).FailsClean := by
  intro s events e s' h
  cases h with
  | failed course => rfl

theorem ContentSending.failsClean (ciphers : Ciphers) (peer : ClientId) (kind : MessageKind) (plaintext : Bytes)
    (id : ClientId) : (ContentSending ciphers peer kind plaintext id).FailsClean := by
  intro s events e s' h
  cases h with
  | keyless unheld => rfl
  | keyed held course => rfl

end Session

def Operation.goesOnAfterListing : Operation → Bool
  | .findPeer _ | .fetchWaiting => true
  | _ => false

/-- A failed operation leaves the session as it was, but for the directory that came before it went on. -/
theorem Operation.course_failed {ciphers : Ciphers} {op : Operation} {s s' : Session} {events : List Event}
    {e : Failure} (h : op.course ciphers s events (.error e) s') :
    s' = if op.goesOnAfterListing then s.withListing events else s := by
  cases op with
  | register username => exact (Registering.failsClean username).mapped _ h
  | clientList => exact (Course.FailsClean.registered Listing.failsClean).mapped _ h
  | findPeer name =>
    obtain ⟨ended, -, finding⟩ := h
    exact finding.eq_withListing
  | fetchPublicKey peer => exact (Course.FailsClean.registered fun id => Connected.failsClean_still _).mapped _ h
  | requestKey peer => exact (Course.FailsClean.registered fun id => Connected.failsClean_still _).mapped _ h
  | sendKey peer => exact (Course.FailsClean.registered (KeySharing.failsClean peer)).mapped _ h
  | sendText peer text => exact (Course.FailsClean.registered (ContentSending.failsClean _ _ _ _)).mapped _ h
  | sendFile peer contents => exact (Course.FailsClean.registered (ContentSending.failsClean _ _ _ _)).mapped _ h
  | fetchWaiting =>
    obtain ⟨ended, hended, _ | ⟨_, collecting⟩⟩ := h
    · rfl
    · cases ended with
      | ok received => cases hended
      | error e => exact collecting.failed_eq_withListing

end failsClean

/-- A failed operation leaves a client as it was. Whatever the operation and however its surroundings behave, a failure
leaves the identity and all keys alone, an older key for the same peer included. The directory stays too, unless the
operation was to find a peer or to fetch messages and a whole response with a directory came in before the failure:
then it is exactly what that response told. -/
theorem Session.failed_operation_leaves_client {w : Type} (env : Surroundings (StateM w)) (op : Operation) (s : Session)
    (x : w) (e : Failure) (failed : ((Move.operate op).step env s x).1.result = .error e) :
    let step := ((Move.operate op).step env s x).1
    step.after.identity = s.identity ∧ step.after.keys = s.keys ∧
      (op.goesOnAfterListing = true → ∀ payload, Event.listing? step.events = some payload →
        step.after.directory = .ofPayload payload) ∧
      (op.goesOnAfterListing = false ∨ Event.listing? step.events = none → step.after.directory = s.directory) := by
  intro step
  have hcourse := (Move.operate op).step_course env s x
  rw [failed] at hcourse
  have hafter : step.after = if op.goesOnAfterListing then s.withListing step.events else s :=
    Operation.course_failed hcourse
  cases hop : op.goesOnAfterListing with
  | false =>
    rw [hop] at hafter
    rw [hafter]
    exact ⟨rfl, rfl, nofun, fun _ => rfl⟩
  | true =>
    rw [hop] at hafter
    rw [hafter]
    refine ⟨rfl, rfl, fun _ payload htold => ?_, ?_⟩
    · exact congrArg (Option.elim · s.directory Directory.ofPayload) htold
    · rintro (habsurd | hquiet)
      · cases habsurd
      · exact congrArg (Option.elim · s.directory Directory.ofPayload) hquiet

open Transparent in
theorem Session.rejected_fetch_keeps_directory :
    let me : Identity := ⟨"alice", .replicate 1, ⟨[7]⟩, ⟨.replicate 160 7⟩⟩
    let bob : ClientId := .replicate 2
    let s : Session := ⟨some me, KeyRing.empty.establish bob ⟨.replicate 16 5⟩, ⟨[⟨bob, "bob"⟩]⟩⟩
    let listing := Peer.encode ⟨.replicate 3, "carol"⟩
    let env : Surroundings (StateM ScriptedLink) :=
      ⟨ScriptedLink.link, suite ⟨pure (.error .random), pure (.error .random), pure []⟩⟩
    let x : ScriptedLink := { script := [{ reply := (Response.ofPayload .clientList listing).encode },
      { reply := (Response.ofPayload .generalError []).encode }] }
    let step := ((Move.operate .fetchWaiting).step env s x).1
    step.result = .error .serverRejected ∧ step.after.identity = some me ∧ step.after.keys = s.keys ∧
      step.after.directory = .ofPayload listing := by
  intro me bob s listing env x step
  have failed : step.result = .error .serverRejected := by decide +kernel
  have htold : Event.listing? step.events = some listing := by decide +kernel
  obtain ⟨hidentity, hkeys, hdirectory, -⟩ := failed_operation_leaves_client env .fetchWaiting s x _ failed
  exact ⟨failed, hidentity, hkeys, hdirectory rfl listing htold⟩

end SealedPost
