import Mathlib.Control.Monad.Basic
import SealedPost.Proofs.Discipline
import SealedPost.Proofs.Sealing

/-! The life of an identity: a client has none until one registration is granted, and keeps that one for good. The id in
it is what the relay says it is, the all-zero id included. -/
namespace SealedPost

namespace Event

def drawnPair? : Event → Option KeyPair
  | .freshKeyPair (.ok pair) => some pair
  | _ => none

theorem drawnPair?_of_onLink (event : Event) (h : event.onLink = true) : event.drawnPair? = none := by
  cases event with
  | freshKeyPair outcome => cases h
  | _ => rfl

end Event

/-- A registration went through: a key pair was generated, the connection opened, one request went out, and the one
response that was read whole says RegisterOk and holds an id. -/
structure Granted (events : List Event) (pair : KeyPair) (response : Response) : Prop where
  generated : events.filterMap Event.drawnPair? = [pair]
  opened : .connect (.ok ()) ∈ events
  sent : ∃ bytes, events.filterMap Event.sent? = [bytes]
  read : Event.responses none events = [response]
  accepted : response.header.responseCode? = some .registerOk
  holdsId : 16 ≤ response.payload.length

namespace Step

structure StaysUnassigned (step : Step) : Prop where
  before : step.before.identity = none
  after : step.after.identity = none
  failed : ∀ username, step.move = .operate (.register username) → ∃ e, step.result = .error e

/-- The registration that makes a client who it is: under the name it was given and the id that came back, with the one
key pair that was generated. The public half is what the one request ends in. -/
structure Adopts (step : Step) (me : Identity) : Prop where
  before : step.before.identity = none
  move : step.move = .operate (.register me.username)
  result : step.result = .ok (.registered me.id)
  after : step.after.identity = some me
  generated : step.events.filterMap Event.drawnPair? = [⟨me.privateKey, me.publicKey⟩]
  sent : ∃ bytes payload, step.events.filterMap Event.sent? = [bytes] ∧ payload = bytes.drop RequestHeader.size ∧
    160 ≤ payload.length ∧ payload.drop (payload.length - 160) = me.publicKey.toBytes

/-- A step of a client that is registered. Registering again is refused by the name, and nothing is asked for. -/
structure Remains (step : Step) (me : Identity) : Prop where
  before : step.before.identity = some me
  after : step.after.identity = some me
  refused : ∀ username, step.move = .operate (.register username) →
    step.result = .error (.alreadyRegistered me.username) ∧ step.events = []

end Step

/-- The two phases of a run that starts without an identity, with the identity at its end. -/
inductive LifeCycle : List Step → Option Identity → Prop
  | unassigned {steps : List Step} (stays : ∀ step ∈ steps, step.StaysUnassigned) : LifeCycle steps none
  | assigned {earlier later : List Step} {step : Step} {me : Identity} (stays : ∀ step ∈ earlier, step.StaysUnassigned)
      (adopts : step.Adopts me) (remains : ∀ step ∈ later, step.Remains me) :
      LifeCycle (earlier ++ step :: later) (some me)

theorem LifeCycle.cons {first : Step} {steps : List Step} {identity : Option Identity} (h : first.StaysUnassigned)
    (rest : LifeCycle steps identity) : LifeCycle (first :: steps) identity := by
  cases rest with
  | unassigned stays => exact .unassigned (List.forall_mem_cons.2 ⟨h, stays⟩)
  | assigned stays adopts remains =>
    rw [← List.cons_append]
    exact .assigned (List.forall_mem_cons.2 ⟨h, stays⟩) adopts remains

/-- A run came to the id that a client has by a registration that returned it, and to no other id. -/
theorem LifeCycle.registered_iff {steps : List Step} {identity : Option Identity} (h : LifeCycle steps identity)
    (id : ClientId) : (∃ step ∈ steps, ∃ username, step.move = .operate (.register username) ∧
      step.result = .ok (.registered id)) ↔ ∃ me, identity = some me ∧ me.id = id := by
  have unfulfilled {step : Step} (stays : step.StaysUnassigned) {username : String}
      (move : step.move = .operate (.register username)) : step.result ≠ .ok (.registered id) := by
    obtain ⟨e, failed⟩ := stays.failed username move
    rw [failed]
    exact nofun
  cases h with
  | unassigned stays =>
    constructor
    · rintro ⟨step, hstep, username, move, result⟩
      exact absurd result (unfulfilled (stays step hstep) move)
    · rintro ⟨me, ⟨⟩, -⟩
  | assigned stays adopts remains =>
    rename_i earlier later adopting me
    constructor
    · rintro ⟨step, hstep, username, move, result⟩
      rcases List.mem_append.1 hstep with hearlier | hrest
      · exact absurd result (unfulfilled (stays step hearlier) move)
      · rcases List.mem_cons.1 hrest with rfl | hlater
        · rw [adopts.result] at result
          cases result
          exact ⟨me, rfl, rfl⟩
        · rw [((remains step hlater).refused username move).1] at result
          cases result
    · rintro ⟨_, ⟨⟩, rfl⟩
      exact ⟨adopting, by simp, me.username, adopts.move, adopts.result⟩

namespace Session

section connected

variable {request : Request} {expected : ResponseCode} {result : Except Failure Bytes} {events : List Event}
  {s s' : Session}

/-- A connection for one round trip has a payload exactly if the one response that was read in it has the expected
code, and then it is the payload of that response. -/
theorem Connected.eq_ok_iff (h : Connected (.still (RoundTrip request expected)) s events result s')
    (hexpected : expected ≠ .generalError) (payload : Bytes) : result = .ok payload ↔ ∃ response,
      Event.responses none events = [response] ∧ response.header.responseCode? = some expected ∧
      response.payload = payload := by
  have htold : ∃ told : Option Response, Event.responses none events = told.toList ∧
      result.toOption = told.bind fun response => (response.payloadFor expected).toOption := by
    rcases h with fault | ⟨trip, -⟩
    · exact ⟨none, rfl, rfl⟩
    · obtain ⟨told, hread, htaken⟩ := trip.told
      exact ⟨told, (hread [.disconnect]).trans (List.append_nil _), htaken⟩
  have hok : result = .ok payload ↔ result.toOption = some payload := by
    cases result <;> simp [Except.toOption]
  obtain ⟨told, hread, htaken⟩ := htold
  rw [hok, htaken, hread]
  cases told with
  | none => simp
  | some response => simp [Response.toOption_payloadFor hexpected]

/-- What a connection for one round trip did where it has a payload. -/
theorem Connected.sent {payload : Bytes}
    (h : Connected (.still (RoundTrip request expected)) s events (.ok payload) s') :
    .connect (.ok ()) ∈ events ∧ events.filterMap Event.sent? = [request.encode] := by
  generalize hresult : (.ok payload : Except Failure Bytes) = result at h
  rcases h with _ | ⟨trip, -⟩
  · cases hresult
  · subst hresult
    exact ⟨List.mem_cons_self, (Event.filterMap_connected rfl rfl _).trans trip.sent⟩

theorem Connected.no_pair (h : Connected (.still (RoundTrip request expected)) s events result s') :
    events.filterMap Event.drawnPair? = [] := by
  rcases h with _ | ⟨trip, -⟩
  · rfl
  · rw [Event.filterMap_connected rfl rfl]
    exact Event.filterMap_eq_nil trip.onLink Event.drawnPair?_of_onLink

end connected

section registering

variable {username : String} {events : List Event} {s s' : Session}

/-- After a key pair was drawn, a registration is granted exactly if its round trip has a payload with an id in it. -/
theorem granted_iff {pair : KeyPair} {ended : Except Failure Bytes}
    (trip : Connected (.still (RoundTrip (.register username pair.publicKey) .registerOk)) s events ended s')
    (id : ClientId) :
    (∃ drawn response, Granted (.freshKeyPair (.ok pair) :: events) drawn response ∧
      id.toBytes = response.payload.take 16) ↔ ∃ payload, ended = .ok payload ∧ ClientId.first? payload = some id := by
  constructor
  · rintro ⟨drawn, response, granted, hid⟩
    refine ⟨response.payload, ?_, ClientId.first?_eq_some_iff.2 ⟨granted.holdsId, hid⟩⟩
    exact (trip.eq_ok_iff nofun _).2 ⟨response, granted.read, granted.accepted, rfl⟩
  · rintro ⟨payload, rfl, given⟩
    obtain ⟨response, hread, haccepted, rfl⟩ := (trip.eq_ok_iff nofun payload).1 rfl
    obtain ⟨hlong, hid⟩ := ClientId.first?_eq_some_iff.1 given
    obtain ⟨hopened, hsent⟩ := trip.sent
    refine ⟨pair, response, ⟨?_, List.mem_cons_of_mem _ hopened, ⟨_, hsent⟩, hread, haccepted, hlong⟩, hid⟩
    exact congrArg (pair :: ·) trip.no_pair

/-- Registering gives an id exactly if it was granted, and the id is the one in the response. -/
theorem Registering.eq_ok_iff {result : Except Failure ClientId} (h : Registering username s events result s')
    (id : ClientId) : result = .ok id ↔ ∃ pair response, Granted events pair response ∧
      id.toBytes = response.payload.take 16 := by
  cases h with
  | already registered =>
    constructor
    · nofun
    · rintro ⟨pair, response, granted, -⟩
      exact nomatch granted.opened
  | undrawn unregistered e =>
    constructor
    · nofun
    · rintro ⟨pair, response, granted, -⟩
      exact absurd (List.mem_singleton.1 granted.opened) nofun
  | failed unregistered trip =>
    rw [granted_iff trip]
    simp
  | short unregistered trip idless =>
    rw [granted_iff trip]
    simp [idless]
  | assigned unregistered trip given =>
    rw [granted_iff trip]
    simp [given]

/-- The name and the key make up the payload of a registration, and the key is at its end. -/
theorem register_payload (username : String) (key : PublicKey) :
    160 ≤ (Request.register username key).payload.length ∧
      (Request.register username key).payload.drop ((Request.register username key).payload.length - 160) =
        key.toBytes := by
  have hname : (nameField username).length = 255 := Bytes.length_padded _ _
  have hkey := key.length_toBytes
  rw [Request.payload, List.length_append, hname, hkey]
  exact ⟨by decide, List.drop_left' hname⟩

/-- A registration either fails and gives no identity, or it makes the client who it is. -/
theorem Registering.stays_or_adopts {result : Except Failure ClientId} (h : Registering username s events result s')
    (unassigned : s.identity = none) :
    (Step.mk s (.operate (.register username)) events (result.map Reply.registered) s').StaysUnassigned ∨
      ∃ me, (Step.mk s (.operate (.register username)) events (result.map Reply.registered) s').Adopts me := by
  cases h with
  | already registered =>
    rw [unassigned] at registered
    cases registered
  | undrawn _ e => exact .inl ⟨unassigned, unassigned, fun _ _ => ⟨e, rfl⟩⟩
  | failed _ trip => exact .inl ⟨unassigned, unassigned, fun _ _ => ⟨_, rfl⟩⟩
  | short _ trip idless => exact .inl ⟨unassigned, unassigned, fun _ _ => ⟨_, rfl⟩⟩
  | @assigned _ pair inside payload id _ trip given =>
    refine .inr ⟨⟨username, id, pair.privateKey, pair.publicKey⟩, unassigned, rfl, rfl, rfl, ?_, ?_⟩
    · exact congrArg (pair :: ·) trip.no_pair
    · have hsent : (Event.freshKeyPair (.ok pair) :: inside).filterMap Event.sent? =
          [(Request.register username pair.publicKey).encode] := (List.filterMap_cons_none rfl).trans trip.sent.2
      exact ⟨_, _, hsent, (Request.drop_encode _).symm, register_payload username pair.publicKey⟩

end registering

end Session

namespace Move

variable {ciphers : Ciphers} {move : Move} {s s' : Session} {events : List Event} {result : Except Failure Reply}

/-- No move but a registration changes who a client is. -/
theorem course_identity (h : move.course ciphers s events result s')
    (hmove : ∀ username, move ≠ .operate (.register username)) : s'.identity = s.identity := by
  cases move with
  | process message =>
    obtain ⟨-, -, rfl⟩ := h
    rw [Session.absorb_session]
  | operate op =>
    have hop : op.course ciphers s events result s' := h
    cases op with
    | register username => exact absurd rfl (hmove username)
    | sendKey peer => obtain ⟨ended, -, _ | ⟨_, course | course⟩⟩ := h <;> rfl
    | fetchWaiting =>
      obtain ⟨ended, -, _ | ⟨_, course | course⟩⟩ := h
      · rfl
      · exact congrArg Prod.fst (Session.Connected.keepsSecrets (Session.fetching_keepsSecrets _) course)
      · rw [Session.absorbAll_session]
        exact congrArg Prod.fst (Session.Connected.keepsSecrets (Session.fetching_keepsSecrets _) course)
    | _ => exact congrArg Prod.fst (Operation.course_keepsSecrets ciphers (by simp) (by simp) (by simp) hop)

/-- A client without an identity stays so or takes one on. -/
theorem stays_or_adopts (h : move.course ciphers s events result s') (unassigned : s.identity = none) :
    (Step.mk s move events result s').StaysUnassigned ∨ ∃ me, (Step.mk s move events result s').Adopts me := by
  by_cases hmove : ∃ username, move = .operate (.register username)
  · obtain ⟨username, rfl⟩ := hmove
    obtain ⟨ended, rfl, course⟩ := h
    exact course.stays_or_adopts unassigned
  · rw [not_exists] at hmove
    have hkept := (course_identity h hmove).trans unassigned
    exact .inl ⟨unassigned, hkept, fun username heq => absurd heq (hmove username)⟩

theorem remains {me : Identity} (h : move.course ciphers s events result s') (registered : s.identity = some me) :
    (Step.mk s move events result s').Remains me := by
  by_cases hmove : ∃ username, move = .operate (.register username)
  · obtain ⟨username, rfl⟩ := hmove
    obtain ⟨ended, rfl, course⟩ := h
    obtain ⟨rfl, rfl⟩ := course.of_some registered
    obtain rfl : s' = s := Session.Registering.failsClean username course
    exact ⟨registered, registered, fun _ _ => ⟨rfl, rfl⟩⟩
  · rw [not_exists] at hmove
    have hkept := (course_identity h hmove).trans registered
    exact ⟨registered, hkept, fun username heq => absurd heq (hmove username)⟩

end Move

namespace Session

variable {w : Type} (env : Surroundings (StateM w))

/-- A registered client keeps its identity over every run. -/
theorem run_remains {s : Session} {me : Identity} (registered : s.identity = some me) (x : w) (moves : List Move) :
    (∀ step ∈ (run env s x moves).1, step.Remains me) ∧ (run env s x moves).2.identity = some me := by
  induction moves generalizing s x with
  | nil => exact ⟨fun _ absurd => (nomatch absurd), registered⟩
  | cons move moves ih =>
    rw [run_cons]
    have hfirst := Move.remains (move.step_course env s x) registered
    obtain ⟨hrest, hlast⟩ := ih hfirst.after (move.step env s x).2
    exact ⟨List.forall_mem_cons.2 ⟨hfirst, hrest⟩, hlast⟩

/-- Each step of an unassigned client leaves it so or adopts an identity, and from there on it remains. -/
theorem run_lifeCycle {s : Session} (unassigned : s.identity = none) (x : w) (moves : List Move) :
    LifeCycle (run env s x moves).1 (run env s x moves).2.identity := by
  induction moves generalizing s x with
  | nil =>
    rw [show (run env s x []).2.identity = none from unassigned]
    exact .unassigned (List.forall_mem_nil _)
  | cons move moves ih =>
    rw [run_cons]
    rcases Move.stays_or_adopts (move.step_course env s x) unassigned with hstays | ⟨me, hadopts⟩
    · exact (ih hstays.after _).cons hstays
    · obtain ⟨hremains, hlast⟩ := run_remains env hadopts.after (move.step env s x).2 moves
      dsimp only
      rw [hlast]
      exact .assigned (List.forall_mem_nil _) hadopts hremains

/-- An identity is taken on once. Whatever a client that starts without one is made to do and however its surroundings
behave, a registration returns an id exactly if it is granted, and the id is the first 16 bytes of the response. The
client is unassigned until the first such registration, which makes it who it is, and from there on no step changes
that: to register again is refused without a key pair or a call to the relay. -/
theorem identity_is_taken_on_once (x : w) (moves : List Move) :
    (∀ step ∈ (run env {} x moves).1, ∀ username id, step.move = .operate (.register username) →
      (step.result = .ok (.registered id) ↔ ∃ pair response, Granted step.events pair response ∧
        id.toBytes = response.payload.take 16)) ∧
      LifeCycle (run env {} x moves).1 (run env {} x moves).2.identity := by
  refine ⟨?_, run_lifeCycle env rfl x moves⟩
  refine forall_mem_run env (fun step => ∀ username id, step.move = .operate (.register username) →
    (step.result = .ok (.registered id) ↔ ∃ pair response, Granted step.events pair response ∧
      id.toBytes = response.payload.take 16)) (fun move s y username id hmove => ?_) {} x moves
  have hcourse := move.step_course env s y
  obtain rfl : move = .operate (.register username) := hmove
  obtain ⟨ended, hended, course⟩ := hcourse
  rw [hended, ← course.eq_ok_iff id]
  cases ended <;> simp [Except.map]

open Transparent in
theorem alice_registers_at_second_try :
    let pair : KeyPair := ⟨⟨[7]⟩, ⟨.replicate 160 7⟩⟩
    let env : Surroundings (StateM ScriptedLink) :=
      ⟨ScriptedLink.link, suite ⟨pure (.ok pair), pure (.error .random), pure []⟩⟩
    let x : ScriptedLink := { script := [{ reply := (Response.ofPayload .generalError []).encode },
      { reply := (Response.ofPayload .registerOk (List.replicate 17 3)).encode }] }
    let steps := (run env {} x
      [.operate (.register "alice"), .operate (.register "alice"), .operate (.register "eve")]).1
    steps.map Step.result =
        [.error .serverRejected, .ok (.registered (.replicate 3)), .error (.alreadyRegistered "alice")] ∧
      LifeCycle steps (some ⟨"alice", .replicate 3, pair.privateKey, pair.publicKey⟩) := by
  intro pair env x steps
  obtain ⟨-, hcycle⟩ := identity_is_taken_on_once env x
    [.operate (.register "alice"), .operate (.register "alice"), .operate (.register "eve")]
  have hlast : (run env {} x [.operate (.register "alice"), .operate (.register "alice"),
      .operate (.register "eve")]).2.identity = some ⟨"alice", .replicate 3, pair.privateKey, pair.publicKey⟩ := by
    decide +kernel
  rw [hlast] at hcycle
  exact ⟨by decide +kernel, hcycle⟩

/-- Where the all-zero id goes out. A run that starts without an identity sends it with anything but a registration
exactly after a registration that returned it: the relay may give that id as any other, and the client then goes by
it. -/
theorem zero_id_sent_iff_given (x : w) (moves : List Move) (earlier later : List Step)
    (step : Step) (hrun : (run env {} x moves).1 = earlier ++ step :: later) (b : Bytes)
    (o : Except LinkFault Unit) (hsend : .send b o ∈ step.events) :
    ∃ header, RequestHeader.decode b = .ok header ∧
      (header.clientId = .unassigned ∧ header.code ≠ RequestCode.register.number ↔
        ∃ before ∈ earlier, ∃ username, before.move = .operate (.register username) ∧
          before.result = .ok (.registered .unassigned)) := by
  obtain ⟨done, hearlier, hbefore⟩ := run_split env hrun
  have hcycle := run_lifeCycle env (show Session.identity {} = none from rfl) x done
  have hmem : step ∈ (run env {} x moves).1 := by rw [hrun]; simp
  obtain ⟨request, hpermitted, rfl⟩ :=
    forall_mem_run env _ (fun move => move.step_permitted env) {} x moves step hmem b o hsend
  refine ⟨request.header, request.decode_encode, ?_⟩
  have hsender := hpermitted.sender_eq
  rw [hearlier, hbefore] at hcycle
  rw [hcycle.registered_iff]
  cases hidentity : step.before.identity with
  | none =>
    rw [hidentity] at hsender
    simp [Request.header, hsender.1]
  | some me =>
    rw [hidentity] at hsender
    have hcode : request.code.number ≠ RequestCode.register.number := by
      intro heq
      have hof := congrArg RequestCode.ofNumber? heq
      rw [RequestCode.ofNumber?_number, RequestCode.ofNumber?_number] at hof
      exact hsender.1 (Option.some.inj hof)
    simp [Request.header, hsender.2, hcode]

open Transparent in
theorem given_id_is_sent_on :
    let env : Surroundings (StateM ScriptedLink) :=
      ⟨ScriptedLink.link, suite ⟨pure (.ok ⟨⟨[7]⟩, ⟨.replicate 160 7⟩⟩), pure (.error .random), pure []⟩⟩
    let x : ScriptedLink := { script := [{ reply := (Response.ofPayload .registerOk (List.replicate 16 3)).encode }] }
    let registering := (Move.operate (.register "alice")).step env {} x
    let listing := ((Move.operate .clientList).step env registering.1.after registering.2).1
    .send (Request.clientList (.replicate 3)).encode (.ok ()) ∈ listing.events ∧
      ¬∃ step ∈ [registering.1], ∃ username, step.move = .operate (.register username) ∧
        step.result = .ok (.registered .unassigned) := by
  intro env x registering listing
  have hsend : .send (Request.clientList (.replicate 3)).encode (.ok ()) ∈ listing.events :=
    Event.mem_of_sent (by decide +kernel)
  obtain ⟨header, hdecode, hiff⟩ := zero_id_sent_iff_given env x
    [.operate (.register "alice"), .operate .clientList] [registering.1] [] listing rfl _ _ hsend
  rw [Request.decode_encode] at hdecode
  obtain rfl := Except.ok.inj hdecode
  refine ⟨hsend, ?_⟩
  rw [← hiff]
  decide

open Transparent in
theorem zero_id_asks_for_directory :
    let env : Surroundings (StateM ScriptedLink) :=
      ⟨ScriptedLink.link, suite ⟨pure (.ok ⟨⟨[7]⟩, ⟨.replicate 160 7⟩⟩), pure (.error .random), pure []⟩⟩
    let x : ScriptedLink := { script := [{ reply := (Response.ofPayload .registerOk (List.replicate 16 0)).encode },
      { reply := (Response.ofPayload .clientList []).encode }] }
    let steps := (run env {} x [.operate (.register "alice"), .operate .clientList]).1
    ¬∀ step ∈ steps, ∀ b o, .send b o ∈ step.events → ∀ header, RequestHeader.decode b = .ok header →
      header.clientId = .unassigned → header.code = RequestCode.register.number := by
  intro env x steps onlyRegister
  let registering := (Move.operate (.register "alice")).step env {} x
  let listing := ((Move.operate .clientList).step env registering.1.after registering.2).1
  have hmem : listing ∈ steps := List.mem_cons_of_mem _ List.mem_cons_self
  have hsend : .send (Request.clientList .unassigned).encode (.ok ()) ∈ listing.events :=
    Event.mem_of_sent (by decide +kernel)
  have hcode := onlyRegister listing hmem _ _ hsend _ (Request.decode_encode _) rfl
  exact absurd hcode (by decide)

end Session

end SealedPost
