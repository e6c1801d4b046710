import SealedPost.Proofs.Absorption
import SealedPost.Proofs.Scripts

/-! The keys that a client holds are the history of its key events: what it sent with success, and what it received
and could open, peer by peer. -/
namespace SealedPost

namespace Event

def drawnKey? : Event → Option SymmetricKey
  | .freshKey (.ok key) => some key
  | _ => none

theorem drawnKey?_of_onLink (event : Event) (h : event.onLink = true) : event.drawnKey? = none := by
  cases event with
  | freshKey outcome => cases h
  | _ => rfl

/-- What was received since the last request went out, call by call. -/
def note (read : List Bytes) : Event → List Bytes
  | .send .. => []
  | .receive _ (.ok bs) => read ++ [bs]
  | _ => read

end Event

def lastPayload (events : List Event) : Bytes :=
  ((events.foldl Event.note []).drop 1).flatten

namespace Step

def drawnKeys (step : Step) : List SymmetricKey :=
  step.events.filterMap Event.drawnKey?

def processed (step : Step) : List QueuedMessage :=
  match step.move, step.result with
  | .process message, _ => [message]
  | .operate .fetchWaiting, .ok _ => parseQueue (lastPayload step.events)
  | _, _ => []

/-- The keys that a step comes by, with the peers they are for: what was drawn where a key was sent with success,
and what the messages bring that it takes in. -/
def keyEvents (ciphers : Ciphers) (step : Step) : List (ClientId × SymmetricKey) :=
  match step.move, step.result with
  | .operate (.sendKey peer), .ok _ => step.drawnKeys.map (peer, ·)
  | _, _ => step.processed.filterMap (·.keyEvent? ciphers step.before.identity)

/-- One key was drawn in the step, and what it was wrapped into is what the relay took for the peer. -/
def SharedOne (step : Step) (peer : ClientId) : Prop :=
  ∃ me key publicKey wrapped fits,
    step.before.identity = some me ∧ step.drawnKeys = [key] ∧
    .wrap publicKey key.toBytes (.ok wrapped) ∈ step.events ∧
    .send (Request.sendMessage me.id peer .keySend wrapped fits).encode (.ok ()) ∈ step.events

end Step

namespace Session

section drawn

variable {id peer : ClientId} {events : List Event}

/-- A delivery that succeeds was sent as a message with the content. -/
theorem Delivering.sent {kind : MessageKind} {content : Bytes} {receipt : Receipt}
    (h : Delivering id peer kind content events (.ok receipt)) :
    ∃ fits, .send (Request.sendMessage id peer kind content fits).encode (.ok ()) ∈ events := by
  generalize hresult : (.ok receipt : Except Failure Receipt) = result at h
  rcases h with _ | _ | ⟨built, trip⟩
  · cases hresult
  · cases hresult
  · obtain ⟨fits, rfl⟩ := Request.message_eq_ok built
    exact ⟨fits, Event.mem_of_sent (by rw [trip.sent]; exact List.mem_singleton_self _)⟩

theorem KeySending.drawn {rest : List Event} {answer : KeyAnswer} {result : Except Failure Receipt}
    (lookup : LookingUp id peer events (.ok answer)) (key : SymmetricKey) (content : Bytes)
    (delivery : Delivering id peer .keySend content rest result) :
    (events ++ .freshKey (.ok key) :: .wrap answer.publicKey key.toBytes (.ok content) :: rest).filterMap
      Event.drawnKey? = [key] := by
  have hrest : rest.filterMap Event.drawnKey? = [] :=
    Event.filterMap_eq_nil delivery.onLink Event.drawnKey?_of_onLink
  rw [List.filterMap_append, Event.filterMap_eq_nil lookup.onLink Event.drawnKey?_of_onLink]
  exact congrArg (key :: ·) hrest

/-- Where a key is sent with success, it is the one that was drawn, and what it was wrapped into went out. -/
theorem KeySending.shared {key : SymmetricKey} {receipt : Receipt}
    (h : KeySending id peer events (.ok (key, receipt))) :
    events.filterMap Event.drawnKey? = [key] ∧ ∃ publicKey wrapped fits,
      .wrap publicKey key.toBytes (.ok wrapped) ∈ events ∧
      .send (Request.sendMessage id peer .keySend wrapped fits).encode (.ok ()) ∈ events := by
  generalize hresult : (.ok (key, receipt) : Except Failure (SymmetricKey × Receipt)) = result at h
  rcases h with _ | _ | _ | ⟨lookup, drawn, content, delivery⟩
  · cases hresult
  · cases hresult
  · cases hresult
  · rename_i answer ended
    cases ended with
    | error e => cases hresult
    | ok told =>
      cases hresult
      obtain ⟨fits, sent⟩ := delivery.sent
      exact ⟨KeySending.drawn lookup key content delivery, answer.publicKey, content, fits, by simp, by simp [sent]⟩

theorem KeySending.connected_shared {s s' : Session} {key : SymmetricKey} {receipt : Receipt}
    (h : Connected (.still (KeySending id peer)) s events (.ok (key, receipt)) s') :
    events.filterMap Event.drawnKey? = [key] ∧ ∃ publicKey wrapped fits,
      .wrap publicKey key.toBytes (.ok wrapped) ∈ events ∧
      .send (Request.sendMessage id peer .keySend wrapped fits).encode (.ok ()) ∈ events := by
  generalize hresult : (.ok (key, receipt) : Except Failure (SymmetricKey × Receipt)) = result at h
  rcases h with _ | ⟨sending, -⟩
  · cases hresult
  · subst hresult
    obtain ⟨hdrawn, publicKey, wrapped, fits, hwrap, hsend⟩ := sending.shared
    exact ⟨(Event.filterMap_connected rfl rfl _).trans hdrawn, publicKey, wrapped, fits, by simp [hwrap],
      by simp [hsend]⟩

end drawn

section payload

/-- A response that was read is what was noted since its request: the header, and then the payload. -/
theorem Reading.noted {events : List Event} {response : Response} (h : Reading events (.ok response)) :
    ((events.foldl Event.note []).drop 1).flatten = response.payload := by
  generalize hresult : (.ok response : Except Failure Response) = result at h
  rcases h with _ | _ | ⟨_, _ | _ | _ | _⟩ <;> cases hresult <;> simp [Event.note]

theorem Response.payload_of_payloadFor {expected : ResponseCode} {response : Response} {payload : Bytes}
    (h : response.payloadFor expected = .ok payload) : response.payload = payload := by
  unfold Response.payloadFor at h
  split at h
  · cases h
  · split at h
    · cases h; rfl
    · cases h
  · cases h

theorem RoundTrip.lastPayload_eq {request : Request} {expected : ResponseCode} {events earlier : List Event}
    {payload : Bytes} (h : RoundTrip request expected events (.ok payload)) :
    lastPayload (earlier ++ events) = payload := by
  generalize hresult : (.ok payload : Except Failure Bytes) = result at h
  rcases h with _ | _ | reading
  · cases hresult
  · cases hresult
  · rw [lastPayload, List.foldl_append, List.foldl_cons]
    exact reading.noted.trans (Response.payload_of_payloadFor hresult.symm)

/-- Where the messages that wait were asked for with success, they are the last payload. -/
theorem Fetching.lastPayload_eq {id : ClientId} {s s' : Session} {events : List Event} {payload : Bytes}
    (h : Connected (Fetching id) s events (.ok payload) s') : lastPayload events = payload := by
  generalize hresult : (.ok payload : Except Failure Bytes) = result at h
  rcases h with _ | ⟨_ | ⟨_, trip⟩⟩
  · cases hresult
  · cases hresult
  · cases hresult
    have hclose (read : List Event) :
        lastPayload (.connect (.ok ()) :: (read ++ [.disconnect])) = lastPayload read := by
      rw [lastPayload, List.foldl_cons, List.foldl_append]
      rfl
    rw [hclose]
    exact trip.lastPayload_eq

end payload

end Session

namespace Step

variable {ciphers : Ciphers}

private theorem sendKey_establishes {peer : ClientId} {s s' : Session} {events : List Event}
    {result : Except Failure Reply} (h : (Operation.sendKey peer).course ciphers s events result s') :
    s'.keys = s.keys.establishAll (keyEvents ciphers ⟨s, .operate (.sendKey peer), events, result, s'⟩) := by
  obtain ⟨ended, rfl, _ | ⟨_, course | course⟩⟩ := h
  · rfl
  · rfl
  · have hdrawn := (Session.KeySending.connected_shared course).1
    simp only [keyEvents, drawnKeys, Except.map, hdrawn]
    rfl

private theorem fetchWaiting_establishes {s s' : Session} {events : List Event} {result : Except Failure Reply}
    (h : Operation.fetchWaiting.course ciphers s events result s') :
    s'.keys = s.keys.establishAll (keyEvents ciphers ⟨s, .operate .fetchWaiting, events, result, s'⟩) := by
  obtain ⟨ended, rfl, _ | ⟨_, course | course⟩⟩ := h
  · rfl
  · exact congrArg Prod.snd (Session.Connected.keepsSecrets (Session.fetching_keepsSecrets _) course)
  · have hpayload := Session.Fetching.lastPayload_eq course
    have hsecrets := Session.Connected.keepsSecrets (Session.fetching_keepsSecrets _) course
    obtain ⟨hidentity, hkeys⟩ := Prod.mk.inj hsecrets
    rw [Session.absorbAll_session, hidentity, hkeys]
    simp only [keyEvents, processed, hpayload, Except.map]

/-- A move establishes the keys that its step comes by, one after the other, and touches no other. -/
theorem keys_eq {s s' : Session} {move : Move} {events : List Event} {result : Except Failure Reply}
    (h : move.course ciphers s events result s') :
    s'.keys = s.keys.establishAll (keyEvents ciphers ⟨s, move, events, result, s'⟩) := by
  cases move with
  | process message =>
    obtain ⟨rfl, rfl, rfl⟩ := h
    exact congrArg Session.keys (Session.absorbAll_session ciphers s [message])
  | operate op =>
    have hop : op.course ciphers s events result s' := h
    cases op with
    | sendKey peer => exact sendKey_establishes h
    | fetchWaiting => exact fetchWaiting_establishes h
    | register username => obtain ⟨ended, rfl, _ | _ | _ | _ | _⟩ := h <;> rfl
    | _ =>
      exact congrArg Prod.snd (Operation.course_keepsSecrets ciphers (by simp) (by simp) (by simp) hop)

/-- A key that was sent with success was drawn once, and wrapped for the peer that holds it. -/
theorem sharedOne (ciphers : Ciphers) {s s' : Session} {peer : ClientId} {events : List Event} {reply : Reply}
    (h : (Operation.sendKey peer).course ciphers s events (.ok reply) s') :
    SharedOne ⟨s, .operate (.sendKey peer), events, .ok reply, s'⟩ peer := by
  obtain ⟨ended, hended, _ | ⟨known, course | course⟩⟩ := h
  · cases hended
  · cases hended
  · obtain ⟨hdrawn, publicKey, wrapped, fits, hwrap, hsend⟩ := Session.KeySending.connected_shared course
    exact ⟨_, _, publicKey, wrapped, fits, known, hdrawn, hwrap, hsend⟩

/-- A step comes by keys for the peer that a key is sent to, and for the senders of the messages it takes in. -/
theorem mem_keyEvents {step : Step} {event : ClientId × SymmetricKey} (h : event ∈ step.keyEvents ciphers) :
    step.move = .operate (.sendKey event.1) ∨ ∃ m ∈ step.processed, m.sender = event.1 := by
  unfold keyEvents at h
  split at h
  · next hmove hresult =>
    obtain ⟨key, -, rfl⟩ := List.mem_map.1 h
    exact .inl hmove
  · obtain ⟨m, hm, hevent⟩ := List.mem_filterMap.1 h
    obtain ⟨key, -, rfl⟩ := Option.map_eq_some_iff.1 hevent
    exact .inr ⟨m, hm, rfl⟩

end Step

namespace Session

variable {w : Type} (env : Surroundings (StateM w))

/-- A step leaves a peer the last key that came up for it, or the one it had. -/
theorem step_lookup (move : Move) (s : Session) (x : w) (peer : ClientId) :
    (move.step env s x).1.after.keys.lookup peer =
      (lastKey ((move.step env s x).1.keyEvents env.suite.toCiphers) peer).or (s.keys.lookup peer) := by
  rw [Step.keys_eq (move.step_course env s x), KeyRing.lookup_establishAll]
  rfl

/-- After a run, the key held for a peer is the last one that the run came by, or the one held before it. -/
theorem run_lookup (s : Session) (x : w) (moves : List Move) (peer : ClientId) :
    (run env s x moves).2.keys.lookup peer =
      (lastKey ((run env s x moves).1.flatMap (Step.keyEvents env.suite.toCiphers)) peer).or
        (s.keys.lookup peer) := by
  induction moves generalizing s x with
  | nil => rfl
  | cons move moves ih =>
    rw [run_cons, List.flatMap_cons, lastKey_append, ih, step_lookup, Option.or_assoc]

theorem run_keepsHolding (s : Session) (x : w) (moves : List Move) (peer : ClientId)
    (h : (s.keys.lookup peer).isSome) : ((run env s x moves).2.keys.lookup peer).isSome := by
  rw [run_lookup, Option.isSome_or, h, Bool.or_true]

theorem forall_mem_run_holding (s : Session) (x : w) (moves : List Move) (peer : ClientId) :
    ∀ step ∈ (run env s x moves).1, (step.before.keys.lookup peer).isSome →
      (step.after.keys.lookup peer).isSome ∧ ((run env s x moves).2.keys.lookup peer).isSome := by
  induction moves generalizing s x with
  | nil => exact fun _ absurd => nomatch absurd
  | cons move moves ih =>
    rw [run_cons]
    intro step hstep hheld
    rcases List.mem_cons.1 hstep with rfl | hrest
    · have hafter : ((move.step env s x).1.after.keys.lookup peer).isSome := by
        rw [step_lookup, Option.isSome_or, show (s.keys.lookup peer).isSome from hheld, Bool.or_true]
      exact ⟨hafter, run_keepsHolding env _ _ moves peer hafter⟩
    · exact ih _ _ step hrest hheld

/-- The keys that a client holds are the history of its key events. Started without keys, whatever it is made to do
and however its surroundings behave, it holds for a peer the key of the last event for that peer, or none if there was
none: a key that it drew, wrapped and sent to the peer with success, or one that a message from the peer brought. What
is once held is never lost, and only sending the peer a key or taking in a message from it changes its key. -/
theorem held_keys_follow_history (identity : Option Identity) (x : w) (moves : List Move) (peer : ClientId) :
    (run env { identity } x moves).2.keys.lookup peer =
        lastKey ((run env { identity } x moves).1.flatMap (Step.keyEvents env.suite.toCiphers)) peer ∧
      ∀ step ∈ (run env { identity } x moves).1,
        (∀ reply, step.move = .operate (.sendKey peer) → step.result = .ok reply → step.SharedOne peer) ∧
        (step.before.keys.state peer = .keyEstablished → step.after.keys.state peer = .keyEstablished ∧
          (run env { identity } x moves).2.keys.state peer = .keyEstablished) ∧
        (step.move ≠ .operate (.sendKey peer) → (∀ m ∈ step.processed, m.sender ≠ peer) →
          step.after.keys.lookup peer = step.before.keys.lookup peer) := by
  have hstate (ring : KeyRing) : ring.state peer = .keyEstablished ↔ (ring.lookup peer).isSome := by
    rw [KeyRing.state, KeyRing.has_eq_isSome_lookup]
    cases ring.lookup peer <;> simp
  refine ⟨?_, fun step hstep => ⟨?_, ?_, ?_⟩⟩
  · rw [run_lookup]
    exact Option.or_none
  · refine forall_mem_run env (fun step => ∀ reply, step.move = .operate (.sendKey peer) →
      step.result = .ok reply → step.SharedOne peer) (fun move s x reply hmove hresult => ?_) _ x moves step hstep
    have hcourse := move.step_course env s x
    subst hmove
    rw [hresult] at hcourse
    have hshared := Step.sharedOne env.suite.toCiphers hcourse
    rwa [← hresult] at hshared
  · intro hbefore
    rw [hstate] at hbefore ⊢
    rw [hstate]
    exact forall_mem_run_holding env _ x moves peer step hstep hbefore
  · refine forall_mem_run env (fun step => step.move ≠ .operate (.sendKey peer) →
      (∀ m ∈ step.processed, m.sender ≠ peer) → step.after.keys.lookup peer = step.before.keys.lookup peer)
      (fun move s x hmove hprocessed => ?_) _ x moves step hstep
    have hquiet : ∀ event ∈ (move.step env s x).1.keyEvents env.suite.toCiphers, event.1 ≠ peer := by
      rintro event hevent rfl
      rcases Step.mem_keyEvents hevent with hsent | ⟨m, hm, hsender⟩
      · exact hmove hsent
      · exact hprocessed m hm hsender
    rw [step_lookup, lastKey_eq_none hquiet]
    rfl

end Session

end SealedPost
