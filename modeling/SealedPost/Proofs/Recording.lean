import SealedPost.Proofs.Execution

/-! What a session asks of its surroundings, event by event with the answers, and a calculus of the courses that
an action can take over any surroundings. -/
namespace SealedPost

/-- A call on the surroundings of a session, with what came of it. -/
inductive Event where
  | connect (outcome : Except LinkFault Unit)
  | send (bytes : Bytes) (outcome : Except LinkFault Unit)
  | receive (count : Nat) (outcome : Except LinkFault Bytes)
  | disconnect
  | freshKeyPair (outcome : Except Failure KeyPair)
  | freshKey (outcome : Except Failure SymmetricKey)
  | wrap (key : PublicKey) (message : Bytes) (outcome : Except Failure Bytes)

section recorded

variable {m : Type → Type} [Monad m]

def recording {α : Type} (event : α → Event) (call : m α) : StateT (List Event) m α := do
  let outcome ← monadLift call
  modify (· ++ [event outcome])
  return outcome

def Surroundings.recorded (env : Surroundings m) : Surroundings (StateT (List Event) m) where
  link := {
    connect := recording .connect env.link.connect
    send bytes := recording (.send bytes) (env.link.send bytes)
    receive count := recording (.receive count) (env.link.receive count)
    disconnect := recording (fun _ => .disconnect) env.link.disconnect }
  suite := {
    toCiphers := env.suite.toCiphers
    freshKeyPair := recording .freshKeyPair env.suite.freshKeyPair
    freshSymmetricKey := recording .freshKey env.suite.freshSymmetricKey
    wrap key message := recording (.wrap key message) (env.suite.wrap key message) }

end recorded

/-- How an action may go: from a session, over these events, to a result and a session after it. -/
abbrev Course (α : Type) := Session → List Event → Except Failure α → Session → Prop

namespace Course

variable {α β : Type}

/-- One course after another. The second is left out when the first fails. -/
inductive andThen (first : Course α) (next : α → Course β) : Course β
  | failed {s events e s'} : first s events (.error e) s' → andThen first next s events (.error e) s'
  | went {s events a s' rest result s''} : first s events (.ok a) s' → next a s' rest result s'' →
      andThen first next s (events ++ rest) result s''

def mapped (f : α → β) (course : Course α) : Course β :=
  fun s events result s' => ∃ ended, result = ended.map f ∧ course s events ended s'

def still (course : List Event → Except Failure α → Prop) : Course α :=
  fun s events result s' => course events result ∧ s' = s

end Course

namespace Action

variable {w α β : Type}

/-- Over any world, from any session and with any record so far, the action takes a course of this kind. -/
def Does (act : Action (StateT (List Event) (StateM w)) α) (course : Course α) : Prop :=
  ∀ s record x, ∃ events,
    (act.exec s record x).outer = record ++ events ∧
    course s events (act.exec s record x).result (act.exec s record x).session

theorem Does.mono {act : Action (StateT (List Event) (StateM w)) α} {course wider : Course α}
    (h : act.Does course) (hw : ∀ s events result s', course s events result s' → wider s events result s') :
    act.Does wider := by
  intro s record x
  obtain ⟨events, hrecord, hcourse⟩ := h s record x
  exact ⟨events, hrecord, hw _ _ _ _ hcourse⟩

/-- What follows an action takes its course after it. -/
theorem Does.bind {act : Action (StateT (List Event) (StateM w)) α}
    {next : α → Action (StateT (List Event) (StateM w)) β} {first : Course α} {rest : α → Course β}
    (h : act.Does first) (hn : ∀ a, (next a).Does (rest a)) : (act >>= next).Does (first.andThen rest) := by
  intro s record x
  obtain ⟨events, hrecord, hfirst⟩ := h s record x
  rw [exec_bind]
  rcases hout : act.exec s record x with ⟨_ | a, s', record', x'⟩ <;> rw [hout] at hrecord hfirst
  · exact ⟨events, hrecord, .failed hfirst⟩
  · obtain ⟨events', hrecord', hnext⟩ := hn a s' record' x'
    simp only at hrecord
    exact ⟨events ++ events', by rw [hrecord', hrecord, List.append_assoc], .went hfirst hnext⟩

theorem Does.map {act : Action (StateT (List Event) (StateM w)) α} {course : Course α} (h : act.Does course)
    (f : α → β) : (f <$> act).Does (course.mapped f) := by
  intro s record x
  obtain ⟨events, hrecord, hcourse⟩ := h s record x
  rw [exec_map]
  exact ⟨events, hrecord, _, rfl, hcourse⟩

theorem Does.attempt {act : Action (StateT (List Event) (StateM w)) α} {course : Course α} (h : act.Does course) :
    act.attempt.Does fun s events result s' => ∃ ended, result = .ok ended ∧ course s events ended s' := by
  intro s record x
  obtain ⟨events, hrecord, hcourse⟩ := h s record x
  exact ⟨events, hrecord, _, rfl, hcourse⟩

theorem does_ofExcept (outcome : Except Failure α) :
    (ofExcept outcome : Action (StateT (List Event) (StateM w)) α).Does
      (.still fun events result => events = [] ∧ result = outcome) :=
  fun _ record _ => ⟨[], (List.append_nil record).symm, ⟨rfl, rfl⟩, rfl⟩

theorem does_get :
    (get : Action (StateT (List Event) (StateM w)) Session).Does fun s events result s' =>
      events = [] ∧ result = .ok s ∧ s' = s :=
  fun _ record _ => ⟨[], (List.append_nil record).symm, rfl, rfl, rfl⟩

/-- An action that starts by looking at the session. -/
theorem Does.inspect {next : Session → Action (StateT (List Event) (StateM w)) α} {course : Course α}
    (h : ∀ s₀, (next s₀).Does fun s events result s' => s = s₀ → course s events result s') :
    (get >>= next).Does course := by
  intro s record x
  obtain ⟨events, hrecord, hcourse⟩ := h s s record x
  exact ⟨events, hrecord, hcourse rfl⟩

theorem does_modify (f : Session → Session) :
    (modify f : Action (StateT (List Event) (StateM w)) PUnit).Does fun s events result s' =>
      events = [] ∧ result = .ok ⟨⟩ ∧ s' = f s :=
  fun _ record _ => ⟨[], (List.append_nil record).symm, rfl, rfl, rfl⟩

theorem does_modifyGet (f : Session → α × Session) :
    (modifyGet f : Action (StateT (List Event) (StateM w)) α).Does fun s events result s' =>
      events = [] ∧ result = .ok (f s).1 ∧ s' = (f s).2 :=
  fun _ record _ => ⟨[], (List.append_nil record).symm, rfl, rfl, rfl⟩

/-- A recorded call ends as the call does, with its event behind the record. -/
theorem exec_call_recording {ε : Type} {asFailure : ε → Failure} {event : Except ε α → Event}
    {f : StateM w (Except ε α)} {outcome : Except ε α} {s : Session} {record : List Event} {x x' : w}
    (h : f.run x = (outcome, x')) :
    (call asFailure (recording event f)).exec s record x =
      ⟨outcome.mapError asFailure, s, record ++ [event outcome], x'⟩ := by
  have hrun : ((recording event f).run record).run x =
      (((f.run x).1, record ++ [event (f.run x).1]), (f.run x).2) := rfl
  rw [exec_call, hrun, h]

theorem does_call {ε : Type} (asFailure : ε → Failure) (event : Except ε α → Event) (f : StateM w (Except ε α)) :
    (call asFailure (recording event f)).Does
      (.still fun events result => ∃ outcome, events = [event outcome] ∧ result = outcome.mapError asFailure) :=
  fun _ _ x => ⟨[event (f.run x).1], rfl, ⟨_, rfl, rfl⟩, rfl⟩

theorem does_draw (event : Except Failure α → Event) (f : StateM w (Except Failure α)) :
    (draw (recording event f)).Does
      (.still fun events result => ∃ outcome, events = [event outcome] ∧ result = outcome) :=
  fun s record x => ⟨[event (f.run x).1], rfl, ⟨_, rfl, by rw [exec_draw]; rfl⟩, rfl⟩

theorem does_perform (event : Event) (f : StateM w α) :
    (perform (recording (fun _ => event) f)).Does
      (.still fun events result => events = [event] ∧ ∃ a, result = .ok a) :=
  fun _ _ x => ⟨[event], rfl, ⟨rfl, (f.run x).1, rfl⟩, rfl⟩

end Action

end SealedPost
