import SealedPost.Proofs.Operations

/-! The runs of one client over surroundings that behave as they like: what it is made to do, move by move, and what
each move asked, received and left. -/
namespace SealedPost

/-- What a client can be made to do: one of its operations, or taking in a message by itself. -/
inductive Move where
  | operate (op : Operation)
  | process (message : QueuedMessage)
deriving DecidableEq

/-- A move of a run, with the sessions around it, the calls it made and how it ended. -/
structure Step where
  before : Session
  move : Move
  events : List Event
  result : Except Failure Reply
  after : Session

namespace Move

def perform {m : Type → Type} [Monad m] (env : Surroundings m) : Move → Action m Reply
  | .operate op => op.perform env
  | .process message => modifyGet fun s =>
      (.messages [(s.absorb env.suite.toCiphers message).1], (s.absorb env.suite.toCiphers message).2)

def course (ciphers : Ciphers) : Move → Course Reply
  | .operate op => op.course ciphers
  | .process message => fun s events result s' =>
    events = [] ∧ result = .ok (.messages [(s.absorb ciphers message).1]) ∧ s' = (s.absorb ciphers message).2

variable {w : Type} (env : Surroundings (StateM w))

/-- What a client is made to do takes one of the courses of its move. -/
theorem perform_does (move : Move) : (move.perform env.recorded).Does (move.course env.suite.toCiphers) := by
  cases move with
  | operate op => exact op.perform_does env
  | process message => exact Action.does_modifyGet _

def step (move : Move) (s : Session) (x : w) : Step × w :=
  let ending := (move.perform env.recorded).exec s [] x
  (⟨s, move, ending.outer, ending.result, ending.session⟩, ending.inner)

/-- Each step of a run takes one of the courses of its move. -/
theorem step_course (move : Move) (s : Session) (x : w) :
    move.course env.suite.toCiphers s (move.step env s x).1.events (move.step env s x).1.result
      (move.step env s x).1.after := by
  obtain ⟨events, hrecord, hcourse⟩ := move.perform_does env s [] x
  rw [List.nil_append] at hrecord
  subst hrecord
  exact hcourse

end Move

namespace Session

variable {w : Type} (env : Surroundings (StateM w))

def run (s : Session) (x : w) : List Move → List Step × Session
  | [] => ([], s)
  | move :: moves =>
    let (step, x) := move.step env s x
    let (steps, last) := run step.after x moves
    (step :: steps, last)

theorem run_cons (s : Session) (x : w) (move : Move) (moves : List Move) :
    run env s x (move :: moves) =
      ((move.step env s x).1 :: (run env (move.step env s x).1.after (move.step env s x).2 moves).1,
        (run env (move.step env s x).1.after (move.step env s x).2 moves).2) := rfl

/-- What one move makes certain of its step holds of every step of a run. -/
theorem forall_mem_run (holds : Step → Prop) (h : ∀ (move : Move) s x, holds (move.step env s x).1) (s : Session)
    (x : w) (moves : List Move) : ∀ step ∈ (run env s x moves).1, holds step := by
  induction moves generalizing s x with
  | nil => exact fun _ absurd => nomatch absurd
  | cons move moves ih =>
    rw [run_cons]
    intro step hstep
    rcases List.mem_cons.1 hstep with rfl | hrest
    · exact h move s x
    · exact ih _ _ step hrest

/-- The steps of a run before one of them are a run themselves, and it ends where that one starts. -/
theorem run_split {s : Session} {x : w} {moves : List Move} {earlier later : List Step} {step : Step}
    (h : (run env s x moves).1 = earlier ++ step :: later) :
    ∃ done, (run env s x done).1 = earlier ∧ (run env s x done).2 = step.before := by
  induction earlier generalizing s x moves with
  | nil =>
    cases moves with
    | nil => cases h
    | cons move moves =>
      rw [run_cons] at h
      obtain ⟨rfl, -⟩ := List.cons.inj h
      exact ⟨[], rfl, rfl⟩
  | cons first earlier ih =>
    cases moves with
    | nil => cases h
    | cons move moves =>
      rw [run_cons] at h
      obtain ⟨rfl, hrest⟩ := List.cons.inj h
      obtain ⟨done, hsteps, hlast⟩ := ih hrest
      refine ⟨move :: done, ?_, ?_⟩
      · rw [run_cons, hsteps]
      · rw [run_cons, hlast]

/-- What a client is and what it keeps secret, apart from the directory that it was told. -/
def secrets (s : Session) : Option Identity × KeyRing :=
  (s.identity, s.keys)

end Session

def Course.KeepsSecrets {α : Type} (course : Course α) : Prop :=
  ∀ ⦃s events result s'⦄, course s events result s' → s'.secrets = s.secrets

namespace Session

variable {α : Type}

theorem still_keepsSecrets (course : List Event → Except Failure α → Prop) : (Course.still course).KeepsSecrets := by
  rintro s events result s' ⟨-, rfl⟩
  rfl

theorem Connected.keepsSecrets {course : Course α} (h : course.KeepsSecrets) : (Connected course).KeepsSecrets := by
  rintro s events result s' (_ | inside)
  · rfl
  · exact h inside

theorem Registered.keepsSecrets {course : ClientId → Course α} (h : ∀ id, (course id).KeepsSecrets) :
    (Registered course).KeepsSecrets := by
  rintro s events result s' (_ | ⟨_, taken⟩)
  · rfl
  · exact h _ taken

theorem refreshing_keepsSecrets (id : ClientId) : (Refreshing id).KeepsSecrets := by
  rintro s events result s' (_ | _) <;> rfl

theorem listing_keepsSecrets (id : ClientId) : (Listing id).KeepsSecrets := by
  rintro s events result s' (course | course)
  · exact Connected.keepsSecrets (refreshing_keepsSecrets id) course
  · exact Connected.keepsSecrets (refreshing_keepsSecrets id) course

theorem fetching_keepsSecrets (id : ClientId) : (Fetching id).KeepsSecrets := by
  rintro s events result s' (refresh | ⟨refresh, -⟩)
  · exact refreshing_keepsSecrets id refresh
  · exact refreshing_keepsSecrets id refresh

theorem finding_keepsSecrets (name : String) : (Finding name).KeepsSecrets := by
  rintro s events result s' (listed | ⟨listed, -, rfl⟩)
  · exact Registered.keepsSecrets listing_keepsSecrets listed
  · exact Registered.keepsSecrets listing_keepsSecrets listed

theorem contentSending_keepsSecrets (ciphers : Ciphers) (peer : ClientId) (kind : MessageKind) (plaintext : Bytes)
    (id : ClientId) : (ContentSending ciphers peer kind plaintext id).KeepsSecrets := by
  rintro s events result s' (_ | _) <;> rfl

end Session

/-- Only registering, sending a key and taking in messages change what a client is or keeps. -/
theorem Operation.course_keepsSecrets (ciphers : Ciphers) {op : Operation} (hr : ∀ username, op ≠ .register username)
    (hs : ∀ peer, op ≠ .sendKey peer) (hf : op ≠ .fetchWaiting) : (op.course ciphers).KeepsSecrets := by
  rintro s events result s' h
  cases op with
  | register username => exact absurd rfl (hr username)
  | sendKey peer => exact absurd rfl (hs peer)
  | fetchWaiting => exact absurd rfl hf
  | clientList =>
    obtain ⟨ended, rfl, course⟩ := h
    exact Session.Registered.keepsSecrets Session.listing_keepsSecrets course
  | findPeer name =>
    obtain ⟨ended, rfl, course⟩ := h
    exact Session.finding_keepsSecrets name course
  | fetchPublicKey peer =>
    obtain ⟨ended, rfl, course⟩ := h
    exact Session.Registered.keepsSecrets
      (fun _ => Session.Connected.keepsSecrets (Session.still_keepsSecrets _)) course
  | requestKey peer =>
    obtain ⟨ended, rfl, course⟩ := h
    exact Session.Registered.keepsSecrets
      (fun _ => Session.Connected.keepsSecrets (Session.still_keepsSecrets _)) course
  | sendText peer text =>
    obtain ⟨ended, rfl, course⟩ := h
    exact Session.Registered.keepsSecrets (Session.contentSending_keepsSecrets ciphers peer _ _) course
  | sendFile peer contents =>
    obtain ⟨ended, rfl, course⟩ := h
    exact Session.Registered.keepsSecrets (Session.contentSending_keepsSecrets ciphers peer _ _) course

end SealedPost
