import SealedPost.Proofs.Scripts

/-! One connection for one operation: what each operation calls on its link, in which order, and what it leaves undone
once something failed. -/
namespace SealedPost

namespace Session

section courses

variable {id peer : ClientId} {events : List Event}

theorem Refreshing.follows {s s' : Session} {result : Except Failure Unit} (h : Refreshing id s events result s') :
    Follows [.clientList] events result := by
  rcases h with trip | trip
  · exact trip.follows.goesOn rfl
  · exact trip.follows.goesOn (goesOn_ok _ _)

theorem LookingUp.follows {result : Except Failure KeyAnswer} (h : LookingUp id peer events result) :
    Follows [.publicKey] events result := by
  rcases h with trip | trip
  · exact trip.follows.goesOn rfl
  · exact trip.follows.goesOn fun _ failed => Failure.not_isRefusal_of_fatal (KeyAnswer.decode_fatal failed)

theorem LookingUp.done {answer : KeyAnswer} (h : LookingUp id peer events (.ok answer)) : Done [.publicKey] events := by
  generalize hresult : (.ok answer : Except Failure KeyAnswer) = result at h
  rcases h with _ | trip
  · cases hresult
  · refine trip.done ?_
    unfold KeyAnswer.decode at hresult
    split at hresult
    · cases hresult
    · next long => exact Nat.le_of_not_lt long

theorem Refreshing.done {s s' : Session} (h : Refreshing id s events (.ok ()) s') : Done [.clientList] events := by
  cases h with
  | told trip => exact trip.done (Nat.zero_le _)

theorem Delivering.follows {kind : MessageKind} {content : Bytes} {result : Except Failure Receipt}
    (h : Delivering id peer kind content events result) : Follows [.sendMessage] events result := by
  rcases h with long | ⟨built, trip⟩ | ⟨built, trip⟩
  · exact .nothing (Request.message_not_isRefusal long)
  · obtain ⟨fits, rfl⟩ := Request.message_eq_ok built
    exact trip.follows.goesOn rfl
  · obtain ⟨fits, rfl⟩ := Request.message_eq_ok built
    exact trip.follows.goesOn fun _ failed => Failure.not_isRefusal_of_fatal (Receipt.decode_fatal failed)

/-- The key is drawn and wrapped between two round trips, and what fails there ends the script. -/
theorem KeySending.follows {result : Except Failure (SymmetricKey × Receipt)} (h : KeySending id peer events result) :
    Follows [.publicKey, .sendMessage] events result := by
  have drawn (key : SymmetricKey) : Done [] [.freshKey (.ok key)] := .drawn rfl rfl
  rcases h with lookup | ⟨lookup, e⟩ | ⟨lookup, key, e⟩ | ⟨lookup, key, content, delivery⟩
  · exact lookup.follows.cut
  · exact lookup.done.andThen (.undrawn rfl rfl)
  · exact lookup.done.andThen ((drawn key).andThen (.undrawn rfl rfl))
  · have wrapped (publicKey : PublicKey) : Done [] [.wrap publicKey key.toBytes (.ok content)] := .drawn rfl rfl
    have shared := delivery.follows.goesOn (goesOn_map _ fun receipt => (key, receipt))
    exact lookup.done.andThen ((drawn key).andThen ((wrapped _).andThen shared))

theorem Fetching.follows {s s' : Session} {result : Except Failure Bytes} (h : Fetching id s events result s') :
    Follows [.clientList, .waitingMessages] events result := by
  rcases h with refresh | ⟨refresh, trip⟩
  · exact refresh.follows.cut
  · exact refresh.done.andThen trip.follows

theorem Listing.disciplined {s s' : Session} {result : Except Failure Directory} (h : Listing id s events result s') :
    Disciplined [.clientList] events result := by
  rcases h with course | course
  · exact (course.disciplined fun _ _ _ refresh => refresh.follows).goesOn rfl
  · exact (course.disciplined fun _ _ _ refresh => refresh.follows).goesOn (goesOn_ok _ _)

theorem KeySharing.disciplined {s s' : Session} {result : Except Failure Receipt}
    (h : KeySharing peer id s events result s') : Disciplined [.publicKey, .sendMessage] events result := by
  rcases h with course | course
  · exact (course.disciplined fun _ _ _ sending => sending.1.follows).goesOn rfl
  · exact (course.disciplined fun _ _ _ sending => sending.1.follows).goesOn (goesOn_ok _ _)

theorem Collecting.disciplined {ciphers : Ciphers} {s s' : Session} {result : Except Failure (List ReceivedMessage)}
    (h : Collecting ciphers id s events result s') : Disciplined [.clientList, .waitingMessages] events result := by
  rcases h with course | course
  · exact (course.disciplined fun _ _ _ fetching => fetching.follows).goesOn rfl
  · exact (course.disciplined fun _ _ _ fetching => fetching.follows).goesOn (goesOn_ok _ _)

/-- A key pair that is drawn before the connection opens is no call on the link. -/
theorem Disciplined.afterKeyPair {α : Type} {script : List RequestCode} {result : Except Failure α} (pair : KeyPair)
    (h : Disciplined script events result) : Disciplined script (.freshKeyPair (.ok pair) :: events) result where
  contact := h.contact
  halts := List.pairwise_cons.2 ⟨fun _ _ absurd => (nomatch absurd), h.halts⟩
  blame e he refused := by
    obtain ⟨event, hevent, hfailure⟩ := h.blame e he refused
    exact ⟨event, List.mem_cons_of_mem _ hevent, hfailure⟩

theorem Registering.disciplined {username : String} {s s' : Session} {result : Except Failure ClientId}
    (h : Registering username s events result s') (unregistered : s.identity = none) :
    (∃ e, events = [.freshKeyPair (.error e)] ∧ result = .error e) ∨ Disciplined [.register] events result := by
  rcases h with registered | ⟨-, e⟩ | ⟨-, course⟩ | ⟨-, course, idless⟩ | ⟨-, course, given⟩
  · rw [unregistered] at registered
    cases registered
  · exact .inl ⟨e, rfl, rfl⟩
  · exact .inr ((course.disciplined fun _ _ _ trip => trip.1.follows).goesOn rfl |>.afterKeyPair _)
  · refine .inr ((course.disciplined fun _ _ _ trip => trip.1.follows).goesOn ?_ |>.afterKeyPair _)
    rintro _ ⟨⟩
    rfl
  · exact .inr ((course.disciplined fun _ _ _ trip => trip.1.follows).goesOn (goesOn_ok _ _) |>.afterKeyPair _)

end courses

section refusal

variable {α : Type} {course : ClientId → Course α} {s s' : Session} {events : List Event} {result : Except Failure α}

theorem Registered.of_none (h : Registered course s events result s') (unregistered : s.identity = none) :
    events = [] ∧ result = .error .notRegistered := by
  rcases h with _ | ⟨registered, -⟩
  · exact ⟨rfl, rfl⟩
  · rw [unregistered] at registered
    cases registered

theorem Registered.of_some {me : Identity} (h : Registered course s events result s')
    (registered : s.identity = some me) : course me.id s events result s' := by
  rcases h with unregistered | ⟨known, taken⟩
  · rw [registered] at unregistered
    cases unregistered
  · rw [registered] at known
    cases known
    exact taken

theorem Registering.of_some {username : String} {me : Identity} {result : Except Failure ClientId}
    (h : Registering username s events result s') (registered : s.identity = some me) :
    events = [] ∧ result = .error (.alreadyRegistered me.username) := by
  have taken (unregistered : s.identity = none) : False := by
    rw [registered] at unregistered
    cases unregistered
  rcases h with known | ⟨unregistered, _⟩ | ⟨unregistered, _⟩ | ⟨unregistered, _, _⟩ | ⟨unregistered, _, _⟩
  · rw [registered] at known
    cases known
    exact ⟨rfl, rfl⟩
  · exact (taken unregistered).elim
  · exact (taken unregistered).elim
  · exact (taken unregistered).elim
  · exact (taken unregistered).elim

theorem Finding.of_none {name : String} {result : Except Failure Peer} (h : Finding name s events result s')
    (unregistered : s.identity = none) : events = [] ∧ result = .error .notRegistered := by
  rcases h with listed | ⟨listed, -⟩
  · obtain ⟨rfl, hresult⟩ := listed.of_none unregistered
    cases hresult
    exact ⟨rfl, rfl⟩
  · cases (listed.of_none unregistered).2

theorem Finding.disciplined {name : String} {me : Identity} {result : Except Failure Peer}
    (h : Finding name s events result s') (registered : s.identity = some me) :
    Disciplined [.clientList] events result := by
  rcases h with listed | ⟨listed, ⟨rfl, rfl⟩, rfl⟩
  · exact (listed.of_some registered).disciplined.goesOn rfl
  · rw [List.append_nil]
    refine (listed.of_some registered).disciplined.goesOn fun e missing => ?_
    split at missing <;> cases missing
    rfl

theorem ContentSending.refused {ciphers : Ciphers} {peer id : ClientId} {kind : MessageKind} {plaintext : Bytes}
    {result : Except Failure Receipt} (h : ContentSending ciphers peer kind plaintext id s events result s')
    (keyless : s.keys.lookup peer = none) : events = [] ∧ result = .error (.channelNotEstablished peer) := by
  rcases h with _ | ⟨held, -⟩
  · exact ⟨rfl, rfl⟩
  · rw [keyless] at held
    cases held

theorem ContentSending.disciplined {ciphers : Ciphers} {peer id : ClientId} {kind : MessageKind} {plaintext : Bytes}
    {key : SymmetricKey} {result : Except Failure Receipt}
    (h : ContentSending ciphers peer kind plaintext id s events result s') (held : s.keys.lookup peer = some key) :
    Disciplined [.sendMessage] events result := by
  rcases h with keyless | ⟨-, course⟩
  · rw [held] at keyless
    cases keyless
  · exact course.disciplined fun _ _ _ delivery => delivery.1.follows

end refusal

end Session

open Session

section operations

variable {ciphers : Ciphers} {op : Operation} {s s' : Session} {events : List Event} {result : Except Failure Reply}

/-- A refused operation makes no call at all. -/
theorem Operation.course_refused {e : Failure} (h : op.course ciphers s events result s')
    (refused : op.refusal? s = some e) : events = [] ∧ result = .error e := by
  have mapped {α : Type} {f : α → Reply} {ended : Except Failure α} {e' : Failure}
      (hended : events = [] ∧ ended = .error e') (he : e' = e) : events = [] ∧ ended.map f = .error e := by
    obtain ⟨hevents, rfl⟩ := hended
    exact ⟨hevents, congrArg Except.error he⟩
  have content {peer : ClientId} {kind : MessageKind} {plaintext : Bytes} {ended : Except Failure Receipt}
      (course : Registered (ContentSending ciphers peer kind plaintext) s events ended s')
      (refused : (Operation.sendFile peer plaintext).refusal? s = some e) : events = [] ∧ ended = .error e := by
    cases hidentity : s.identity with
    | none =>
      obtain rfl : .notRegistered = e := by simpa [Operation.refusal?, hidentity] using refused
      exact course.of_none hidentity
    | some me =>
      cases hkey : s.keys.lookup peer with
      | none =>
        obtain rfl : .channelNotEstablished peer = e := by simpa [Operation.refusal?, hidentity, hkey] using refused
        exact (course.of_some hidentity).refused hkey
      | some key => simp [Operation.refusal?, hidentity, hkey] at refused
  cases op with
  | register username =>
    obtain ⟨ended, rfl, course⟩ := h
    obtain ⟨me, registered, he⟩ := Option.map_eq_some_iff.1 refused
    exact mapped (course.of_some registered) he
  | sendText peer text =>
    obtain ⟨ended, rfl, course⟩ := h
    exact mapped (content course refused) rfl
  | sendFile peer contents =>
    obtain ⟨ended, rfl, course⟩ := h
    exact mapped (content course refused) rfl
  | findPeer name =>
    obtain ⟨ended, rfl, course⟩ := h
    obtain ⟨unregistered, he⟩ : s.identity = none ∧ .notRegistered = e := by simpa [Operation.refusal?] using refused
    exact mapped (course.of_none unregistered) he
  | _ =>
    obtain ⟨ended, rfl, course⟩ := h
    obtain ⟨unregistered, he⟩ : s.identity = none ∧ .notRegistered = e := by simpa [Operation.refusal?] using refused
    exact mapped (course.of_none unregistered) he

/-- Only a registered client is admitted to anything but registering. -/
theorem Operation.exists_identity (admitted : op.refusal? s = none) (hop : ∀ username, op ≠ .register username) :
    ∃ me, s.identity = some me := by
  cases hidentity : s.identity with
  | some me => exact ⟨me, rfl⟩
  | none =>
    cases op with
    | register username => exact absurd rfl (hop username)
    | _ => simp [Operation.refusal?, hidentity] at admitted

/-- An operation that is not refused keeps to its script on one connection, unless there is no key pair to register
with. -/
theorem Operation.course_disciplined (h : op.course ciphers s events result s') (admitted : op.refusal? s = none) :
    (∃ e, events = [.freshKeyPair (.error e)] ∧ result = .error e) ∨ Disciplined op.script events result := by
  have content {peer : ClientId} {kind : MessageKind} {plaintext : Bytes} {ended : Except Failure Receipt}
      (course : Registered (ContentSending ciphers peer kind plaintext) s events ended s')
      (admitted : (Operation.sendFile peer plaintext).refusal? s = none) : Disciplined [.sendMessage] events ended := by
    cases hidentity : s.identity with
    | none => simp [Operation.refusal?, hidentity] at admitted
    | some me =>
      cases hkey : s.keys.lookup peer with
      | none => simp [Operation.refusal?, hidentity, hkey] at admitted
      | some key => exact (course.of_some hidentity).disciplined hkey
  cases op with
  | register username =>
    obtain ⟨ended, rfl, course⟩ := h
    rcases course.disciplined (Option.map_eq_none_iff.1 admitted) with ⟨e, hevents, rfl⟩ | disciplined
    · exact .inl ⟨e, hevents, rfl⟩
    · exact .inr (disciplined.goesOn (goesOn_map _ _))
  | sendText peer text =>
    obtain ⟨ended, rfl, course⟩ := h
    exact .inr ((content course admitted).goesOn (goesOn_map _ _))
  | sendFile peer contents =>
    obtain ⟨ended, rfl, course⟩ := h
    exact .inr ((content course admitted).goesOn (goesOn_map _ _))
  | clientList =>
    obtain ⟨ended, rfl, course⟩ := h
    obtain ⟨me, registered⟩ := Operation.exists_identity admitted (by simp)
    exact .inr ((course.of_some registered).disciplined.goesOn (goesOn_map _ _))
  | findPeer name =>
    obtain ⟨ended, rfl, course⟩ := h
    obtain ⟨me, registered⟩ := Operation.exists_identity admitted (by simp)
    exact .inr ((course.disciplined registered).goesOn (goesOn_map _ _))
  | fetchPublicKey peer =>
    obtain ⟨ended, rfl, course⟩ := h
    obtain ⟨me, registered⟩ := Operation.exists_identity admitted (by simp)
    have disciplined := (course.of_some registered).disciplined fun _ _ _ lookup => lookup.1.follows
    exact .inr (disciplined.goesOn (goesOn_map _ _))
  | requestKey peer =>
    obtain ⟨ended, rfl, course⟩ := h
    obtain ⟨me, registered⟩ := Operation.exists_identity admitted (by simp)
    have disciplined := (course.of_some registered).disciplined fun _ _ _ delivery => delivery.1.follows
    exact .inr (disciplined.goesOn (goesOn_map _ _))
  | sendKey peer =>
    obtain ⟨ended, rfl, course⟩ := h
    obtain ⟨me, registered⟩ := Operation.exists_identity admitted (by simp)
    exact .inr ((course.of_some registered).disciplined.goesOn (goesOn_map _ _))
  | fetchWaiting =>
    obtain ⟨ended, rfl, course⟩ := h
    obtain ⟨me, registered⟩ := Operation.exists_identity admitted (by simp)
    exact .inr ((course.of_some registered).disciplined.goesOn (goesOn_map _ _))

end operations

/-- Each operation holds one connection, and asks its script over it. Whatever the operation and however its
surroundings behave: a refused operation makes no call at all, and neither does a registration without a key pair make
one on the link. Any other operation connects, and if that fails does no more; else it makes round trips one after
another, each with its response read in full before the next, and disconnects once, as its last call. The codes of its
requests start its script, and are all of it where the operation succeeds. After the first call that fails there is
only the disconnect. A failure that tells of a refusal comes without a call on the link, unless the cryptography itself
failed with it. -/
theorem Session.operation_follows_its_script {w : Type} (env : Surroundings (StateM w))
    (op : Operation) (s : Session) (x : w) :
    let step := ((Move.operate op).step env s x).1
    let calls := step.events.filter Event.onLink
    (match op.refusal? s with
      | some e => step.events = [] ∧ step.result = .error e
      | none => (∃ e, step.events = [.freshKeyPair (.error e)] ∧ step.result = .error e) ∨
          Contact op.script step.result calls) ∧
      step.events.Pairwise Halts ∧
      ∀ e, step.result = .error e → e.isRefusal = true →
        calls = [] ∨ ∃ event ∈ step.events, event.cipherFailure? = some e := by
  intro step calls
  have hcourse : op.course env.suite.toCiphers s step.events step.result step.after :=
    (Move.operate op).step_course env s x
  cases hrefusal : op.refusal? s with
  | some e =>
    obtain ⟨hevents, hresult⟩ := Operation.course_refused hcourse hrefusal
    refine ⟨⟨hevents, hresult⟩, ?_, fun _ _ _ => .inl ?_⟩
    · rw [hevents]
      exact .nil
    · exact congrArg (List.filter Event.onLink) hevents
  | none =>
    rcases Operation.course_disciplined hcourse hrefusal with ⟨e, hevents, hresult⟩ | disciplined
    · refine ⟨.inl ⟨e, hevents, hresult⟩, ?_, fun _ _ _ => .inl ?_⟩
      · rw [hevents]
        exact List.pairwise_singleton ..
      · exact congrArg (List.filter Event.onLink) hevents
    · exact ⟨.inr disciplined.contact, disciplined.halts, fun e he refused => .inr (disciplined.blame e he refused)⟩

open Transparent in
theorem Session.broken_key_sending_disconnects :
    let me : Identity := ⟨"alice", .replicate 1, ⟨[7]⟩, ⟨.replicate 160 7⟩⟩
    let bob : ClientId := .replicate 2
    let s : Session := { identity := some me }
    let env : Surroundings (StateM ScriptedLink) :=
      ⟨ScriptedLink.link, suite ⟨pure (.error .random), pure (.ok ⟨.replicate 16 5⟩), pure []⟩⟩
    let x : ScriptedLink := { script := [{ reply := (Response.ofPayload .publicKey (List.replicate 176 2)).encode },
      { reply := (Response.ofPayload .messageSent (List.replicate 20 2)).encode.take 26 }] }
    let sending := ((Move.operate (.sendKey bob)).step env s x).1
    let refused := ((Move.operate (.sendText bob "hello")).step env s x).1
    sending.result = .error (.truncatedPayload 20) ∧ (sending.events.filter Event.onLink).length = 8 ∧
      Contact [.publicKey, .sendMessage] sending.result (sending.events.filter Event.onLink) ∧
      refused.result = .error (.channelNotEstablished bob) ∧ refused.events.filter Event.onLink = [] := by
  intro me bob s env x sending refused
  obtain ⟨hsending, -⟩ := operation_follows_its_script env (.sendKey bob) s x
  obtain ⟨-, -, hrefused⟩ := operation_follows_its_script env (.sendText bob "hello") s x
  have hresult : refused.result = .error (.channelNotEstablished bob) := by decide +kernel
  have hlength : (sending.events.filter Event.onLink).length = 8 := by decide +kernel
  have hevents : sending.events.length = 10 := by decide +kernel
  have hciphers : refused.events.filterMap Event.cipherFailure? = [] := by decide +kernel
  refine ⟨by decide +kernel, hlength, ?_, hresult, ?_⟩
  · rcases hsending with ⟨e, hpair, -⟩ | contact
    · have hshort : sending.events.length = 1 := congrArg List.length hpair
      rw [hevents] at hshort
      cases hshort
    · exact contact
  · rcases hrefused _ hresult rfl with hcalls | ⟨event, hevent, hfailure⟩
    · exact hcalls
    · exact absurd (List.mem_filterMap.2 ⟨event, hevent, hfailure⟩) (by rw [hciphers]; exact List.not_mem_nil)

end SealedPost
