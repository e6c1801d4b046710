import SealedPost.Proofs.Reading

/-! The menu, shown for as long as there is input: every turn reads a line, and goes on whatever becomes of its
action. -/
namespace SealedPost.Menu
open SealedPost.Action

variable {w : Type} (env : Surroundings (StateM w)) (config : Config)

section turn

variable (s : Session) (d : Desktop) (y : w)

theorem exec_report (action : Action (StateT Desktop (StateM w)) Unit) :
    (report (Desktop.terminal env) action).exec s d y =
      match action.exec s d y with
      | ⟨.ok _, s', d', y'⟩ => ⟨.ok (), s', d', y'⟩
      | ⟨.error e, s', d', y'⟩ => ⟨.ok (), s', d'.print (failureLine e), y'⟩ := by
  rw [report, exec_bind, exec_attempt]
  rcases action.exec s d y with ⟨_ | _, s', d', y'⟩ <;> rfl

/-- What showing the menu once comes to, by what the question is answered with. -/
theorem exec_turn : (turn (Desktop.terminal env) config).exec s d y =
    match d.answer with
    | .error e => ⟨.error e, s, d.asked text, y⟩
    | .ok none => ⟨.ok false, s, d.asked text, y⟩
    | .ok (some answer) =>
      match Choice.ofText? answer with
      | none => ⟨.ok true, s, (d.asked text).print ("Unknown option " ++ Text.quoted answer), y⟩
      | some .leave => ⟨.ok false, s, d.asked text, y⟩
      | some choice =>
        match (act (Desktop.terminal env) config choice).exec s (d.asked text) y with
        | ⟨.ok _, s', d', y'⟩ => ⟨.ok true, s', d', y'⟩
        | ⟨.error e, s', d', y'⟩ => ⟨.ok true, s', d'.print (failureLine e), y'⟩ := by
  rw [turn, exec_bind, exec_ask]
  cases d.answer with
  | error e => rfl
  | ok answered =>
    cases answered with
    | none => rfl
    | some answer =>
      dsimp only
      cases Choice.ofText? answer with
      | none => rfl
      | some choice =>
        cases choice with
        | leave => rfl
        | _ =>
          dsimp only
          rw [exec_bind, exec_report]
          rcases (act (Desktop.terminal env) config _).exec s (d.asked text) y with ⟨_ | _, s', d', y'⟩ <;> rfl

theorem ofText?_eq_leave_iff {answer : String} : Choice.ofText? answer = some .leave ↔ answer = "0" := by
  constructor
  · intro h
    unfold Choice.ofText? at h
    split at h <;> first | rfl | cases h
  · rintro rfl
    rfl

/-- How showing the menu once can end. The menu goes on after a line was read that is text and another than the one for
leaving. -/
inductive Turned : Ending Desktop w Bool → Prop
  | failed {e : Failure} (h : d.answer = .error e) : Turned ⟨.error e, s, d.asked text, y⟩
  | left (h : d.answer = .ok none ∨ d.answer = .ok (some "0")) : Turned ⟨.ok false, s, d.asked text, y⟩
  | on {answer : String} {s' : Session} {d' : Desktop} {y' : w} (h : d.answer = .ok (some answer))
      (stays : answer ≠ "0") (reads : d'.unread <:+ d.unread.tail) : Turned ⟨.ok true, s', d', y'⟩

/-- Showing the menu once ends in one of its ways. -/
theorem turned : Turned s d y ((turn (Desktop.terminal env) config).exec s d y) := by
  rw [exec_turn]
  cases hanswer : d.answer with
  | error e => exact .failed hanswer
  | ok answered =>
    cases answered with
    | none => exact .left (.inl hanswer)
    | some answer =>
      dsimp only
      cases hchoice : Choice.ofText? answer with
      | none =>
        refine .on hanswer ?_ List.suffix_rfl
        rintro rfl
        cases hchoice
      | some choice =>
        have hreads := readsOn_act env config choice s (d.asked text) y
        have hstays : choice ≠ .leave → answer ≠ "0" := by
          rintro hne rfl
          exact hne (Option.some.inj hchoice).symm
        cases choice with
        | leave => exact .left (.inr (by rw [hanswer, ofText?_eq_leave_iff.1 hchoice]))
        | _ =>
          dsimp only
          rcases hend : (act (Desktop.terminal env) config _).exec s (d.asked text) y with ⟨_ | _, s', d', y'⟩ <;>
            rw [hend] at hreads <;> exact .on hanswer (hstays nofun) hreads

end turn

structure Visit (w : Type) where
  session : Session
  desktop : Desktop
  world : w

/-- The menu is shown until it is left or the choice cannot be read: each time it is shown, and how it ends. Nothing
bounds how often that is. -/
inductive Visits : List (Visit w) → Ending Desktop w Unit → Prop
  | failed {v : Visit w} {e : Failure} {s' : Session} {d' : Desktop} {y' : w}
      (h : (turn (Desktop.terminal env) config).exec v.session v.desktop v.world = ⟨.error e, s', d', y'⟩) :
      Visits [v] ⟨.error e, s', d', y'⟩
  | left {v : Visit w} {s' : Session} {d' : Desktop} {y' : w}
      (h : (turn (Desktop.terminal env) config).exec v.session v.desktop v.world = ⟨.ok false, s', d', y'⟩) :
      Visits [v] ⟨.ok (), s', d', y'⟩
  | on {v next : Visit w} {later : List (Visit w)} {ending : Ending Desktop w Unit}
      (h : (turn (Desktop.terminal env) config).exec v.session v.desktop v.world =
        ⟨.ok true, next.session, next.desktop, next.world⟩)
      (rest : Visits (next :: later) ending) : Visits (v :: next :: later) ending

/-- A whole run of the client, where nothing bounds how often the menu is shown. It is not shown where the identity file
cannot be used. -/
inductive Served (d : Desktop) (y : w) : List (Visit w) → Ending Desktop w Unit → Prop
  | refused {e : Failure} {s' : Session} {d' : Desktop} {y' : w}
      (h : (start (Desktop.terminal env) config).exec {} d y = ⟨.error e, s', d', y'⟩) :
      Served d y [] ⟨.error e, s', d', y'⟩
  | opened {v : Visit w} {later : List (Visit w)} {ending : Ending Desktop w Unit}
      (h : (start (Desktop.terminal env) config).exec {} d y = ⟨.ok (), v.session, v.desktop, v.world⟩)
      (visits : Visits env config (v :: later) ending) : Served d y (v :: later) ending

variable {env config} {visits : List (Visit w)} {ending : Ending Desktop w Unit}

/-- A limit on the turns makes no difference where it leaves enough of them. -/
theorem Visits.exec_turns {v : Visit w} {later : List (Visit w)} (h : Visits env config (v :: later) ending)
    {count : Nat} (enough : later.length < count) :
    (turns (Desktop.terminal env) config count).exec v.session v.desktop v.world = ending := by
  induction later generalizing v count with
  | nil =>
    obtain ⟨count, rfl⟩ := Nat.exists_eq_add_one_of_ne_zero (Nat.ne_zero_of_lt enough)
    rw [turns, exec_bind]
    cases h with
    | failed h => rw [h]
    | left h =>
      rw [h]
      rfl
  | cons next later ih =>
    obtain ⟨count, rfl⟩ := Nat.exists_eq_add_one_of_ne_zero (Nat.ne_zero_of_lt enough)
    rw [turns, exec_bind]
    cases h with
    | on h rest =>
      rw [h]
      exact ih rest (Nat.lt_of_succ_lt_succ enough)

/-- The menu is shown at most once more than there are lines to read. -/
theorem exists_visits (env : Surroundings (StateM w)) (config : Config) (v : Visit w) :
    ∃ later ending, Visits env config (v :: later) ending ∧ later.length ≤ v.desktop.unread.length := by
  induction hcount : v.desktop.unread.length using Nat.strong_induction_on generalizing v with
  | _ count ih =>
    subst hcount
    have hturned := turned env config v.session v.desktop v.world
    rcases hend : (turn (Desktop.terminal env) config).exec v.session v.desktop v.world with ⟨result, s', d', y'⟩
    rw [hend] at hturned
    cases hturned with
    | failed h => exact ⟨[], _, .failed hend, Nat.zero_le _⟩
    | left h => exact ⟨[], _, .left hend, Nat.zero_le _⟩
    | on h stays reads =>
      cases hunread : v.desktop.unread with
      | nil =>
        rw [Desktop.answer, hunread] at h
        cases h
      | cons line unread =>
        rw [hunread, List.tail_cons] at reads
        have hless := reads.length_le
        obtain ⟨later, ending, hlater, hlength⟩ := ih d'.unread.length (by rw [hunread, List.length_cons]; omega)
          ⟨s', d', y'⟩ rfl
        refine ⟨⟨s', d', y'⟩ :: later, ending, .on hend hlater, ?_⟩
        rw [List.length_cons, List.length_cons]
        omega

/-- Every answer but the last is a choice other than to leave, and the last one decides how it ends. -/
theorem Visits.ends_as_answered (h : Visits env config visits ending) : ∃ earlier last, visits = earlier ++ [last] ∧
    (∀ v ∈ earlier, ∃ answer, v.desktop.answer = .ok (some answer) ∧ answer ≠ "0") ∧
    (ending.result = .ok () ∧ (last.desktop.answer = .ok none ∨ last.desktop.answer = .ok (some "0")) ∨
      ∃ e, ending.result = .error e ∧ last.desktop.answer = .error e) := by
  induction h with
  | @failed v e s' d' y' h =>
    have hturned := turned env config v.session v.desktop v.world
    rw [h] at hturned
    cases hturned with
    | failed hanswer => exact ⟨[], v, rfl, List.forall_mem_nil _, .inr ⟨e, rfl, hanswer⟩⟩
  | @left v s' d' y' h =>
    have hturned := turned env config v.session v.desktop v.world
    rw [h] at hturned
    cases hturned with
    | left hanswer => exact ⟨[], v, rfl, List.forall_mem_nil _, .inl ⟨rfl, hanswer⟩⟩
  | @on v next later ending h rest ih =>
    have hturned := turned env config v.session v.desktop v.world
    rw [h] at hturned
    cases hturned with
    | on hanswer stays reads =>
      obtain ⟨earlier, last, hvisits, hearlier, hlast⟩ := ih
      exact ⟨v :: earlier, last, by rw [hvisits, List.cons_append],
        List.forall_mem_cons.2 ⟨⟨_, hanswer, stays⟩, hearlier⟩, hlast⟩

theorem Visits.result_eq_ok_iff (h : Visits env config visits ending) : ending.result = .ok () ↔
    ∃ v ∈ visits, v.desktop.answer = .ok none ∨ v.desktop.answer = .ok (some "0") := by
  obtain ⟨earlier, last, rfl, hearlier, hlast⟩ := h.ends_as_answered
  constructor
  · intro hok
    rcases hlast with ⟨-, hlast⟩ | ⟨e, herror, -⟩
    · exact ⟨last, by simp, hlast⟩
    · cases hok.symm.trans herror
  · rintro ⟨v, hv, hanswer⟩
    rcases List.mem_append.1 hv with hv | hv
    · obtain ⟨answer, hother, stays⟩ := hearlier v hv
      simp [hother, stays] at hanswer
    · obtain rfl := List.mem_singleton.1 hv
      rcases hlast with ⟨hok, -⟩ | ⟨e, -, herror⟩
      · exact hok
      · simp [herror] at hanswer

theorem Visits.result_eq_error_iff (h : Visits env config visits ending) {e : Failure} : ending.result = .error e ↔
    ∃ v ∈ visits, v.desktop.answer = .error e := by
  obtain ⟨earlier, last, rfl, hearlier, hlast⟩ := h.ends_as_answered
  constructor
  · intro herror
    rcases hlast with ⟨hok, -⟩ | ⟨e', herror', hanswer⟩
    · cases hok.symm.trans herror
    · cases herror.symm.trans herror'
      exact ⟨last, by simp, hanswer⟩
  · rintro ⟨v, hv, hanswer⟩
    rcases List.mem_append.1 hv with hv | hv
    · obtain ⟨answer, hother, -⟩ := hearlier v hv
      cases hanswer.symm.trans hother
    · obtain rfl := List.mem_singleton.1 hv
      rcases hlast with ⟨-, hleft | hleft⟩ | ⟨e', herror, hanswer'⟩
      · cases hanswer.symm.trans hleft
      · cases hanswer.symm.trans hleft
      · cases hanswer.symm.trans hanswer'
        exact herror

/-- An action that fails is told of, and the menu goes on. -/
theorem exec_turn_of_failed {s s' : Session} {d d' : Desktop} {y y' : w} {answer : String} {choice : Choice}
    {e : Failure} (hanswer : d.answer = .ok (some answer)) (hchoice : Choice.ofText? answer = some choice)
    (fails : (act (Desktop.terminal env) config choice).exec s (d.asked text) y = ⟨.error e, s', d', y'⟩) :
    (turn (Desktop.terminal env) config).exec s d y = ⟨.ok true, s', d'.print (failureLine e), y'⟩ := by
  rw [exec_turn, hanswer]
  dsimp only
  rw [hchoice]
  cases choice with
  | leave => cases fails
  | _ =>
    dsimp only
    rw [fails]

/-- After an action that failed, what it says is printed and the menu is shown again. -/
theorem Visits.next_of_failed (h : Visits env config visits ending) {place : Nat} {v : Visit w} {answer : String}
    {choice : Choice} {e : Failure} {s' : Session} {d' : Desktop} {y' : w} (hv : visits[place]? = some v)
    (hanswer : v.desktop.answer = .ok (some answer)) (hchoice : Choice.ofText? answer = some choice)
    (fails : (act (Desktop.terminal env) config choice).exec v.session (v.desktop.asked text) v.world =
      ⟨.error e, s', d', y'⟩) : visits[place + 1]? = some ⟨s', d'.print (failureLine e), y'⟩ := by
  have hturn := exec_turn_of_failed hanswer hchoice fails
  induction h generalizing place with
  | @failed only e' s'' d'' y'' h =>
    cases place with
    | zero =>
      obtain rfl := Option.some.inj hv
      cases h.symm.trans hturn
    | succ place => cases hv
  | @left only s'' d'' y'' h =>
    cases place with
    | zero =>
      obtain rfl := Option.some.inj hv
      cases h.symm.trans hturn
    | succ place => cases hv
  | @on first next later ending h rest ih =>
    cases place with
    | zero =>
      obtain rfl := Option.some.inj hv
      obtain ⟨s'', d'', y''⟩ := next
      cases h.symm.trans hturn
      rfl
    | succ place => exact ih hv

variable (env config)

/-- On any input and whatever the relay does, the client shows its menu at most once more than there are lines of
input, so that a limit beyond these lines makes no difference. It ends well exactly if a line for leaving is read at
the menu or the input ends there, and otherwise because the identity file cannot be used or a line at the menu is not
text. An action that fails ends nothing: what became of it is printed, and the menu is shown again with what the action
left. -/
theorem menu_ends_with_its_input (input : Bytes) (files : FileStore) (y : w) :
    let typed := Desktop.ofInput input files
    let lines := (Text.splitAfter (· == 10) input).length
    ∃ visits ending, Served env config typed y visits ending ∧ visits.length ≤ lines + 1 ∧
      (∀ count, lines < count → (run (Desktop.terminal env) config count).exec {} typed y = ending) ∧
      (ending.result = .ok () ↔ ∃ v ∈ visits, v.desktop.unread = [] ∨
        ∃ line, v.desktop.unread.head? = some line ∧ (Utf8.decode? line).map Text.trim = some "0") ∧
      (∀ e, ending.result = .error e ↔
        Identity.ofFile env.suite.toCiphers config.identityFile (files.read config.identityFile) = .error e ∨
        ∃ v ∈ visits, e = .transport notTextMessage ∧
          ∃ line, v.desktop.unread.head? = some line ∧ Utf8.decode? line = none) ∧
      ∀ place v answer choice e s' d' y', visits[place]? = some v → v.desktop.answer = .ok (some answer) →
        Choice.ofText? answer = some choice →
        (act (Desktop.terminal env) config choice).exec v.session (v.desktop.asked text) v.world =
          ⟨.error e, s', d', y'⟩ →
        visits[place + 1]? = some ⟨s', d'.print (failureLine e), y'⟩ := by
  intro typed lines
  have hstart := exec_start env {} y config typed
  have hfiles : typed.files = files := rfl
  rw [hfiles] at hstart
  cases hfile : Identity.ofFile env.suite.toCiphers config.identityFile (files.read config.identityFile) with
  | error e =>
    rw [hfile] at hstart
    refine ⟨[], _, .refused hstart, Nat.zero_le _, fun count _ => ?_, by simp, by simp,
      fun _ _ _ _ _ _ _ _ hplace => ?_⟩
    · rw [run, exec_bind, hstart]
    · cases hplace
  | ok identity =>
    obtain ⟨v, hv, hunread⟩ : ∃ v : Visit w, (start (Desktop.terminal env) config).exec {} typed y =
        ⟨.ok (), v.session, v.desktop, v.world⟩ ∧ v.desktop.unread = typed.unread := by
      rw [hstart, hfile]
      cases identity <;> exact ⟨⟨_, _, _⟩, rfl, rfl⟩
    obtain ⟨later, ending, hvisits, hlength⟩ := exists_visits env config v
    rw [hunread] at hlength
    have hlines : later.length ≤ lines := hlength
    refine ⟨v :: later, ending, .opened hv hvisits, Nat.succ_le_succ hlines, fun count hcount => ?_, ?_, fun e => ?_,
      fun place v answer choice e s' d' y' hplace hanswer hchoice fails =>
        hvisits.next_of_failed hplace hanswer hchoice fails⟩
    · rw [run, exec_bind, hv]
      exact hvisits.exec_turns (Nat.lt_of_le_of_lt hlines hcount)
    · simp only [hvisits.result_eq_ok_iff, Desktop.answer_eq_ok_none_iff, Desktop.answer_eq_ok_some_iff]
    · simp only [hvisits.result_eq_error_iff, Desktop.answer_eq_error_iff, reduceCtorEq, false_or]

/-- Without a name there is no registration. The line after is read as the next choice. -/
theorem menu_goes_on_after_empty_name :
    let env : Surroundings (StateM ScriptedLink) := ⟨ScriptedLink.link,
      Transparent.suite ⟨pure (.error .notRegistered), pure (.error .notRegistered), pure []⟩⟩
    let config : Config := ⟨"", "", "my.info", ""⟩
    let typed := Desktop.ofInput (Utf8.encode "110\n\n\t0\r\n120\n") {}
    ∃ visits ending, Served env config typed {} visits ending ∧ visits.length ≤ 5 ∧
      (run (Desktop.terminal env) config 5).exec {} typed {} = ending ∧ ending.result = .ok () ∧
      ending.outer.unread = [Utf8.encode "120\n"] ∧
      ∃ v, visits[1]? = some v ∧ v.desktop.printed = [text, "Enter username:", "Error: No username given"] := by
  intro env config typed
  obtain ⟨visits, ending, hserved, hlength, hrun, hok, -, hnext⟩ :=
    menu_ends_with_its_input env config
      (Utf8.encode "110\n\n\t0\r\n120\n") {} ({} : ScriptedLink)
  have hending := hrun 5 (by decide +kernel)
  refine ⟨visits, ending, hserved, hlength.trans (by decide +kernel), hending, ?_, ?_, ?_⟩
  · rw [← hending]
    decide +kernel
  · rw [← hending]
    decide +kernel
  · have hread : typed.files.read config.identityFile = .error .notFound := by decide +kernel
    have hstart : (start (Desktop.terminal env) config).exec {} typed {} = ⟨.ok (), {}, typed, {}⟩ := by
      rw [exec_start, hread]
      rfl
    cases hserved with
    | refused h => cases hstart.symm.trans h
    | @opened v later _ h _ =>
      obtain ⟨s, d, y⟩ := v
      have hsame := h.symm.trans hstart
      obtain rfl : s = {} := congrArg Ending.session hsame
      obtain rfl : d = typed := congrArg Ending.outer hsame
      obtain rfl : y = {} := congrArg Ending.inner hsame
      have hanswer : typed.answer = .ok (some "110") := by decide +kernel
      have hfails : ((act (Desktop.terminal env) config .register).exec {} (typed.asked text) {}).result =
          .error (.missingInput "username") := by decide +kernel
      have hprinted : ((act (Desktop.terminal env) config .register).exec {} (typed.asked text) {}).outer.printed =
          [text, "Enter username:"] := by decide +kernel
      rcases hend : (act (Desktop.terminal env) config .register).exec {} (typed.asked text) {} with
        ⟨result, s', d', y'⟩
      rw [hend] at hfails hprinted
      obtain rfl : result = .error (.missingInput "username") := hfails
      refine ⟨_, hnext 0 _ "110" .register _ s' d' y' rfl hanswer rfl hend, ?_⟩
      have htold : failureLine (.missingInput "username") = "Error: No username given" := by decide +kernel
      rw [Desktop.print, htold]
      exact congrArg (· ++ ["Error: No username given"]) hprinted

end SealedPost.Menu
