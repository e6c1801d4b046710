import Mathlib.Control.Monad.Basic
import SealedPost.Desktop
import SealedPost.Proofs.Execution
import SealedPost.Proofs.Files
import SealedPost.Proofs.IdentityFile

/-! Registering from the menu: who the client is afterwards, and whom its identity file names. -/
namespace SealedPost

namespace Action

variable {σ τ α β : Type}

def lifted (env : Surroundings (StateM τ)) (σ : Type) : Surroundings (StateT σ (StateM τ)) :=
  ⟨env.link.lift, env.suite.lift⟩

inductive Registers (env : Surroundings (StateM τ)) (username : String) (s : Session) :
    Except Failure ClientId → Session → Prop
  | failed (e : Failure) : Registers env username s (.error e) s
  | assigned (unregistered : s.identity = none) (id : ClientId) (pair : KeyPair) (y y' : τ)
      (drawn : env.suite.freshKeyPair.run y = (.ok pair, y')) :
      Registers env username s (.ok id) { s with identity := some ⟨username, id, pair.privateKey, pair.publicKey⟩ }

theorem exec_register (env : Surroundings (StateM τ)) (username : String) (s : Session) (x : σ) (y : τ) :
    ((Session.register (lifted env σ) username).exec s x y).outer = x ∧
      Registers env username s ((Session.register (lifted env σ) username).exec s x y).result
        ((Session.register (lifted env σ) username).exec s x y).session := by
  cases known : s.identity with
  | some me =>
    have hend : (Session.register (lifted env σ) username).exec s x y =
        ⟨.error (.alreadyRegistered me.username), s, x, y⟩ := by
      rw [Session.register, exec_bind, exec_get]
      simp only [known]
      rfl
    rw [hend]
    exact ⟨rfl, .failed _⟩
  | none =>
    rw [Session.register, exec_bind, exec_get]
    simp only [known]
    have hlifted : ((lifted env σ).suite.freshKeyPair.run x).run y =
        (((env.suite.freshKeyPair.run y).1, x), (env.suite.freshKeyPair.run y).2) := rfl
    rw [exec_bind, exec_draw, hlifted]
    rcases hdrawn : env.suite.freshKeyPair.run y with ⟨_ | pair, y₁⟩
    · exact ⟨rfl, .failed _⟩
    have hkept : (Session.withConnection (lifted env σ)
        (Session.roundTrip (lifted env σ) (.register username pair.publicKey) .registerOk)).Keeps Prod.mk :=
      Keeps.withConnection _ (fun _ _ _ => rfl) (fun _ _ _ => rfl)
        (keeps_roundTrip _ (fun _ _ _ _ => rfl) (fun _ _ _ _ _ => rfl) _ _)
    have hsame := hkept s x y₁
    dsimp only
    rw [exec_bind]
    rcases hend : (Session.withConnection (lifted env σ)
      (Session.roundTrip (lifted env σ) (.register username pair.publicKey) .registerOk)).exec s x y₁ with
      ⟨_ | payload, s', x', y'⟩ <;> rw [hend] at hsame
    · obtain ⟨rfl, rfl⟩ := Prod.mk.inj hsame
      exact ⟨rfl, .failed _⟩
    · obtain ⟨rfl, rfl⟩ := Prod.mk.inj hsame
      dsimp only
      cases ClientId.first? payload with
      | none => exact ⟨rfl, .failed _⟩
      | some id => exact ⟨rfl, .assigned known id pair y y₁ hdrawn⟩

end Action

namespace Desktop

def asked (d : Desktop) (question : String) : Desktop :=
  { d with printed := d.printed ++ [question], unread := d.unread.tail }

def answer (d : Desktop) : Except Failure (Option String) :=
  match d.unread with
  | [] => .ok none
  | line :: _ =>
    match Utf8.decode? line with
    | none => .error (.transport notTextMessage)
    | some text => .ok (some (Text.trim text))

theorem answer_eq_ok_none_iff {d : Desktop} : d.answer = .ok none ↔ d.unread = [] := by
  unfold answer
  split
  · next hunread => simp [hunread]
  · next line unread hunread => split <;> simp [hunread]

theorem answer_eq_ok_some_iff {d : Desktop} {text : String} : d.answer = .ok (some text) ↔
    ∃ line, d.unread.head? = some line ∧ (Utf8.decode? line).map Text.trim = some text := by
  unfold answer
  split
  · next hunread => simp [hunread]
  · next line unread hunread => split <;> next hline => simp [hunread, hline]

theorem answer_eq_error_iff {d : Desktop} {e : Failure} : d.answer = .error e ↔
    e = .transport notTextMessage ∧ ∃ line, d.unread.head? = some line ∧ Utf8.decode? line = none := by
  unfold answer
  split
  · next hunread => simp [hunread]
  · next line unread hunread => split <;> next hline => simp [hunread, hline, eq_comm]

def Lined (d : Desktop) : Prop :=
  ∀ line ∈ d.unread, 10 ∉ line.dropLast

theorem fitsLine_answer {d : Desktop} {name : String} (lined : d.Lined) (h : d.answer = .ok (some name))
    (hne : name ≠ "") : Text.FitsLine name := by
  obtain ⟨line, hhead, hname⟩ := answer_eq_ok_some_iff.1 h
  obtain ⟨text, htext, rfl⟩ := Option.map_eq_some_iff.1 hname
  exact Text.fitsLine_trim (lined line (List.mem_of_head? hhead)) htext hne

end Desktop

namespace Menu
open SealedPost.Action

variable {w : Type} (env : Surroundings (StateM w)) (s : Session) (d : Desktop) (y : w)

theorem exec_ask (question : String) :
    (ask (Desktop.terminal env) question).exec s d y = ⟨d.answer, s, d.asked question, y⟩ := by
  obtain ⟨_ | ⟨line, unread⟩, printed, files⟩ := d
  · rfl
  · rw [ask, exec_bind]
    dsimp only [say, Action.perform]
    change (match Utf8.decode? line with
      | none => throw (.transport notTextMessage)
      | some line => return some (Text.trim line) : Action (StateT Desktop (StateM w)) (Option String)).exec s
        ⟨unread, printed ++ [question], files⟩ y = _
    unfold Desktop.answer
    dsimp only
    cases Utf8.decode? line with
    | none => rfl
    | some text => rfl

theorem exec_askName : ∃ result, (askName (Desktop.terminal env)).exec s d y =
    ⟨result, s, d.asked "Enter username:", y⟩ ∧
      ∀ name, result = .ok name → d.answer = .ok (some name) ∧ name ≠ "" := by
  rw [askName, askFor, exec_bind, exec_ask]
  cases d.answer with
  | error e => exact ⟨.error e, rfl, fun _ h => nomatch h⟩
  | ok answered =>
    dsimp only
    cases answered with
    | none => exact ⟨.error (.missingInput "username"), rfl, fun _ h => nomatch h⟩
    | some name =>
      dsimp only
      split
      · exact ⟨.error (.missingInput "username"), rfl, fun _ h => nomatch h⟩
      · next hname =>
        refine ⟨.ok name, rfl, fun other h => ?_⟩
        cases h
        exact ⟨rfl, hname⟩

/-- How registering from the menu can end. Nothing has happened, or the client is registered; then its identity file is
written, or it could not be. -/
inductive Registration (config : Config) (files : FileStore) : Except Failure Unit → Session → FileStore → Prop
  | failed (e : Failure) : Registration config files (.error e) s files
  | kept {identity : Identity} {after : FileStore} (unregistered : s.identity = none)
      (fits : Text.FitsLine identity.username)
      (drawn : ∃ y y', env.suite.freshKeyPair.run y = (.ok ⟨identity.privateKey, identity.publicKey⟩, y'))
      (written : files.write config.identityFile (Utf8.encode identity.toText) = (.ok (), after)) :
      Registration config files (.ok ()) { s with identity := some identity } after
  | unkept {identity : Identity} {fault : FileFault} (unregistered : s.identity = none)
      (fits : Text.FitsLine identity.username)
      (drawn : ∃ y y', env.suite.freshKeyPair.run y = (.ok ⟨identity.privateKey, identity.publicKey⟩, y'))
      (unwritten : files.write config.identityFile (Utf8.encode identity.toText) = (.error fault, files)) :
      Registration config files (.error (.config (.identityFile config.identityFile fault)))
        { s with identity := some identity } files

variable {d}

theorem exec_register (config : Config) (lined : d.Lined) :
    Registration env s config d.files ((register (Desktop.terminal env) config).exec s d y).result
      ((register (Desktop.terminal env) config).exec s d y).session
      ((register (Desktop.terminal env) config).exec s d y).outer.files := by
  obtain ⟨asked, hasked, hname⟩ := exec_askName env s d y
  rw [register, exec_bind, hasked]
  cases asked with
  | error e => exact .failed e
  | ok name =>
    obtain ⟨hanswer, hne⟩ := hname name rfl
    have fits := Desktop.fitsLine_answer lined hanswer hne
    dsimp only
    have hregister := Action.exec_register env name s (d.asked "Enter username:") y
    have hterminal : (Desktop.terminal env).toSurroundings = lifted env Desktop := rfl
    rw [exec_bind, hterminal]
    rcases hend : (Session.register (lifted env Desktop) name).exec s (d.asked "Enter username:") y with
      ⟨result, s', d', y'⟩
    rw [hend] at hregister
    obtain ⟨houter, hcase⟩ := hregister
    obtain rfl : d' = d.asked "Enter username:" := houter
    dsimp only at hcase
    cases hcase with
    | failed e => exact .failed e
    | assigned unregistered id pair y₁ y₂ drawn =>
      let identity : Identity := ⟨name, id, pair.privateKey, pair.publicKey⟩
      have hsaved : (((Desktop.terminal env).writeFile config.identityFile (Utf8.encode identity.toText)).run
          (d.asked "Enter username:")).run y' =
        (((d.files.write config.identityFile (Utf8.encode identity.toText)).1,
          { d.asked "Enter username:" with
            files := (d.files.write config.identityFile (Utf8.encode identity.toText)).2 }), y') := rfl
      dsimp only
      rw [exec_bind, exec_get]
      dsimp only
      rw [exec_bind, exec_call, hsaved]
      cases hwrite : d.files.write config.identityFile (Utf8.encode identity.toText) with
      | mk outcome after =>
        cases outcome with
        | ok _ => exact .kept unregistered fits ⟨y₁, y₂, drawn⟩ hwrite
        | error fault =>
          obtain rfl := FileStore.eq_of_write_error hwrite
          exact .unkept unregistered fits ⟨y₁, y₂, drawn⟩ hwrite

/-- The identity file names who the client is. There is no file where the client is not registered. -/
def FileAgrees (ciphers : Ciphers) (config : Config) (s : Session) (files : FileStore) : Prop :=
  Identity.ofFile ciphers config.identityFile (files.read config.identityFile) = .ok s.identity

theorem exec_start (config : Config) (d : Desktop) : (start (Desktop.terminal env) config).exec s d y =
    match Identity.ofFile env.suite.toCiphers config.identityFile (d.files.read config.identityFile) with
    | .error e => ⟨.error e, s, d, y⟩
    | .ok none => ⟨.ok (), { s with identity := none }, d, y⟩
    | .ok (some me) => ⟨.ok (), { s with identity := some me },
        { d with printed := d.printed ++ ["Welcome back, " ++ me.username ++ "."] }, y⟩ := by
  have hread : (perform ((Desktop.terminal env).readFile config.identityFile) :
      Action (StateT Desktop (StateM w)) _).exec s d y = ⟨.ok (d.files.read config.identityFile), s, d, y⟩ := rfl
  have hciphers : (Desktop.terminal env).suite.toCiphers = env.suite.toCiphers := rfl
  rw [start, exec_bind, hread]
  dsimp only
  rw [exec_bind, exec_ofExcept, hciphers]
  cases Identity.ofFile env.suite.toCiphers config.identityFile (d.files.read config.identityFile) with
  | error e => rfl
  | ok identity => cases identity <;> rfl

theorem fileAgrees_of_write {ciphers : Ciphers} {config : Config} {identity : Identity} {files after : FileStore}
    (fits : Text.FitsLine identity.username) (keyed : identity.privateKey.toBytes ≠ [])
    (derives : ciphers.derivePublicKey identity.privateKey = .ok identity.publicKey)
    (written : files.write config.identityFile (Utf8.encode identity.toText) = (.ok (), after)) :
    FileAgrees ciphers config { s with identity := some identity } after := by
  rw [FileAgrees, FileStore.read_of_write written]
  simp only [Identity.ofFile, Utf8.decode?_encode, Identity.ofText_toText fits keyed derives]
  rfl

theorem ne_nil_of_derivePublicKey {key : PrivateKey} {derived : PublicKey}
    (h : Standard.derivePublicKey key = .ok derived) : key.toBytes ≠ [] := by
  obtain ⟨bs⟩ := key
  rintro rfl
  have hunread : Standard.derivePublicKey ⟨[]⟩ = .error (.crypto .privateKeyUnreadable) := by decide +kernel
  rw [hunread] at h
  cases h

/-- Registering from the menu changes what the client knows of itself and its identity file together: if the file named
the client before, it names it afterwards, and after a failure nothing has changed. The exception is a file that cannot
be written. The client is then registered all the same, and the file is as it was. -/
theorem registration_is_all_or_nothing (config : Config)
    (standard : env.suite.toCiphers = Standard.ciphers)
    (derives : ∀ y pair y', env.suite.freshKeyPair.run y = (.ok pair, y') →
      Standard.derivePublicKey pair.privateKey = .ok pair.publicKey)
    (lined : d.Lined) (agrees : FileAgrees env.suite.toCiphers config s d.files) :
    let ending := (register (Desktop.terminal env) config).exec s d y
    (FileAgrees env.suite.toCiphers config ending.session ending.outer.files ∧
      ∀ e, ending.result = .error e → ending.session = s ∧ ending.outer.files = d.files) ∨
    ∃ identity fault, s.identity = none ∧ ending.session = { s with identity := some identity } ∧
      ending.outer.files = d.files ∧
      d.files.write config.identityFile (Utf8.encode identity.toText) = (.error fault, d.files) ∧
      ending.result = .error (.config (.identityFile config.identityFile fault)) := by
  intro ending
  have hcase : Registration env s config d.files ending.result ending.session ending.outer.files :=
    exec_register env s y config lined
  generalize ending.result = result, ending.session = after, ending.outer.files = files at hcase
  cases hcase with
  | failed e => exact .inl ⟨agrees, fun _ _ => ⟨rfl, rfl⟩⟩
  | kept unregistered fits drawn written =>
    obtain ⟨y, y', drawn⟩ := drawn
    have hderives := derives y _ y' drawn
    refine .inl ⟨fileAgrees_of_write s fits (ne_nil_of_derivePublicKey hderives) ?_ written, fun _ h => nomatch h⟩
    rw [standard]
    exact hderives
  | unkept unregistered fits drawn unwritten => exact .inr ⟨_, _, unregistered, rfl, rfl, unwritten, rfl⟩

/-- Where the directory of the identity file is missing, a registration that fails is kept in memory alone, and the next
attempt is refused because of it. -/
theorem unwritten_registration_kept :
    let env : Surroundings (StateM Unit) := {
      link := {
        connect := pure (.ok ())
        send _ := pure (.ok ())
        receive count := pure (.ok (if count = 7 then (ResponseHeader.mk 2 2100 16).encode else List.replicate count 1))
        disconnect := pure () }
      suite := {
        Standard.ciphers with
        freshKeyPair := pure (.ok ⟨⟨[1]⟩, ⟨.replicate 160 1⟩⟩)
        freshSymmetricKey := pure (.ok ⟨.replicate 16 1⟩)
        wrap _ message := pure (.ok message) } }
    let config : Config := ⟨"", "", "missing/my.info", ""⟩
    let typed : Desktop := { unread := [Utf8.encode "ann\n", Utf8.encode "bob\n"] }
    let first := (register (Desktop.terminal env) config).exec {} typed ()
    let second := (register (Desktop.terminal env) config).exec first.session first.outer ()
    FileAgrees env.suite.toCiphers config {} typed.files ∧
      first.result = .error (.config (.identityFile "missing/my.info" .notFound)) ∧
      first.session.identity = some ⟨"ann", .replicate 1, ⟨[1]⟩, ⟨.replicate 160 1⟩⟩ ∧
      Identity.ofFile env.suite.toCiphers config.identityFile (first.outer.files.read config.identityFile) = .ok none ∧
      second.result = .error (.alreadyRegistered "ann") := by
  intro env config typed first second
  have hbefore : typed.files.read config.identityFile = .error .notFound := by decide +kernel
  have hafter : first.outer.files.read config.identityFile = .error .notFound := by decide +kernel
  refine ⟨?_, by decide +kernel, by decide +kernel, ?_, by decide +kernel⟩
  · rw [FileAgrees, hbefore]
    rfl
  · rw [hafter]
    rfl

end Menu

end SealedPost
