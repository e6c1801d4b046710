import SealedPost.Proofs.Registration
import SealedPost.Proofs.Showing

/-! What the actions of the menu read: lines off the front of the input, which none of them puts back. The operations of
a session leave the desktop alone altogether. -/
namespace SealedPost

namespace Action

variable {w σ τ α β : Type}

section outer

abbrev LeavesOuter (act : Action (StateT σ (StateM τ)) α) : Prop :=
  act.Keeps fun _ x => x

variable (env : Surroundings (StateM τ))

theorem leavesOuter_roundTrip (request : Request) (expected : ResponseCode) :
    (Session.roundTrip (lifted env σ) request expected).LeavesOuter :=
  keeps_roundTrip _ (fun _ _ _ _ => rfl) (fun _ _ _ _ _ => rfl) request expected

theorem leavesOuter_withConnection {act : Action (StateT σ (StateM τ)) α} (h : act.LeavesOuter) :
    (Session.withConnection (lifted env σ) act).LeavesOuter :=
  Keeps.withConnection _ (fun _ _ _ => rfl) (fun _ _ _ => rfl) h

theorem leavesOuter_ownId : (Session.ownId : Action (StateT σ (StateM τ)) ClientId).LeavesOuter := by
  intro s x y
  rw [exec_ownId]

theorem leavesOuter_refreshDirectory (id : ClientId) : (Session.refreshDirectory (lifted env σ) id).LeavesOuter :=
  .bind (leavesOuter_roundTrip env _ _) fun _ _ _ _ => rfl

theorem leavesOuter_lookupKey (id peer : ClientId) : (Session.lookupKey (lifted env σ) id peer).LeavesOuter :=
  .bind (leavesOuter_roundTrip env _ _) fun _ _ _ _ => rfl

theorem leavesOuter_deliver (id peer : ClientId) (kind : MessageKind) (content : Bytes) :
    (Session.deliver (lifted env σ) id peer kind content).LeavesOuter :=
  .bind (fun _ _ _ => rfl) fun _ => .bind (leavesOuter_roundTrip env _ _) fun _ _ _ _ => rfl

theorem leavesOuter_clientList : (Session.clientList (lifted env σ)).LeavesOuter :=
  .bind leavesOuter_ownId fun id =>
    .bind (leavesOuter_withConnection env (leavesOuter_refreshDirectory env id)) fun _ _ _ _ => rfl

theorem leavesOuter_findPeer (name : String) : (Session.findPeer (lifted env σ) name).LeavesOuter := by
  refine .bind (leavesOuter_clientList env) fun directory => ?_
  cases directory.find? name <;> exact fun _ _ _ => rfl

theorem leavesOuter_fetchPublicKey (peer : ClientId) : (Session.fetchPublicKey (lifted env σ) peer).LeavesOuter :=
  .bind leavesOuter_ownId fun id => leavesOuter_withConnection env (leavesOuter_lookupKey env id peer)

theorem leavesOuter_requestKey (peer : ClientId) : (Session.requestKey (lifted env σ) peer).LeavesOuter :=
  .bind leavesOuter_ownId fun id => leavesOuter_withConnection env (leavesOuter_deliver env id peer _ _)

theorem leavesOuter_sendKey (peer : ClientId) : (Session.sendKey (lifted env σ) peer).LeavesOuter := by
  refine .bind leavesOuter_ownId fun id => .bind (leavesOuter_withConnection env ?_) fun _ _ _ _ => rfl
  refine .bind (leavesOuter_lookupKey env id peer) fun answer => .bind (fun _ _ _ => rfl) fun key => ?_
  exact .bind (fun _ _ _ => rfl) fun wrapped => .bind (leavesOuter_deliver env id peer _ _) fun _ _ _ _ => rfl

theorem leavesOuter_sendContent (peer : ClientId) (kind : MessageKind) (plaintext : Bytes) :
    (Session.sendContent (lifted env σ) peer kind plaintext).LeavesOuter := by
  refine .bind leavesOuter_ownId fun id => .bind (fun _ _ _ => rfl) fun s => ?_
  cases s.keys.lookup peer with
  | none => exact fun _ _ _ => rfl
  | some key => exact leavesOuter_withConnection env (leavesOuter_deliver env id peer _ _)

theorem leavesOuter_fetchWaiting : (Session.fetchWaiting (lifted env σ)).LeavesOuter :=
  .bind leavesOuter_ownId fun id => .bind (leavesOuter_withConnection env
    (.bind (leavesOuter_refreshDirectory env id) fun _ => leavesOuter_roundTrip env _ _)) fun _ _ _ _ => rfl

end outer

/-- An action after which there is no more to read than before: what is left is the end of what was there. -/
def ReadsOn (act : Action (StateT Desktop (StateM w)) α) : Prop :=
  ∀ s d y, (act.exec s d y).outer.unread <:+ d.unread

theorem Keeps.readsOn {act : Action (StateT Desktop (StateM w)) α} (h : act.Keeps fun _ d => d.unread) :
    act.ReadsOn := by
  intro s d y
  have hsame : (act.exec s d y).outer.unread = d.unread := h s d y
  exact hsame ▸ List.suffix_rfl

theorem LeavesOuter.readsOn {act : Action (StateT Desktop (StateM w)) α} (h : act.LeavesOuter) : act.ReadsOn :=
  Keeps.readsOn fun s d y => congrArg Desktop.unread (h s d y)

theorem ReadsOn.bind {act : Action (StateT Desktop (StateM w)) α} {next : α → Action (StateT Desktop (StateM w)) β}
    (h : act.ReadsOn) (hn : ∀ a, (next a).ReadsOn) : (act >>= next).ReadsOn := by
  intro s d y
  have hact := h s d y
  rw [exec_bind]
  rcases hend : act.exec s d y with ⟨_ | a, s', d', y'⟩ <;> rw [hend] at hact
  · exact hact
  · exact (hn a s' d' y').trans hact

theorem ReadsOn.forIn {act : α → β → Action (StateT Desktop (StateM w)) (ForInStep β)} (h : ∀ a b, (act a b).ReadsOn)
    (as : List α) (b : β) : (ForIn.forIn as b act).ReadsOn := by
  induction as generalizing b with
  | nil => exact Keeps.readsOn fun _ _ _ => rfl
  | cons a as ih =>
    rw [List.forIn_cons]
    refine .bind (h a b) fun step => ?_
    cases step with
    | done b => exact Keeps.readsOn fun _ _ _ => rfl
    | yield b => exact ih b

end Action

namespace Menu
open SealedPost.Action

variable {w : Type} (env : Surroundings (StateM w)) (config : Config)

theorem readsOn_say (line : String) : (say (Desktop.terminal env) line).ReadsOn :=
  Keeps.readsOn fun _ _ _ => rfl

theorem readsOn_ask (question : String) : (ask (Desktop.terminal env) question).ReadsOn := by
  intro s d y
  rw [exec_ask]
  exact List.tail_suffix d.unread

theorem readsOn_askFor (question what : String) : (askFor (Desktop.terminal env) question what).ReadsOn := by
  refine .bind (readsOn_ask env question) fun answered => ?_
  rcases answered with _ | answer
  · exact Keeps.readsOn fun _ _ _ => rfl
  · dsimp only
    split <;> exact Keeps.readsOn fun _ _ _ => rfl

theorem readsOn_askPeer : (askPeer (Desktop.terminal env)).ReadsOn :=
  .bind (readsOn_askFor env _ _) fun name => .bind (leavesOuter_findPeer env name).readsOn fun _ =>
    Keeps.readsOn fun _ _ _ => rfl

/-- A remark is made or not, and the rest follows. -/
theorem readsOn_remark {α : Type} {next : PUnit → Action (StateT Desktop (StateM w)) α} (noted : Prop) [Decidable noted]
    (line : String) (h : (next ⟨⟩).ReadsOn) :
    (if noted then say (Desktop.terminal env) line >>= next else next ⟨⟩).ReadsOn := by
  split
  · exact .bind (readsOn_say env line) fun _ => h
  · exact h

theorem readsOn_showWaiting : (showWaiting (Desktop.terminal env) config).ReadsOn := by
  refine .bind (leavesOuter_fetchWaiting env).readsOn fun messages => ?_
  have hshown : (perform (showMessages (Desktop.terminal env) config messages) :
      Action (StateT Desktop (StateM w)) Unit).Keeps fun _ d => d.unread := by
    intro s d y
    obtain ⟨shown, y', -, hrun, -⟩ := runs_showMessages (Desktop.onDesktop_terminal env) config d y messages
    have hdesktop : ((perform (showMessages (Desktop.terminal env) config messages) :
        Action (StateT Desktop (StateM w)) Unit).exec s d y).outer = afterShowing config d shown :=
      congrArg (·.1.2) hrun
    rw [hdesktop]
    rfl
  exact readsOn_remark env _ _ hshown.readsOn

/-- No action reads more than its own answers, and none puts a line back. -/
theorem readsOn_act (choice : Choice) : (act (Desktop.terminal env) config choice).ReadsOn := by
  cases choice with
  | register =>
    have hkept (name : String) : (Session.register (lifted env Desktop) name).LeavesOuter :=
      fun s x y => (Action.exec_register env name s x y).1
    refine .bind (readsOn_askFor env _ _) fun name => .bind (hkept name).readsOn fun id => ?_
    refine .bind (Keeps.readsOn fun _ _ _ => rfl) fun s => ?_
    dsimp only
    cases s.identity with
    | none => exact readsOn_say env _
    | some identity => exact .bind (Keeps.readsOn fun _ _ _ => rfl) fun _ => readsOn_say env _
  | listClients =>
    refine .bind (leavesOuter_clientList env).readsOn fun directory => ?_
    exact readsOn_remark env _ _ (.bind (ReadsOn.forIn (fun _ _ => .bind (readsOn_say env _) fun _ =>
      Keeps.readsOn fun _ _ _ => rfl) _ _) fun _ => Keeps.readsOn fun _ _ _ => rfl)
  | showPublicKey =>
    exact .bind (readsOn_askPeer env) fun found => .bind (leavesOuter_fetchPublicKey env found.2.id).readsOn fun _ =>
      .bind (readsOn_say env _) fun _ => readsOn_say env _
  | showWaiting => exact readsOn_showWaiting env config
  | sendText =>
    exact .bind (readsOn_askPeer env) fun found => .bind (readsOn_ask env _) fun _ =>
      .bind (leavesOuter_sendContent env found.2.id _ _).readsOn fun _ => readsOn_say env _
  | requestKey =>
    exact .bind (readsOn_askPeer env) fun found =>
      .bind (leavesOuter_requestKey env found.2.id).readsOn fun _ => readsOn_say env _
  | sendKey =>
    exact .bind (readsOn_askPeer env) fun found =>
      .bind (leavesOuter_sendKey env found.2.id).readsOn fun _ => readsOn_say env _
  | sendFile =>
    exact .bind (readsOn_askPeer env) fun found => .bind (readsOn_askFor env _ _) fun _ =>
      .bind (Keeps.readsOn fun _ _ _ => rfl) fun _ =>
        .bind (leavesOuter_sendContent env found.2.id _ _).readsOn fun _ => readsOn_say env _
  | leave => exact Keeps.readsOn fun _ _ _ => rfl

end Menu

end SealedPost
