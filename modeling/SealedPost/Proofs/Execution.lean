import SealedPost.Session.Operations

/-! Running an action to its end: the session, the world around it and the outcome, and how sequencing composes. -/
namespace SealedPost

structure Ending (σ τ α : Type) where
  result : Except Failure α
  session : Session
  outer : σ
  inner : τ

inductive Operation where
  | register (username : String)
  | clientList
  | findPeer (name : String)
  | fetchPublicKey (peer : ClientId)
  | requestKey (peer : ClientId)
  | sendKey (peer : ClientId)
  | sendText (peer : ClientId) (text : String)
  | sendFile (peer : ClientId) (contents : Bytes)
  | fetchWaiting
deriving DecidableEq

inductive Reply where
  | registered (id : ClientId)
  | directory (directory : Directory)
  | peer (peer : Peer)
  | key (answer : KeyAnswer)
  | receipt (receipt : Receipt)
  | messages (received : List ReceivedMessage)
deriving DecidableEq

def Operation.perform {m : Type → Type} [Monad m] (env : Surroundings m) : Operation → Action m Reply
  | .register username => .registered <$> Session.register env username
  | .clientList => .directory <$> Session.clientList env
  | .findPeer name => .peer <$> Session.findPeer env name
  | .fetchPublicKey peer => .key <$> Session.fetchPublicKey env peer
  | .requestKey peer => .receipt <$> Session.requestKey env peer
  | .sendKey peer => .receipt <$> Session.sendKey env peer
  | .sendText peer text => .receipt <$> Session.sendText env peer text
  | .sendFile peer contents => .receipt <$> Session.sendFile env peer contents
  | .fetchWaiting => .messages <$> Session.fetchWaiting env

namespace Action

variable {σ τ α β ε : Type}

def exec (act : Action (StateT σ (StateM τ)) α) (s : Session) (x : σ) (y : τ) : Ending σ τ α :=
  let (((result, session), outer), inner) := ((act.run.run s).run x).run y
  { result, session, outer, inner }

variable (s : Session) (x : σ) (y : τ)

@[simp] theorem exec_pure (a : α) :
    (pure a : Action (StateT σ (StateM τ)) α).exec s x y = ⟨.ok a, s, x, y⟩ := rfl

@[simp] theorem exec_ofExcept (outcome : Except Failure α) :
    (ofExcept outcome : Action (StateT σ (StateM τ)) α).exec s x y = ⟨outcome, s, x, y⟩ := rfl

@[simp] theorem exec_get :
    (get : Action (StateT σ (StateM τ)) Session).exec s x y = ⟨.ok s, s, x, y⟩ := rfl

/-- An action goes on from where the one before it ended, or ends with its failure. -/
theorem exec_bind (act : Action (StateT σ (StateM τ)) α) (next : α → Action (StateT σ (StateM τ)) β) :
    (act >>= next).exec s x y =
      match act.exec s x y with
      | ⟨.ok a, s', x', y'⟩ => (next a).exec s' x' y'
      | ⟨.error e, s', x', y'⟩ => ⟨.error e, s', x', y'⟩ := by
  unfold exec ExceptT.run StateT.run
  simp only [bind, ExceptT.bind, ExceptT.mk, StateT.bind, ExceptT.bindCont]
  rcases act s x y with ⟨⟨⟨result, s'⟩, x'⟩, y'⟩
  cases result <;> rfl

theorem exec_map (f : α → β) (act : Action (StateT σ (StateM τ)) α) :
    (f <$> act).exec s x y =
      ⟨(act.exec s x y).result.map f, (act.exec s x y).session, (act.exec s x y).outer, (act.exec s x y).inner⟩ := by
  unfold exec ExceptT.run StateT.run
  simp only [Functor.map, ExceptT.map, ExceptT.mk, bind, StateT.bind]
  rcases act s x y with ⟨⟨⟨result, s'⟩, x'⟩, y'⟩
  cases result <;> rfl

theorem exec_call (asFailure : ε → Failure) (f : StateT σ (StateM τ) (Except ε α)) :
    (call asFailure f).exec s x y =
      ⟨((f.run x).run y).1.1.mapError asFailure, s, ((f.run x).run y).1.2, ((f.run x).run y).2⟩ := rfl

theorem exec_draw (f : StateT σ (StateM τ) (Except Failure α)) :
    (draw f).exec s x y =
      ⟨((f.run x).run y).1.1, s, ((f.run x).run y).1.2, ((f.run x).run y).2⟩ := by
  rw [draw, exec_call]
  rcases ((f.run x).run y) with ⟨⟨result, x'⟩, y'⟩
  cases result <;> rfl

theorem exec_attempt (act : Action (StateT σ (StateM τ)) α) :
    act.attempt.exec s x y =
      ⟨.ok (act.exec s x y).result, (act.exec s x y).session, (act.exec s x y).outer, (act.exec s x y).inner⟩ := rfl

theorem exec_ownId :
    (Session.ownId : Action (StateT σ (StateM τ)) ClientId).exec s x y =
      ⟨match s.identity with | some me => .ok me.id | none => .error .notRegistered, s, x, y⟩ := by
  rw [Session.ownId, exec_bind, exec_get]
  cases known : s.identity <;> simp only [known] <;> rfl

variable {s}

/-- What a registered client does, it does under its id. -/
theorem exec_admitted {me : Identity} (registered : s.identity = some me)
    (next : ClientId → Action (StateT σ (StateM τ)) α) :
    (Session.ownId >>= next).exec s x y = (next me.id).exec s x y := by
  rw [exec_bind, exec_ownId, registered]

theorem exec_refused (unregistered : s.identity = none) (next : ClientId → Action (StateT σ (StateM τ)) α) :
    (Session.ownId >>= next).exec s x y = ⟨.error .notRegistered, s, x, y⟩ := by
  rw [exec_bind, exec_ownId, unregistered]

section surroundings

variable (env : Surroundings (StateT σ (StateM τ)))

/-- What runs in a connection that opens ends as it would by itself, and then the connection is closed. -/
theorem exec_withConnection_of_opens {act : Action (StateT σ (StateM τ)) α} {s : Session} {x x' : σ} {y y' : τ}
    {ending : Ending σ τ α} (opens : (env.link.connect.run x).run y = ((.ok (), x'), y'))
    (h : act.exec s x' y' = ending) :
    (Session.withConnection env act).exec s x y = ⟨ending.result, ending.session,
      ((env.link.disconnect.run ending.outer).run ending.inner).1.2,
      ((env.link.disconnect.run ending.outer).run ending.inner).2⟩ := by
  rw [Session.withConnection, exec_bind, exec_call, opens]
  dsimp only [Except.mapError]
  rw [exec_bind, exec_attempt, h]
  rfl

/-- An action after which the session and the outer layer of the world look as before, whatever becomes of it. -/
def Keeps {γ : Type} (view : Session → σ → γ) (act : Action (StateT σ (StateM τ)) α) : Prop :=
  ∀ s x y, view (act.exec s x y).session (act.exec s x y).outer = view s x

theorem Keeps.bind {γ : Type} {view : Session → σ → γ} {act : Action (StateT σ (StateM τ)) α}
    {next : α → Action (StateT σ (StateM τ)) β} (h : act.Keeps view) (hn : ∀ a, (next a).Keeps view) :
    (act >>= next).Keeps view := by
  intro s x y
  have hact := h s x y
  rw [exec_bind]
  rcases hend : act.exec s x y with ⟨_ | a, s', x', y'⟩ <;> rw [hend] at hact
  · exact hact
  · exact (hn a s' x' y').trans hact

theorem keeps_roundTrip {γ : Type} {view : Session → σ → γ}
    (sends : ∀ bytes, (call Session.transportFailure (env.link.send bytes)).Keeps view)
    (receives : ∀ asFailure count, (call asFailure (env.link.receive count)).Keeps view)
    (request : Request) (expected : ResponseCode) : (Session.roundTrip env request expected).Keeps view := by
  have checked (header : ResponseHeader) (payload : Bytes) :
      (if payload.length = header.payloadSize.toNat then pure ⟨header, payload⟩
        else throw (.truncatedPayload header.payloadSize.toNat) :
          Action (StateT σ (StateM τ)) Response).Keeps view := by
    split <;> exact fun s x y => rfl
  refine .bind (sends _) fun _ => .bind ?_ fun response => fun s x y => rfl
  refine .bind (receives _ _) fun head => .bind (fun s x y => rfl) fun header => ?_
  dsimp only
  split
  · exact .bind (fun s x y => rfl) (checked header)
  · exact .bind (receives _ _) (checked header)

/-- An action inside a connection keeps what the connection and it keep. -/
theorem Keeps.withConnection {γ : Type} {view : Session → σ → γ} {act : Action (StateT σ (StateM τ)) α}
    (connects : (call Session.transportFailure env.link.connect).Keeps view)
    (disconnects : (perform env.link.disconnect).Keeps view) (h : act.Keeps view) :
    (Session.withConnection env act).Keeps view :=
  .bind connects fun _ => .bind (fun s x y => h s x y) fun _ => .bind disconnects fun _ _ _ _ => rfl

def LeavesSession (act : Action (StateT σ (StateM τ)) α) : Prop :=
  ∀ s x y, (act.exec s x y).session = s

theorem LeavesSession.exec_eq {act : Action (StateT σ (StateM τ)) α} (h : act.LeavesSession) {s : Session} {x : σ}
    {y : τ} {result : Except Failure α} (ends : (act.exec s x y).result = result) :
    ∃ x' y', act.exec s x y = ⟨result, s, x', y'⟩ := by
  refine ⟨(act.exec s x y).outer, (act.exec s x y).inner, ?_⟩
  rw [← ends]
  exact congrArg (Ending.mk _ · _ _) (h s x y)

theorem leavesSession_roundTrip (request : Request) (expected : ResponseCode) :
    (Session.roundTrip env request expected).LeavesSession := by
  have hkept : (Session.roundTrip env request expected).Keeps fun s _ => s :=
    keeps_roundTrip env (fun _ _ _ _ => rfl) (fun _ _ _ _ _ => rfl) request expected
  exact hkept

end surroundings

end Action

end SealedPost
