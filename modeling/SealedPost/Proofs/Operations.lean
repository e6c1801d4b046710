import SealedPost.Proofs.Exchange

/-! The courses of the public operations of a client, over whatever link and cryptography. -/
namespace SealedPost

namespace Session
open SealedPost.Action

/-- Asking for the directory. It replaces the one that is held when a payload comes back. -/
inductive Refreshing (id : ClientId) : Course Unit
  | failed {s : Session} {events : List Event} {e : Failure}
      (trip : RoundTrip (.clientList id) .clientList events (.error e)) : Refreshing id s events (.error e) s
  | told {s : Session} {events : List Event} {payload : Bytes}
      (trip : RoundTrip (.clientList id) .clientList events (.ok payload)) :
      Refreshing id s events (.ok ()) { s with directory := .ofPayload payload }

inductive LookingUp (id peer : ClientId) : List Event → Except Failure KeyAnswer → Prop
  | failed {events : List Event} {e : Failure}
      (trip : RoundTrip (.publicKey id peer) .publicKey events (.error e)) : LookingUp id peer events (.error e)
  | told {events : List Event} {payload : Bytes}
      (trip : RoundTrip (.publicKey id peer) .publicKey events (.ok payload)) :
      LookingUp id peer events (KeyAnswer.decode payload)

inductive Delivering (id peer : ClientId) (kind : MessageKind) (content : Bytes) :
    List Event → Except Failure Receipt → Prop
  | tooLong {e : Failure} (long : Request.message id peer kind content = .error e) :
      Delivering id peer kind content [] (.error e)
  | failed {request : Request} {events : List Event} {e : Failure}
      (built : Request.message id peer kind content = .ok request)
      (trip : RoundTrip request .messageSent events (.error e)) : Delivering id peer kind content events (.error e)
  | told {request : Request} {events : List Event} {payload : Bytes}
      (built : Request.message id peer kind content = .ok request)
      (trip : RoundTrip request .messageSent events (.ok payload)) :
      Delivering id peer kind content events (Receipt.decode payload)

/-- Sending a fresh key: the peer's public key is asked for, a key is drawn and wrapped with it, and what came of
the wrapping is handed to the relay. -/
inductive KeySending (id peer : ClientId) : List Event → Except Failure (SymmetricKey × Receipt) → Prop
  | unanswered {events : List Event} {e : Failure} (lookup : LookingUp id peer events (.error e)) :
      KeySending id peer events (.error e)
  | undrawn {events : List Event} {answer : KeyAnswer} (lookup : LookingUp id peer events (.ok answer)) (e : Failure) :
      KeySending id peer (events ++ [.freshKey (.error e)]) (.error e)
  | unwrapped {events : List Event} {answer : KeyAnswer} (lookup : LookingUp id peer events (.ok answer))
      (key : SymmetricKey) (e : Failure) :
      KeySending id peer (events ++ [.freshKey (.ok key), .wrap answer.publicKey key.toBytes (.error e)]) (.error e)
  | wrapped {events rest : List Event} {answer : KeyAnswer} {result : Except Failure Receipt}
      (lookup : LookingUp id peer events (.ok answer)) (key : SymmetricKey) (content : Bytes)
      (delivery : Delivering id peer .keySend content rest result) :
      KeySending id peer
        (events ++ .freshKey (.ok key) :: .wrap answer.publicKey key.toBytes (.ok content) :: rest)
        (result.map fun receipt => (key, receipt))

inductive Fetching (id : ClientId) : Course Bytes
  | undirected {s s' : Session} {events : List Event} {e : Failure}
      (refresh : Refreshing id s events (.error e) s') : Fetching id s events (.error e) s'
  | directed {s s' : Session} {events rest : List Event} {result : Except Failure Bytes}
      (refresh : Refreshing id s events (.ok ()) s')
      (trip : RoundTrip (.waitingMessages id) .waitingMessages rest result) :
      Fetching id s (events ++ rest) result s'

inductive Registered {α : Type} (course : ClientId → Course α) : Course α
  | refused {s : Session} (unregistered : s.identity = none) : Registered course s [] (.error .notRegistered) s
  | admitted {s s' : Session} {me : Identity} {events : List Event} {result : Except Failure α}
      (registered : s.identity = some me) (taken : course me.id s events result s') :
      Registered course s events result s'

inductive Registering (username : String) : Course ClientId
  | already {s : Session} {me : Identity} (registered : s.identity = some me) :
      Registering username s [] (.error (.alreadyRegistered me.username)) s
  | undrawn {s : Session} (unregistered : s.identity = none) (e : Failure) :
      Registering username s [.freshKeyPair (.error e)] (.error e) s
  | failed {s : Session} {pair : KeyPair} {events : List Event} {e : Failure} (unregistered : s.identity = none)
      (trip : Connected (.still (RoundTrip (.register username pair.publicKey) .registerOk)) s events (.error e) s) :
      Registering username s (.freshKeyPair (.ok pair) :: events) (.error e) s
  | short {s : Session} {pair : KeyPair} {events : List Event} {payload : Bytes} (unregistered : s.identity = none)
      (trip : Connected (.still (RoundTrip (.register username pair.publicKey) .registerOk)) s events (.ok payload) s)
      (idless : ClientId.first? payload = none) :
      Registering username s (.freshKeyPair (.ok pair) :: events) (.error (.truncatedPayload 16)) s
  | assigned {s : Session} {pair : KeyPair} {events : List Event} {payload : Bytes} {id : ClientId}
      (unregistered : s.identity = none)
      (trip : Connected (.still (RoundTrip (.register username pair.publicKey) .registerOk)) s events (.ok payload) s)
      (given : ClientId.first? payload = some id) :
      Registering username s (.freshKeyPair (.ok pair) :: events) (.ok id)
        { s with identity := some ⟨username, id, pair.privateKey, pair.publicKey⟩ }

inductive Listing (id : ClientId) : Course Directory
  | failed {s s' : Session} {events : List Event} {e : Failure}
      (course : Connected (Refreshing id) s events (.error e) s') : Listing id s events (.error e) s'
  | told {s s' : Session} {events : List Event} (course : Connected (Refreshing id) s events (.ok ()) s') :
      Listing id s events (.ok s'.directory) s'

def Finding (name : String) : Course Peer :=
  (Registered Listing).andThen fun directory => .still fun events result =>
    events = [] ∧ result = match directory.find? name with
      | some peer => .ok peer
      | none => .error (.peerNotFound name)

inductive KeySharing (peer id : ClientId) : Course Receipt
  | failed {s : Session} {events : List Event} {e : Failure}
      (course : Connected (.still (KeySending id peer)) s events (.error e) s) :
      KeySharing peer id s events (.error e) s
  | shared {s : Session} {events : List Event} {key : SymmetricKey} {receipt : Receipt}
      (course : Connected (.still (KeySending id peer)) s events (.ok (key, receipt)) s) :
      KeySharing peer id s events (.ok receipt) { s with keys := s.keys.establish peer key }

inductive ContentSending (ciphers : Ciphers) (peer : ClientId) (kind : MessageKind) (plaintext : Bytes)
    (id : ClientId) : Course Receipt
  | keyless {s : Session} (unheld : s.keys.lookup peer = none) :
      ContentSending ciphers peer kind plaintext id s [] (.error (.channelNotEstablished peer)) s
  | keyed {s : Session} {key : SymmetricKey} {events : List Event} {result : Except Failure Receipt}
      (held : s.keys.lookup peer = some key)
      (course : Connected (.still (Delivering id peer kind (ciphers.encrypt key plaintext))) s events result s) :
      ContentSending ciphers peer kind plaintext id s events result s

inductive Collecting (ciphers : Ciphers) (id : ClientId) : Course (List ReceivedMessage)
  | failed {s s' : Session} {events : List Event} {e : Failure}
      (course : Connected (Fetching id) s events (.error e) s') : Collecting ciphers id s events (.error e) s'
  | told {s s' : Session} {events : List Event} {payload : Bytes}
      (course : Connected (Fetching id) s events (.ok payload) s') :
      Collecting ciphers id s events (.ok (s'.absorbAll ciphers (parseQueue payload)).1)
        (s'.absorbAll ciphers (parseQueue payload)).2

variable {w : Type} (env : Surroundings (StateM w))

theorem refreshDirectory_does (id : ClientId) : (refreshDirectory env.recorded id).Does (Refreshing id) := by
  refine ((roundTrip_does env (.clientList id) .clientList).bind fun payload =>
    does_modify fun s => { s with directory := .ofPayload payload }).mono ?_
  rintro s events result s' (⟨trip, rfl⟩ | ⟨⟨trip, rfl⟩, rfl, rfl, rfl⟩)
  · exact .failed trip
  · rw [List.append_nil]
    exact .told trip

theorem lookupKey_does (id peer : ClientId) : (lookupKey env.recorded id peer).Does (.still (LookingUp id peer)) := by
  refine ((roundTrip_does env (.publicKey id peer) .publicKey).bind fun payload =>
    does_ofExcept (KeyAnswer.decode payload)).mono ?_
  rintro s events result s' (⟨trip, rfl⟩ | ⟨⟨trip, rfl⟩, ⟨rfl, rfl⟩, rfl⟩)
  · exact ⟨.failed trip, rfl⟩
  · rw [List.append_nil]
    exact ⟨.told trip, rfl⟩

theorem deliver_does (id peer : ClientId) (kind : MessageKind) (content : Bytes) :
    (deliver env.recorded id peer kind content).Does (.still (Delivering id peer kind content)) := by
  refine ((does_ofExcept (Request.message id peer kind content)).bind fun request =>
    (roundTrip_does env request .messageSent).bind fun payload => does_ofExcept (Receipt.decode payload)).mono ?_
  rintro s events result s' (⟨⟨rfl, built⟩, rfl⟩ | ⟨⟨⟨rfl, built⟩, rfl⟩, rest⟩)
  · exact ⟨.tooLong built.symm, rfl⟩
  · rcases rest with ⟨trip, rfl⟩ | ⟨⟨trip, rfl⟩, ⟨rfl, rfl⟩, rfl⟩
    · exact ⟨.failed built.symm trip, rfl⟩
    · rw [List.append_nil]
      exact ⟨.told built.symm trip, rfl⟩

/-- An action that starts by asking who the client is. -/
theorem Does.registered {α : Type} {next : ClientId → Action (StateT (List Event) (StateM w)) α}
    {course : ClientId → Course α} (h : ∀ id, (next id).Does (course id)) :
    (ownId >>= next).Does (Registered course) := by
  intro s record x
  rw [exec_bind, exec_ownId]
  cases known : s.identity with
  | none => exact ⟨[], (List.append_nil record).symm, .refused known⟩
  | some me =>
    obtain ⟨events, hrecord, taken⟩ := h me.id s record x
    exact ⟨events, hrecord, .admitted known taken⟩

theorem clientList_does : (clientList env.recorded).Does (Registered Listing) := by
  refine Does.registered fun id => ?_
  refine ((withConnection_does env (refreshDirectory_does env id)).bind fun _ => does_get.map Session.directory).mono ?_
  rintro s events result s' (course | ⟨course, _, rfl, rfl, rfl, rfl⟩)
  · exact .failed course
  · rw [List.append_nil]
    exact .told course

theorem findPeer_does (name : String) : (findPeer env.recorded name).Does (Finding name) := by
  refine (clientList_does env).bind fun directory => ?_
  cases found : directory.find? name with
  | none => exact does_ofExcept (.error (.peerNotFound name))
  | some peer => exact does_ofExcept (.ok peer)

theorem fetchPublicKey_does (peer : ClientId) :
    (fetchPublicKey env.recorded peer).Does (Registered fun id => Connected (.still (LookingUp id peer))) :=
  Does.registered fun id => withConnection_does env (lookupKey_does env id peer)

theorem requestKey_does (peer : ClientId) :
    (requestKey env.recorded peer).Does
      (Registered fun id => Connected (.still (Delivering id peer .keyRequest []))) :=
  Does.registered fun id => withConnection_does env (deliver_does env id peer .keyRequest [])

private theorem keySending_does (id peer : ClientId) :
    (do let answer ← lookupKey env.recorded id peer
        let key ← draw env.recorded.suite.freshSymmetricKey
        let wrapped ← draw (env.recorded.suite.wrap answer.publicKey key.toBytes)
        let receipt ← deliver env.recorded id peer .keySend wrapped
        return (key, receipt)).Does (.still (KeySending id peer)) := by
  refine ((lookupKey_does env id peer).bind fun answer => (does_draw .freshKey _).bind fun key =>
    (does_draw (.wrap answer.publicKey key.toBytes) _).bind fun wrapped =>
    (deliver_does env id peer .keySend wrapped).bind fun receipt => does_ofExcept (.ok (key, receipt))).mono ?_
  rintro s events result s' (⟨lookup, rfl⟩ | ⟨⟨lookup, rfl⟩, rest⟩)
  · exact ⟨.unanswered lookup, rfl⟩
  rcases rest with ⟨⟨_, rfl, rfl⟩, rfl⟩ | ⟨⟨⟨_, rfl, rfl⟩, rfl⟩, rest⟩
  · exact ⟨.undrawn lookup _, rfl⟩
  rcases rest with ⟨⟨_, rfl, rfl⟩, rfl⟩ | ⟨⟨⟨_, rfl, rfl⟩, rfl⟩, rest⟩
  · exact ⟨.unwrapped lookup _ _, rfl⟩
  rcases rest with ⟨delivery, rfl⟩ | ⟨⟨delivery, rfl⟩, ⟨rfl, rfl⟩, rfl⟩
  · exact ⟨.wrapped lookup _ _ delivery, rfl⟩
  · rw [List.append_nil]
    exact ⟨.wrapped lookup _ _ delivery, rfl⟩

/-- A key is sent in one connection: asked for, drawn, wrapped, and handed over. -/
theorem sendKey_does (peer : ClientId) : (sendKey env.recorded peer).Does (Registered (KeySharing peer)) := by
  refine Does.registered fun id => ?_
  refine ((withConnection_does env (keySending_does env id peer)).bind fun sent =>
    (does_modify fun s => { s with keys := s.keys.establish peer sent.1 }).bind fun _ =>
    does_ofExcept (.ok sent.2)).mono ?_
  rintro s events result s' (course | ⟨course, rest⟩)
  · cases course.session_eq
    exact .failed course
  · rcases rest with ⟨_, ⟨⟩, _⟩ | ⟨⟨rfl, -, rfl⟩, ⟨rfl, rfl⟩, rfl⟩
    cases course.session_eq
    rw [List.append_nil, List.append_nil]
    exact .shared course

theorem sendContent_does (peer : ClientId) (kind : MessageKind) (plaintext : Bytes) :
    (sendContent env.recorded peer kind plaintext).Does
      (Registered (ContentSending env.suite.toCiphers peer kind plaintext)) := by
  refine Does.registered fun id => Does.inspect fun s₀ => ?_
  cases known : s₀.keys.lookup peer with
  | none =>
    refine (does_ofExcept (.error (.channelNotEstablished peer))).mono ?_
    rintro s events result s' ⟨⟨rfl, rfl⟩, rfl⟩ rfl
    exact .keyless known
  | some key =>
    refine (withConnection_does env (deliver_does env id peer kind (env.suite.encrypt key plaintext))).mono ?_
    rintro s events result s' course rfl
    cases course.session_eq
    exact .keyed known course

/-- A fetch takes in what it collected after the connection is closed. -/
theorem fetchWaiting_does : (fetchWaiting env.recorded).Does (Registered (Collecting env.suite.toCiphers)) := by
  have fetching (id : ClientId) :
      (do refreshDirectory env.recorded id
          roundTrip env.recorded (.waitingMessages id) .waitingMessages).Does (Fetching id) := by
    refine ((refreshDirectory_does env id).bind fun _ =>
      roundTrip_does env (.waitingMessages id) .waitingMessages).mono ?_
    rintro s events result s' (refresh | ⟨refresh, trip, rfl⟩)
    · exact .undirected refresh
    · exact .directed refresh trip
  refine Does.registered fun id => ?_
  refine ((withConnection_does env (fetching id)).bind fun payload =>
    does_modifyGet fun s => s.absorbAll env.suite.toCiphers (parseQueue payload)).mono ?_
  rintro s events result s' (course | ⟨course, rfl, rfl, rfl⟩)
  · exact .failed course
  · rw [List.append_nil]
    exact .told course

private theorem does_adopt (username : String) (pair : KeyPair) (payload : Bytes) :
    (match ClientId.first? payload with
      | none => throw (.truncatedPayload 16)
      | some id => do
        modify ({ · with identity := some ⟨username, id, pair.privateKey, pair.publicKey⟩ })
        return id : Action (StateT (List Event) (StateM w)) ClientId).Does fun s events result s' =>
      events = [] ∧ match ClientId.first? payload with
        | none => result = .error (.truncatedPayload 16) ∧ s' = s
        | some id => result = .ok id ∧
          s' = { s with identity := some ⟨username, id, pair.privateKey, pair.publicKey⟩ } := by
  intro s record x
  refine ⟨[], ?_⟩
  cases ClientId.first? payload with
  | none => exact ⟨(List.append_nil record).symm, rfl, rfl, rfl⟩
  | some id => exact ⟨(List.append_nil record).symm, rfl, rfl, rfl⟩

theorem register_does (username : String) : (register env.recorded username).Does (Registering username) := by
  refine Does.inspect fun s₀ => ?_
  cases known : s₀.identity with
  | some me =>
    refine (does_ofExcept (.error (.alreadyRegistered me.username))).mono ?_
    rintro s events result s' ⟨⟨rfl, rfl⟩, rfl⟩ rfl
    exact .already known
  | none =>
    refine ((does_draw .freshKeyPair _).bind fun pair =>
      (withConnection_does env (roundTrip_does env (.register username pair.publicKey) .registerOk)).bind fun payload =>
        does_adopt username pair payload).mono ?_
    rintro s events result s' (⟨⟨_, rfl, rfl⟩, rfl⟩ | ⟨⟨⟨_, rfl, rfl⟩, rfl⟩, rest⟩) rfl
    · exact .undrawn known _
    rcases rest with trip | ⟨trip, rfl, adopted⟩
    · cases trip.session_eq
      exact .failed known trip
    · cases trip.session_eq
      rw [List.append_nil]
      split at adopted
      · next idless =>
        obtain ⟨rfl, rfl⟩ := adopted
        exact .short known trip idless
      · next given =>
        obtain ⟨rfl, rfl⟩ := adopted
        exact .assigned known trip given

end Session

section course
open Session

def Operation.course (ciphers : Ciphers) : Operation → Course Reply
  | .register username => (Registering username).mapped Reply.registered
  | .clientList => (Registered Listing).mapped Reply.directory
  | .findPeer name => (Finding name).mapped Reply.peer
  | .fetchPublicKey peer =>
    (Registered fun id => Connected (.still (LookingUp id peer))).mapped Reply.key
  | .requestKey peer =>
    (Registered fun id => Connected (.still (Delivering id peer .keyRequest []))).mapped Reply.receipt
  | .sendKey peer => (Registered (KeySharing peer)).mapped Reply.receipt
  | .sendText peer text =>
    (Registered (ContentSending ciphers peer .text (Utf8.encode text))).mapped Reply.receipt
  | .sendFile peer contents =>
    (Registered (ContentSending ciphers peer .file contents)).mapped Reply.receipt
  | .fetchWaiting => (Registered (Collecting ciphers)).mapped Reply.messages

end course

/-- Whatever the surroundings do, an operation takes one of its courses. -/
theorem Operation.perform_does {w : Type} (env : Surroundings (StateM w)) (op : Operation) :
    (op.perform env.recorded).Does (op.course env.suite.toCiphers) := by
  cases op with
  | register username => exact (Session.register_does env username).map Reply.registered
  | clientList => exact (Session.clientList_does env).map Reply.directory
  | findPeer name => exact (Session.findPeer_does env name).map Reply.peer
  | fetchPublicKey peer => exact (Session.fetchPublicKey_does env peer).map Reply.key
  | requestKey peer => exact (Session.requestKey_does env peer).map Reply.receipt
  | sendKey peer => exact (Session.sendKey_does env peer).map Reply.receipt
  | sendText peer text => exact (Session.sendContent_does env peer .text (Utf8.encode text)).map Reply.receipt
  | sendFile peer contents => exact (Session.sendContent_does env peer .file contents).map Reply.receipt
  | fetchWaiting => exact (Session.fetchWaiting_does env).map Reply.messages

end SealedPost
