import SealedPost.Cipher.Transparent
import SealedPost.Link.Scripted
import SealedPost.Proofs.KeyHistory

/-! Nothing leaves a client unframed or unsealed: every byte string that it sends is a whole request under its own id,
and a message with content carries it under a key held for its target. -/
namespace SealedPost

/-- The requests that a step may send. Content goes out only under a key that was held for its target when the step
began; no operation changes the identity or the keys before its last request is answered. -/
inductive Permitted (ciphers : Ciphers) (step : Step) : Request → Prop
  | register {username : String} {key : PublicKey} (unregistered : step.before.identity = none) :
      Permitted ciphers step (.register username key)
  | clientList {me : Identity} (registered : step.before.identity = some me) :
      Permitted ciphers step (.clientList me.id)
  | publicKey {me : Identity} {peer : ClientId} (registered : step.before.identity = some me) :
      Permitted ciphers step (.publicKey me.id peer)
  | waitingMessages {me : Identity} (registered : step.before.identity = some me) :
      Permitted ciphers step (.waitingMessages me.id)
  | keyRequest {me : Identity} {peer : ClientId} {fits} (registered : step.before.identity = some me)
      (move : step.move = .operate (.requestKey peer)) :
      Permitted ciphers step (.sendMessage me.id peer .keyRequest [] fits)
  | keySend {me : Identity} {peer : ClientId} {key : SymmetricKey} {publicKey : PublicKey} {wrapped : Bytes} {fits}
      (registered : step.before.identity = some me) (move : step.move = .operate (.sendKey peer))
      (drawn : step.drawnKeys = [key]) (made : .wrap publicKey key.toBytes (.ok wrapped) ∈ step.events) :
      Permitted ciphers step (.sendMessage me.id peer .keySend wrapped fits)
  | text {me : Identity} {peer : ClientId} {text : String} {key : SymmetricKey} {fits}
      (registered : step.before.identity = some me) (move : step.move = .operate (.sendText peer text))
      (held : step.before.keys.lookup peer = some key) :
      Permitted ciphers step (.sendMessage me.id peer .text (ciphers.encrypt key (Utf8.encode text)) fits)
  | file {me : Identity} {peer : ClientId} {contents : Bytes} {key : SymmetricKey} {fits}
      (registered : step.before.identity = some me) (move : step.move = .operate (.sendFile peer contents))
      (held : step.before.keys.lookup peer = some key) :
      Permitted ciphers step (.sendMessage me.id peer .file (ciphers.encrypt key contents) fits)

def Step.SendsPermitted (ciphers : Ciphers) (step : Step) : Prop :=
  ∀ b o, .send b o ∈ step.events → ∃ request, Permitted ciphers step request ∧ b = request.encode

namespace Session

variable {b : Bytes} {o : Except LinkFault Unit} {events : List Event} {id peer : ClientId}

theorem Reading.no_send {result : Except Failure Response} (h : Reading events result) : .send b o ∉ events := by
  rcases h with _ | _ | ⟨_, _ | _ | _ | _⟩ <;> simp

/-- A round trip sends its request and nothing else. -/
theorem RoundTrip.send_eq {request : Request} {expected : ResponseCode} {result : Except Failure Bytes}
    (h : RoundTrip request expected events result) (hb : .send b o ∈ events) : b = request.encode := by
  rcases h with _ | reading | reading
  · cases List.mem_singleton.1 hb
    rfl
  · rcases List.mem_cons.1 hb with heq | hrest
    · cases heq
      rfl
    · exact absurd hrest reading.no_send
  · rcases List.mem_cons.1 hb with heq | hrest
    · cases heq
      rfl
    · exact absurd hrest reading.no_send

theorem Refreshing.send_eq {s s' : Session} {result : Except Failure Unit} (h : Refreshing id s events result s')
    (hb : .send b o ∈ events) : b = (Request.clientList id).encode := by
  rcases h with trip | trip <;> exact trip.send_eq hb

theorem LookingUp.send_eq {result : Except Failure KeyAnswer} (h : LookingUp id peer events result)
    (hb : .send b o ∈ events) : b = (Request.publicKey id peer).encode := by
  rcases h with trip | trip <;> exact trip.send_eq hb

theorem Delivering.send_eq {kind : MessageKind} {content : Bytes} {result : Except Failure Receipt}
    (h : Delivering id peer kind content events result) (hb : .send b o ∈ events) :
    ∃ fits, b = (Request.sendMessage id peer kind content fits).encode := by
  rcases h with _ | ⟨built, trip⟩ | ⟨built, trip⟩
  · exact nomatch hb
  · obtain ⟨fits, rfl⟩ := Request.message_eq_ok built
    exact ⟨fits, trip.send_eq hb⟩
  · obtain ⟨fits, rfl⟩ := Request.message_eq_ok built
    exact ⟨fits, trip.send_eq hb⟩

/-- What is sent in a connection is sent by what runs inside it. -/
theorem Connected.send_inside {α : Type} {course : Course α} {s s' : Session} {result : Except Failure α}
    (h : Connected course s events result s') (hb : .send b o ∈ events) :
    ∃ inside, events = .connect (.ok ()) :: (inside ++ [.disconnect]) ∧ course s inside result s' ∧
      .send b o ∈ inside := by
  rcases h with _ | inside
  · exact absurd (List.mem_singleton.1 hb) (by simp)
  · refine ⟨_, rfl, inside, ?_⟩
    simpa using hb

/-- Sending a key sends the question for the public key and then, if it comes to that, what the one drawn key was
wrapped into. -/
theorem KeySending.send_eq {result : Except Failure (SymmetricKey × Receipt)} (h : KeySending id peer events result)
    (hb : .send b o ∈ events) :
    b = (Request.publicKey id peer).encode ∨ ∃ key publicKey wrapped fits,
      events.filterMap Event.drawnKey? = [key] ∧ .wrap publicKey key.toBytes (.ok wrapped) ∈ events ∧
      b = (Request.sendMessage id peer .keySend wrapped fits).encode := by
  rcases h with lookup | lookup | lookup | ⟨lookup, key, content, delivery⟩
  · exact .inl (lookup.send_eq hb)
  · exact .inl (lookup.send_eq (by simpa using hb))
  · exact .inl (lookup.send_eq (by simpa using hb))
  · rename_i answer ended
    have hdrawn := KeySending.drawn lookup key content delivery
    rcases List.mem_append.1 hb with hlookup | hrest
    · exact .inl (lookup.send_eq hlookup)
    · obtain ⟨fits, heq⟩ := delivery.send_eq (by simpa using hrest)
      exact .inr ⟨key, answer.publicKey, content, fits, hdrawn, by simp, heq⟩

theorem Registering.send_eq {username : String} {s s' : Session} {result : Except Failure ClientId}
    (h : Registering username s events result s') (hb : .send b o ∈ events) :
    s.identity = none ∧ ∃ key, b = (Request.register username key).encode := by
  have trip {pair : KeyPair} {inside : List Event} {ended : Except Failure Bytes}
      (course : Connected (.still (RoundTrip (.register username pair.publicKey) .registerOk)) s inside ended s)
      (hmem : .send b o ∈ .freshKeyPair (.ok pair) :: inside) : ∃ key, b = (Request.register username key).encode := by
    obtain ⟨_, -, ⟨trip, -⟩, hin⟩ := course.send_inside (by simpa using hmem)
    exact ⟨pair.publicKey, trip.send_eq hin⟩
  rcases h with _ | _ | ⟨unregistered, course⟩ | ⟨unregistered, course⟩ | ⟨unregistered, course⟩
  · exact nomatch hb
  · exact absurd (List.mem_singleton.1 hb) (by simp)
  · exact ⟨unregistered, trip course hb⟩
  · exact ⟨unregistered, trip course hb⟩
  · exact ⟨unregistered, trip course hb⟩

theorem Listing.send_eq {s s' : Session} {result : Except Failure Directory} (h : Listing id s events result s')
    (hb : .send b o ∈ events) : b = (Request.clientList id).encode := by
  rcases h with course | course
  · obtain ⟨_, -, refresh, hin⟩ := course.send_inside hb
    exact refresh.send_eq hin
  · obtain ⟨_, -, refresh, hin⟩ := course.send_inside hb
    exact refresh.send_eq hin

theorem Fetching.send_eq {s s' : Session} {result : Except Failure Bytes} (h : Fetching id s events result s')
    (hb : .send b o ∈ events) : b = (Request.clientList id).encode ∨ b = (Request.waitingMessages id).encode := by
  rcases h with refresh | ⟨refresh, trip⟩
  · exact .inl (refresh.send_eq hb)
  · rcases List.mem_append.1 hb with hrefresh | htrip
    · exact .inl (refresh.send_eq hrefresh)
    · exact .inr (trip.send_eq htrip)

theorem KeySharing.connected {s s' : Session} {result : Except Failure Receipt}
    (h : KeySharing peer id s events result s') :
    ∃ outcome s'', Connected (.still (KeySending id peer)) s events outcome s'' := by
  rcases h with course | course
  · exact ⟨_, _, course⟩
  · exact ⟨_, _, course⟩

theorem Collecting.connected {ciphers : Ciphers} {s s' : Session} {result : Except Failure (List ReceivedMessage)}
    (h : Collecting ciphers id s events result s') :
    ∃ outcome s'', Connected (Fetching id) s events outcome s'' := by
  rcases h with course | course
  · exact ⟨_, _, course⟩
  · exact ⟨_, _, course⟩

theorem Registered.send_eq {α : Type} {course : ClientId → Course α} {s s' : Session} {result : Except Failure α}
    (h : Registered course s events result s') (hb : .send b o ∈ events) :
    ∃ me, s.identity = some me ∧ course me.id s events result s' := by
  rcases h with _ | ⟨registered, taken⟩
  · exact nomatch hb
  · exact ⟨_, registered, taken⟩

theorem ContentSending.send_eq {ciphers : Ciphers} {kind : MessageKind} {plaintext : Bytes} {s s' : Session}
    {result : Except Failure Receipt} (h : ContentSending ciphers peer kind plaintext id s events result s')
    (hb : .send b o ∈ events) : ∃ key fits, s.keys.lookup peer = some key ∧
      b = (Request.sendMessage id peer kind (ciphers.encrypt key plaintext) fits).encode := by
  rcases h with _ | ⟨held, course⟩
  · exact nomatch hb
  · obtain ⟨_, -, ⟨delivery, -⟩, hin⟩ := course.send_inside hb
    obtain ⟨fits, heq⟩ := delivery.send_eq hin
    exact ⟨_, fits, held, heq⟩

end Session

open Session in
/-- All that an operation sends are requests that its step permits. -/
theorem Operation.course_permitted {ciphers : Ciphers} {op : Operation} {s s' : Session} {events : List Event}
    {result : Except Failure Reply} (h : op.course ciphers s events result s') :
    Step.SendsPermitted ciphers ⟨s, .operate op, events, result, s'⟩ := by
  intro b o hb
  dsimp only at hb
  cases op with
  | register username =>
    obtain ⟨ended, rfl, course⟩ := h
    obtain ⟨unregistered, key, heq⟩ := course.send_eq hb
    exact ⟨_, .register unregistered, heq⟩
  | clientList =>
    obtain ⟨ended, rfl, course⟩ := h
    obtain ⟨me, registered, listing⟩ := course.send_eq hb
    exact ⟨_, .clientList registered, listing.send_eq hb⟩
  | findPeer name =>
    obtain ⟨ended, rfl, course | ⟨course, ⟨rfl, -⟩, rfl⟩⟩ := h
    · obtain ⟨me, registered, listing⟩ := course.send_eq hb
      exact ⟨_, .clientList registered, listing.send_eq hb⟩
    · rw [List.append_nil] at hb
      obtain ⟨me, registered, listing⟩ := course.send_eq hb
      exact ⟨_, .clientList registered, listing.send_eq hb⟩
  | fetchPublicKey peer =>
    obtain ⟨ended, rfl, course⟩ := h
    obtain ⟨me, registered, connected⟩ := course.send_eq hb
    obtain ⟨_, -, ⟨lookup, -⟩, hin⟩ := connected.send_inside hb
    exact ⟨_, .publicKey registered, lookup.send_eq hin⟩
  | requestKey peer =>
    obtain ⟨ended, rfl, course⟩ := h
    obtain ⟨me, registered, connected⟩ := course.send_eq hb
    obtain ⟨_, -, ⟨delivery, -⟩, hin⟩ := connected.send_inside hb
    obtain ⟨fits, heq⟩ := delivery.send_eq hin
    exact ⟨_, .keyRequest registered rfl, heq⟩
  | sendKey peer =>
    obtain ⟨ended, rfl, course⟩ := h
    obtain ⟨me, registered, sharing⟩ := course.send_eq hb
    obtain ⟨outcome, s'', connected⟩ := sharing.connected
    obtain ⟨inside, rfl, ⟨sending, -⟩, hin⟩ := connected.send_inside hb
    rcases sending.send_eq hin with heq | ⟨key, publicKey, wrapped, fits, hdrawn, hwrap, heq⟩
    · exact ⟨_, .publicKey registered, heq⟩
    · have hmade : .wrap publicKey key.toBytes (.ok wrapped) ∈ .connect (.ok ()) :: (inside ++ [.disconnect]) :=
        List.mem_cons_of_mem _ (List.mem_append_left _ hwrap)
      exact ⟨_, .keySend registered rfl ((Event.filterMap_connected rfl rfl inside).trans hdrawn) hmade, heq⟩
  | sendText peer text =>
    obtain ⟨ended, rfl, course⟩ := h
    obtain ⟨me, registered, sending⟩ := course.send_eq hb
    obtain ⟨key, fits, held, heq⟩ := sending.send_eq hb
    exact ⟨_, .text registered rfl held, heq⟩
  | sendFile peer contents =>
    obtain ⟨ended, rfl, course⟩ := h
    obtain ⟨me, registered, sending⟩ := course.send_eq hb
    obtain ⟨key, fits, held, heq⟩ := sending.send_eq hb
    exact ⟨_, .file registered rfl held, heq⟩
  | fetchWaiting =>
    obtain ⟨ended, rfl, course⟩ := h
    obtain ⟨me, registered, collecting⟩ := course.send_eq hb
    obtain ⟨outcome, s'', connected⟩ := collecting.connected
    obtain ⟨inside, rfl, fetching, hin⟩ := connected.send_inside hb
    rcases fetching.send_eq hin with heq | heq
    · exact ⟨_, .clientList registered, heq⟩
    · exact ⟨_, .waitingMessages registered, heq⟩

theorem Move.course_permitted {ciphers : Ciphers} {move : Move} {s s' : Session} {events : List Event}
    {result : Except Failure Reply} (h : move.course ciphers s events result s') :
    Step.SendsPermitted ciphers ⟨s, move, events, result, s'⟩ := by
  cases move with
  | operate op => exact op.course_permitted h
  | process message =>
    obtain ⟨rfl, -, -⟩ := h
    exact fun b o hmem => nomatch hmem

theorem Move.step_permitted {w : Type} (env : Surroundings (StateM w)) (move : Move) (s : Session) (x : w) :
    (move.step env s x).1.SendsPermitted env.suite.toCiphers :=
  Move.course_permitted (move.step_course env s x)

structure Parcel where
  target : ClientId
  kind : MessageKind
  content : Bytes

def Parcel.ofPayload (payload : Bytes) : Parcel where
  target := ⟨Block.fit 16 payload⟩
  kind := .ofByte ((payload.drop 16).headD 0)
  content := payload.drop 21

/-- What a step may post: a request for a key without content, the one key that it drew as it was wrapped, or the
content of its own operation under the key that is held for the target. -/
def Step.MayPost (ciphers : Ciphers) (step : Step) (parcel : Parcel) : Prop :=
  match parcel.kind with
  | .keyRequest => step.move = .operate (.requestKey parcel.target) ∧ parcel.content = []
  | .keySend => step.move = .operate (.sendKey parcel.target) ∧ ∃ key publicKey, step.drawnKeys = [key] ∧
      .wrap publicKey key.toBytes (.ok parcel.content) ∈ step.events
  | .text => ∃ text key, step.move = .operate (.sendText parcel.target text) ∧
      step.before.keys.lookup parcel.target = some key ∧ parcel.content = ciphers.encrypt key (Utf8.encode text)
  | .file => ∃ contents key, step.move = .operate (.sendFile parcel.target contents) ∧
      step.before.keys.lookup parcel.target = some key ∧ parcel.content = ciphers.encrypt key contents
  | .unknown _ => False

theorem Parcel.ofPayload_sendMessage (sender target : ClientId) (kind : MessageKind) (content : Bytes) (fits) :
    ofPayload (Request.sendMessage sender target kind content fits).payload = ⟨target, .ofByte kind.byte, content⟩ := by
  rw [ofPayload, Request.target_payload, Request.kind_payload, Request.content_payload]

namespace Permitted

variable {ciphers : Ciphers} {step : Step} {request : Request}

/-- A request goes out as the client: as none to register, and under the own id for all else. -/
theorem sender_eq (h : Permitted ciphers step request) :
    match step.before.identity with
    | none => request.code = .register ∧ request.sender = .unassigned
    | some me => request.code ≠ .register ∧ request.sender = me.id := by
  cases h with
  | register unregistered => rw [unregistered]; exact ⟨rfl, rfl⟩
  | clientList registered => rw [registered]; exact ⟨nofun, rfl⟩
  | publicKey registered => rw [registered]; exact ⟨nofun, rfl⟩
  | waitingMessages registered => rw [registered]; exact ⟨nofun, rfl⟩
  | keyRequest registered => rw [registered]; exact ⟨nofun, rfl⟩
  | keySend registered => rw [registered]; exact ⟨nofun, rfl⟩
  | text registered => rw [registered]; exact ⟨nofun, rfl⟩
  | file registered => rw [registered]; exact ⟨nofun, rfl⟩

/-- A permitted request that carries a message is one that its step may post. -/
theorem mayPost (h : Permitted ciphers step request) (hcode : request.code = .sendMessage) :
    step.MayPost ciphers (.ofPayload request.payload) := by
  cases h with
  | register => cases hcode
  | clientList => cases hcode
  | publicKey => cases hcode
  | waitingMessages => cases hcode
  | keyRequest registered move =>
    rw [Parcel.ofPayload_sendMessage]
    exact ⟨move, rfl⟩
  | keySend registered move drawn made =>
    rw [Parcel.ofPayload_sendMessage]
    exact ⟨move, _, _, drawn, made⟩
  | text registered move held =>
    rw [Parcel.ofPayload_sendMessage]
    exact ⟨_, _, move, held, rfl⟩
  | file registered move held =>
    rw [Parcel.ofPayload_sendMessage]
    exact ⟨_, _, move, held, rfl⟩

end Permitted

/-- Texts and files are posted only to peers that a key is held for. -/
theorem Step.MayPost.established {ciphers : Ciphers} {step : Step} {parcel : Parcel}
    (h : step.MayPost ciphers parcel) (hkind : parcel.kind.isContent = true) :
    step.before.keys.state parcel.target = .keyEstablished := by
  have hstate {key : SymmetricKey} (held : step.before.keys.lookup parcel.target = some key) :
      step.before.keys.state parcel.target = .keyEstablished := by
    rw [KeyRing.state, KeyRing.has_eq_isSome_lookup, held]
    rfl
  unfold MayPost at h
  split at h
  · next hk => rw [hk] at hkind; cases hkind
  · next hk => rw [hk] at hkind; cases hkind
  · obtain ⟨_, _, -, held, -⟩ := h
    exact hstate held
  · obtain ⟨_, _, -, held, -⟩ := h
    exact hstate held
  · exact h.elim

/-- Nothing leaves a client unframed or unsealed. Whatever it is made to do and however its surroundings behave, every
byte string that it sends is a header of version 2 with a known code and the payload that the header announces. Without
an identity it is a registration under the all-zero id, and with one it is anything else, under the own id. A message in
it is what its step may post, and a text or a file is posted only where a key is held for the target. -/
theorem Session.sends_framed_and_sealed {w : Type} (env : Surroundings (StateM w))
    (identity : Option Identity) (x : w) (moves : List Move) :
    ∀ step ∈ (run env { identity } x moves).1, ∀ b o, .send b o ∈ step.events →
      ∃ header code, RequestHeader.decode b = .ok header ∧ header.version = 2 ∧
        RequestCode.ofNumber? header.code = some code ∧
        header.payloadSize.toNat = (b.drop RequestHeader.size).length ∧
        (match step.before.identity with
          | none => code = .register ∧ header.clientId = .unassigned
          | some me => code ≠ .register ∧ header.clientId = me.id) ∧
        (code = .sendMessage → ∃ parcel, parcel = .ofPayload (b.drop RequestHeader.size) ∧
          step.MayPost env.suite.toCiphers parcel ∧
          (parcel.kind.isContent = true → step.before.keys.state parcel.target = .keyEstablished)) := by
  intro step hstep b o hb
  obtain ⟨request, hpermitted, rfl⟩ :=
    forall_mem_run env _ (fun move => move.step_permitted env) _ x moves step hstep b o hb
  refine ⟨request.header, request.code, request.decode_encode, rfl, RequestCode.ofNumber?_number _, ?_,
    hpermitted.sender_eq, fun hcode => ⟨_, rfl, ?_⟩⟩
  · rw [request.drop_encode, request.payloadSize_header]
  · rw [request.drop_encode]
    exact ⟨hpermitted.mayPost hcode, (hpermitted.mayPost hcode).established⟩

open Transparent in
theorem Session.first_text_is_sealed :
    let me : Identity := ⟨"alice", .replicate 1, ⟨[7]⟩, ⟨.replicate 160 7⟩⟩
    let peer : ClientId := .replicate 2
    let key : SymmetricKey := ⟨.replicate 16 9⟩
    let env : Surroundings (StateM ScriptedLink) :=
      ⟨ScriptedLink.link, suite ⟨pure (.error .random), pure (.error .random), pure []⟩⟩
    let moves : List Move := [.process ⟨0, peer, .keySend, 7 :: key.toBytes⟩, .operate (.sendText peer "hello")]
    let request := Request.sendMessage me.id peer .text (encrypt key (Utf8.encode "hello")) (by decide)
    ∃ step ∈ (run env { identity := some me } {} moves).1, .send request.encode (.ok ()) ∈ step.events ∧
      step.MayPost ciphers (.ofPayload (request.encode.drop RequestHeader.size)) ∧
      step.before.keys.state peer = .keyEstablished := by
  intro me peer key env moves request
  let steps := (run env { identity := some me } {} moves).1
  have hlast : 1 < steps.length := by decide +kernel
  have hsend : (steps.get ⟨1, hlast⟩).events[1]? = some (.send request.encode (.ok ())) := rfl
  have hmem : steps.get ⟨1, hlast⟩ ∈ (run env { identity := some me } {} moves).1 := List.get_mem _ _
  obtain ⟨header, code, hdecode, -, hcode, -, -, hmessage⟩ := sends_framed_and_sealed env (some me) {} moves
    _ hmem request.encode (.ok ()) (List.mem_of_getElem? hsend)
  obtain rfl : request.header = header := Except.ok.inj (request.decode_encode.symm.trans hdecode)
  obtain rfl : request.code = code := Option.some.inj ((RequestCode.ofNumber?_number _).symm.trans hcode)
  obtain ⟨parcel, rfl, hposts, hestablished⟩ := hmessage rfl
  have htext : (Parcel.ofPayload (request.encode.drop RequestHeader.size)).kind.isContent = true := by decide +kernel
  have htarget : (Parcel.ofPayload (request.encode.drop RequestHeader.size)).target = peer := by decide +kernel
  rw [← htarget]
  exact ⟨_, hmem, List.mem_of_getElem? hsend, hposts, hestablished htext⟩

end SealedPost
