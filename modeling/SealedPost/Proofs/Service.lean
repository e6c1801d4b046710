import SealedPost.Proofs.Execution
import SealedPost.Proofs.Framing
import SealedPost.Relay

/-! A client at a relay that keeps its word: what the relay makes of a request, and how round trips and connections
end that no reply is lost of. -/
namespace SealedPost

namespace Relay

def counted (relay : Relay) : Relay :=
  { relay with requests := relay.requests + 1 }

def filed (relay : Relay) (sender : ClientId) (kind : MessageKind) (content : Bytes) : QueuedMessage where
  messageId := UInt32.ofNat (relay.lastMessageId + 1)
  sender
  kind := .ofByte kind.byte
  content

def serve (relay : Relay) : Request → Response × Relay
  | .register username key => relay.register (nameField username ++ key.toBytes)
  | .clientList sender => (relay.listClients sender, relay)
  | .publicKey _ target => (relay.tellKey target, relay)
  | .sendMessage sender target kind content _ =>
    (.ofPayload .messageSent (target.toBytes ++ Bytes.ofNatLE 4 (relay.lastMessageId + 1)),
      { relay.enqueue target (relay.filed sender kind content) with lastMessageId := relay.lastMessageId + 1 })
  | .waitingMessages sender => relay.handOut sender

/-- The bytes of a request are answered as the request. -/
theorem handle_encode (relay : Relay) (request : Request) :
    relay.handle request.encode = (some (relay.counted.serve request).1, (relay.counted.serve request).2) := by
  unfold handle
  rw [request.decode_encode]
  simp only [request.drop_encode, show request.header.code = request.code.number from rfl,
    RequestCode.ofNumber?_number]
  cases request with
  | register username key => rfl
  | clientList sender => rfl
  | publicKey sender target =>
    simp only [Request.code, Request.payload, Block.fit_toBytes]
    rfl
  | sendMessage sender target kind content fits =>
    simp only [Request.code, accept, Request.target_payload, Request.kind_payload, Request.content_payload]
    rfl
  | waitingMessages sender => rfl

/-- Whatever a relay answers carries the size of its payload. -/
theorem serve_ofPayload (relay : Relay) (request : Request) :
    ∃ code payload, (relay.serve request).1 = .ofPayload code payload := by
  cases request with
  | register username key =>
    unfold serve register
    dsimp only
    split
    · exact ⟨_, _, rfl⟩
    · split <;> exact ⟨_, _, rfl⟩
  | clientList sender => exact ⟨_, _, rfl⟩
  | publicKey sender target =>
    unfold serve tellKey
    dsimp only
    split <;> exact ⟨_, _, rfl⟩
  | sendMessage sender target kind content fits => exact ⟨_, _, rfl⟩
  | waitingMessages sender => exact ⟨_, _, rfl⟩

end Relay

section atRelay

variable {c α : Type}

def atRelay (suite : CipherSuite (StateM c)) : Surroundings (StateT RelayLine (StateM c)) where
  link := RelayLine.link
  suite := suite.lift

variable (suite : CipherSuite (StateM c)) (s : Session) (relay : Relay) (y : c)

namespace Session
open SealedPost.Action

private theorem take_append {count : Nat} (bytes rest : Bytes) (h : bytes.length = count) :
    RelayLine.take count ⟨relay, bytes ++ rest⟩ = (.ok bytes, ⟨relay, rest⟩) := by
  subst h
  have hlong : ¬(bytes ++ rest).length < bytes.length := by simp
  rw [RelayLine.take, if_neg hlong, List.take_left, List.drop_left]

private theorem exec_receive {count : Nat} (asFailure : LinkFault → Failure) (bytes rest : Bytes)
    (h : bytes.length = count) :
    (call asFailure ((atRelay suite).link.receive count)).exec s ⟨relay, bytes ++ rest⟩ y =
      ⟨.ok bytes, s, ⟨relay, rest⟩, y⟩ := by
  have hreceive : ((((atRelay suite).link.receive count).run ⟨relay, bytes ++ rest⟩).run y) =
      ((.ok bytes, ⟨relay, rest⟩), y) := congrArg (·, y) (take_append relay bytes rest h)
  rw [exec_call, hreceive]
  rfl

theorem exec_readResponse (code : ResponseCode) (payload : Bytes) (fits : payload.length < 2 ^ 32) :
    (readResponse (atRelay suite)).exec s ⟨relay, (Response.ofPayload code payload).encode⟩ y =
      ⟨.ok (.ofPayload code payload), s, ⟨relay, []⟩, y⟩ := by
  have hsize : (Response.ofPayload code payload).header.payloadSize.toNat = payload.length := by
    rw [Response.ofPayload, UInt32.toNat_ofNat']
    exact Nat.mod_eq_of_lt fits
  have hdecode := ResponseHeader.decode_encode_append (Response.ofPayload code payload).header []
  rw [List.append_nil] at hdecode
  rw [readResponse, exec_bind, Response.encode, exec_receive _ _ _ _ _ _ _ (ResponseHeader.length_encode _)]
  simp only [exec_bind, exec_ofExcept, hdecode, hsize]
  by_cases hempty : payload = []
  · subst hempty
    rfl
  · have hlength : ¬payload.length = 0 := fun h => hempty (List.length_eq_zero_iff.1 h)
    have hpayload := exec_receive suite s relay y (failureAtEnd (.truncatedPayload payload.length)) payload [] rfl
    rw [List.append_nil] at hpayload
    rw [if_neg hlength, show (Response.ofPayload code payload).payload = payload from rfl, exec_bind, hpayload]
    simp only [if_pos, exec_pure]
    rfl

/-- A round trip ends with what the relay answers, and takes nothing else from it. -/
theorem exec_roundTrip (request : Request) (expected : ResponseCode)
    (fits : (relay.counted.serve request).1.payload.length < 2 ^ 32) :
    (roundTrip (atRelay suite) request expected).exec s ⟨relay, []⟩ y =
      ⟨(relay.counted.serve request).1.payloadFor expected, s, ⟨(relay.counted.serve request).2, []⟩, y⟩ := by
  obtain ⟨code, payload, hserve⟩ := relay.counted.serve_ofPayload request
  have hsend : ((((atRelay suite).link.send request.encode).run ⟨relay, []⟩).run y) =
      ((.ok (), ⟨(relay.counted.serve request).2, (Response.ofPayload code payload).encode⟩), y) := by
    have hanswer : RelayLine.answer request.encode ⟨relay, []⟩ =
        (.ok (), ⟨(relay.counted.serve request).2, (Response.ofPayload code payload).encode⟩) := by
      rw [RelayLine.answer, Relay.handle_encode, ← hserve]
      rfl
    exact congrArg (·, y) hanswer
  rw [hserve] at fits ⊢
  rw [roundTrip, exec_bind, exec_call, hsend]
  dsimp only [Except.mapError]
  rw [exec_bind, exec_readResponse suite s _ y code payload fits]
  rfl

theorem exec_withConnection {act : Action (StateT RelayLine (StateM c)) α} {ending : Ending RelayLine c α}
    (h : act.exec s ⟨relay, []⟩ y = ending) (hread : ending.outer.inbound = []) :
    (withConnection (atRelay suite) act).exec s ⟨relay, []⟩ y = ending := by
  obtain ⟨result, session, ⟨after, inbound⟩, inner⟩ := ending
  obtain rfl : inbound = [] := hread
  have hconnect : ((((atRelay suite).link.connect).run ⟨relay, []⟩).run y) = ((.ok (), ⟨relay, []⟩), y) := rfl
  exact exec_withConnection_of_opens (atRelay suite) hconnect h

theorem exec_refreshDirectory (id : ClientId) (fits : (relay.listClients id).payload.length < 2 ^ 32) :
    (refreshDirectory (atRelay suite) id).exec s ⟨relay, []⟩ y =
      ⟨.ok (), { s with directory := .ofPayload (relay.listClients id).payload }, ⟨relay.counted, []⟩, y⟩ := by
  rw [refreshDirectory, exec_bind, exec_roundTrip suite s relay y (.clientList id) .clientList fits]
  rfl

/-- The key that a client registered with is told, and no key of a client that is not registered. -/
theorem exec_lookupKey (id peer : ClientId) :
    (lookupKey (atRelay suite) id peer).exec s ⟨relay, []⟩ y =
      ⟨match relay.clients.find? (·.id = peer) with
        | some client => .ok ⟨client.id, client.publicKey⟩
        | none => .error .serverRejected, s, ⟨relay.counted, []⟩, y⟩ := by
  have hserve : relay.counted.serve (.publicKey id peer) = (relay.tellKey peer, relay.counted) := rfl
  have fits : (relay.tellKey peer).payload.length < 2 ^ 32 := by
    unfold Relay.tellKey
    split <;> simp [Response.ofPayload, Block.length_toBytes]
  rw [lookupKey, exec_bind, exec_roundTrip suite s relay y (.publicKey id peer) .publicKey (hserve ▸ fits), hserve,
    Relay.tellKey]
  cases relay.clients.find? (·.id = peer) with
  | none => rfl
  | some client =>
    have hlong : ¬(client.id.toBytes ++ client.publicKey.toBytes).length < 176 := by
      simp [Block.length_toBytes]
    have hkey : Block.fit 160 ((client.id.toBytes ++ client.publicKey.toBytes).drop 16) = client.publicKey.toBlock := by
      rw [List.drop_left' client.id.length_toBytes, Block.fit_toBytes]
    have hdecode : KeyAnswer.decode (client.id.toBytes ++ client.publicKey.toBytes) =
        .ok ⟨client.id, client.publicKey⟩ := by
      rw [KeyAnswer.decode, if_neg hlong, Block.fit_append, hkey]
    dsimp only [Response.ofPayload, Response.payloadFor, ResponseHeader.responseCode?]
    rw [ResponseCode.ofNumber?_number]
    simp only [if_pos, exec_ofExcept, hdecode]

/-- A message that fits a request is filed for its target, and any other is not sent. -/
theorem exec_deliver (id peer : ClientId) (kind : MessageKind) (content : Bytes) :
    (∃ e, (deliver (atRelay suite) id peer kind content).exec s ⟨relay, []⟩ y = ⟨.error e, s, ⟨relay, []⟩, y⟩) ∨
      ∃ receipt relay', content.length + 21 < 2 ^ 32 ∧
        (deliver (atRelay suite) id peer kind content).exec s ⟨relay, []⟩ y = ⟨.ok receipt, s, ⟨relay', []⟩, y⟩ ∧
        relay'.clients = relay.clients ∧ relay'.waiting = relay.waiting ++ [(peer, relay.filed id kind content)] ∧
        relay'.answersRegistrationShort = relay.answersRegistrationShort := by
  rw [deliver, exec_bind, exec_ofExcept]
  cases hbuilt : Request.message id peer kind content with
  | error e => exact .inl ⟨e, rfl⟩
  | ok request =>
    obtain ⟨fits, rfl⟩ := Request.message_eq_ok hbuilt
    have hlength : (peer.toBytes ++ Bytes.ofNatLE 4 (relay.counted.lastMessageId + 1)).length = 20 := by
      simp [Block.length_toBytes]
    have hshort : (relay.counted.serve (.sendMessage id peer kind content fits)).1.payload.length < 2 ^ 32 := by
      change (peer.toBytes ++ Bytes.ofNatLE 4 (relay.counted.lastMessageId + 1)).length < 2 ^ 32
      omega
    have hdecode : ∃ receipt, Receipt.decode (peer.toBytes ++ Bytes.ofNatLE 4 (relay.counted.lastMessageId + 1)) =
        .ok receipt := by
      rw [Receipt.decode, if_neg (by omega)]
      exact ⟨_, rfl⟩
    obtain ⟨receipt, hdecode⟩ := hdecode
    refine .inr ⟨receipt, (relay.counted.serve (.sendMessage id peer kind content fits)).2, fits, ?_, rfl, rfl, rfl⟩
    dsimp only
    rw [exec_bind, exec_roundTrip suite s relay y _ .messageSent hshort]
    change (Action.ofExcept (Receipt.decode _)).exec s _ y = _
    rw [exec_ofExcept]
    exact congrArg (fun result => Ending.mk result s _ y) hdecode

/-- The messages that wait for a client are handed out, as they were filed, and wait no longer. -/
theorem exec_collect (id : ClientId)
    (filed : ∀ m ∈ relay.queue id, m.content.length < 2 ^ 32 ∧ .ofByte m.kind.byte = m.kind)
    (fits : ((relay.queue id).flatMap QueuedMessage.encode).length < 2 ^ 32) :
    ∃ payload relay', (roundTrip (atRelay suite) (.waitingMessages id) .waitingMessages).exec s ⟨relay, []⟩ y =
        ⟨.ok payload, s, ⟨relay', []⟩, y⟩ ∧ parseQueue payload = relay.queue id ∧
      relay'.clients = relay.clients ∧ relay'.waiting = relay.waiting.filter (·.1 ≠ id) ∧
      relay'.answersRegistrationShort = relay.answersRegistrationShort := by
  refine ⟨(relay.queue id).flatMap QueuedMessage.encode, (relay.counted.serve (.waitingMessages id)).2, ?_, ?_, rfl, ?_,
    rfl⟩
  · rw [exec_roundTrip suite s relay y (.waitingMessages id) .waitingMessages fits]
    rfl
  · rw [parseQueue_flatMap_encode _ fun m hm => (filed m hm).1]
    refine (List.map_congr_left fun m hm => ?_).trans (List.map_id _)
    rw [(filed m hm).2]
    rfl
  · change relay.waiting.filter (·.1 ≠ id) ++ [].map _ = _
    rw [List.map_nil, List.append_nil]

/-- A relay that keeps its word registers a client under an id that it gives and with the key that it sent, or not at
all. -/
theorem exec_registration (username : String) (key : PublicKey) (honest : relay.answersRegistrationShort = false) :
    (∃ e, (roundTrip (atRelay suite) (.register username key) .registerOk).exec s ⟨relay, []⟩ y =
        ⟨.error e, s, ⟨relay.counted, []⟩, y⟩) ∨
      ∃ (id : ClientId) (name : String) (relay' : Relay),
        (roundTrip (atRelay suite) (.register username key) .registerOk).exec s ⟨relay, []⟩ y =
          ⟨.ok id.toBytes, s, ⟨relay', []⟩, y⟩ ∧
        relay'.clients = relay.clients ++ [⟨id, name, key⟩] ∧ relay'.waiting = relay.waiting ∧
        relay'.answersRegistrationShort = relay.answersRegistrationShort := by
  have hkey : Block.fit 160 ((nameField username ++ key.toBytes).drop nameFieldSize) = key.toBlock := by
    have hname : (nameField username).length = nameFieldSize := Bytes.length_padded _ _
    rw [List.drop_left' hname, Block.fit_toBytes]
  have hserve : relay.counted.serve (.register username key) =
      if relay.clients.any (·.name = Relay.nameInField ((nameField username ++ key.toBytes).take nameFieldSize)) then
        (.ofPayload .generalError [], relay.counted)
      else (.ofPayload .registerOk (relay.idFor relay.clients.length).toBytes,
        { relay.counted with clients := relay.clients ++ [⟨relay.idFor relay.clients.length,
          Relay.nameInField ((nameField username ++ key.toBytes).take nameFieldSize), key⟩] }) := by
    unfold Relay.serve Relay.register
    dsimp only
    rw [hkey, show relay.counted.answersRegistrationShort = false from honest]
    rfl
  split at hserve
  · refine .inl ⟨.serverRejected, ?_⟩
    rw [exec_roundTrip suite s relay y _ _ (by rw [hserve]; exact Nat.two_pow_pos 32), hserve]
    rfl
  · refine .inr ⟨relay.idFor relay.clients.length,
      Relay.nameInField ((nameField username ++ key.toBytes).take nameFieldSize),
      (relay.counted.serve (.register username key)).2, ?_, by rw [hserve], by rw [hserve]; rfl, by rw [hserve]; rfl⟩
    have fits : (relay.counted.serve (.register username key)).1.payload.length < 2 ^ 32 := by
      rw [hserve]
      change (relay.idFor relay.clients.length).toBytes.length < 2 ^ 32
      rw [Block.length_toBytes]
      decide
    rw [exec_roundTrip suite s relay y _ _ fits, hserve]
    rfl

end Session

end atRelay

end SealedPost
