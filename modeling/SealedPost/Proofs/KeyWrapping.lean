import Mathlib.Control.Monad.Basic
import SealedPost.Proofs.Sealing

/-! For whom a fresh key is wrapped: for whoever the relay names when it is asked for the peer's public key, which need
not be the peer. -/
namespace SealedPost

namespace Event

/-- What a call wrapped, and with which key. -/
def wrapping? : Event → Option (PublicKey × Bytes)
  | .wrap key message (.ok _) => some (key, message)
  | _ => none

theorem wrapping?_of_onLink (event : Event) (h : event.onLink = true) : event.wrapping? = none := by
  cases event with
  | wrap key message outcome => cases h
  | _ => rfl

def keyAnswer? (events : List Event) : Option KeyAnswer :=
  ((responses none events).find? (·.header.responseCode? = some .publicKey)).bind
    fun response => (KeyAnswer.decode response.payload).toOption

end Event

namespace Step

def PostsKey (step : Step) : Prop :=
  ∃ bytes header, .send bytes (.ok ()) ∈ step.events ∧ RequestHeader.decode bytes = .ok header ∧
    header.code = RequestCode.sendMessage.number ∧
    (Parcel.ofPayload (bytes.drop RequestHeader.size)).kind = .keySend

/-- One key was wrapped, with the public key of the relay's answer, went out to the peer, and is held for it. -/
def SharesAsAnswered (step : Step) (peer : ClientId) : Prop :=
  ∃ me answer key wrapped fits, step.before.identity = some me ∧ Event.keyAnswer? step.events = some answer ∧
    step.events.filterMap Event.wrapping? = [(answer.publicKey, key.toBytes)] ∧
    .wrap answer.publicKey key.toBytes (.ok wrapped) ∈ step.events ∧
    .send (Request.sendMessage me.id peer .keySend wrapped fits).encode (.ok ()) ∈ step.events ∧
    step.after.keys = step.before.keys.establish peer key

/-- A key is wrapped for no one but the peer: where it is shared with success, the public key that it was wrapped with
came with the name of the peer, and an answer with another name leads to no key and to no message. -/
structure WrapsOnlyFor (step : Step) (peer : ClientId) : Prop where
  owned : ∀ reply, step.result = .ok reply → ∃ answer, Event.keyAnswer? step.events = some answer ∧
    answer.clientId = peer ∧ ∀ wrapping ∈ step.events.filterMap Event.wrapping?, wrapping.1 = answer.publicKey
  refused : ∀ answer, Event.keyAnswer? step.events = some answer → answer.clientId ≠ peer →
    step.after.keys = step.before.keys ∧ ¬step.PostsKey

end Step

namespace Session

section courses

variable {id peer : ClientId} {events : List Event}

/-- What is learned by asking for a public key is the first such answer there is. -/
theorem LookingUp.keyAnswer?_append {answer : KeyAnswer} (h : LookingUp id peer events (.ok answer))
    (rest : List Event) : Event.keyAnswer? (events ++ rest) = some answer := by
  generalize hresult : (.ok answer : Except Failure KeyAnswer) = result at h
  rcases h with _ | trip
  · cases hresult
  · obtain ⟨told, hread, htaken⟩ := trip.told
    cases told with
    | none => cases htaken
    | some response =>
      rw [Option.bind_some, Response.toOption_payloadFor (by decide)] at htaken
      split at htaken
      · next hcode =>
        obtain rfl := Option.some.inj htaken
        rw [Event.keyAnswer?, hread, Option.toList_some, List.singleton_append,
          List.find?_cons_of_pos (by simpa using hcode),
          Option.bind_some, ← hresult]
        rfl
      · cases htaken

/-- A key that is sent with success was wrapped once, with the public key of the answer. -/
theorem KeySending.wrapped_with_answer {key : SymmetricKey} {receipt : Receipt}
    (h : KeySending id peer events (.ok (key, receipt))) (rest : List Event) :
    ∃ answer, Event.keyAnswer? (events ++ rest) = some answer ∧
      events.filterMap Event.wrapping? = [(answer.publicKey, key.toBytes)] := by
  generalize hresult : (.ok (key, receipt) : Except Failure (SymmetricKey × Receipt)) = result at h
  rcases h with _ | _ | _ | ⟨lookup, drawn, content, delivery⟩
  · cases hresult
  · cases hresult
  · cases hresult
  · rename_i answer ended
    cases ended with
    | error e => cases hresult
    | ok told =>
      cases hresult
      refine ⟨answer, ?_, ?_⟩
      · rw [List.append_assoc]
        exact lookup.keyAnswer?_append _
      · rw [List.filterMap_append, Event.filterMap_eq_nil lookup.onLink Event.wrapping?_of_onLink]
        exact congrArg ((answer.publicKey, key.toBytes) :: ·)
          (Event.filterMap_eq_nil delivery.onLink Event.wrapping?_of_onLink)

theorem KeySending.connected_wrapped_with_answer {s s' : Session} {key : SymmetricKey} {receipt : Receipt}
    (h : Connected (.still (KeySending id peer)) s events (.ok (key, receipt)) s') :
    ∃ answer, Event.keyAnswer? events = some answer ∧
      events.filterMap Event.wrapping? = [(answer.publicKey, key.toBytes)] := by
  generalize hresult : (.ok (key, receipt) : Except Failure (SymmetricKey × Receipt)) = result at h
  rcases h with _ | ⟨sending, -⟩
  · cases hresult
  · subst hresult
    obtain ⟨answer, hanswer, hwrapping⟩ := sending.wrapped_with_answer [.disconnect]
    exact ⟨answer, hanswer, (Event.filterMap_connected rfl rfl _).trans hwrapping⟩

/-- What comes of sending a key with success: the one key that was wrapped, with the public key of the answer, went out
and is held for the peer. -/
theorem KeySharing.shared_with_answer {s s' : Session} {receipt : Receipt}
    (h : KeySharing peer id s events (.ok receipt) s') : ∃ answer key wrapped fits,
      Event.keyAnswer? events = some answer ∧ events.filterMap Event.wrapping? = [(answer.publicKey, key.toBytes)] ∧
      .wrap answer.publicKey key.toBytes (.ok wrapped) ∈ events ∧
      .send (Request.sendMessage id peer .keySend wrapped fits).encode (.ok ()) ∈ events ∧
      s'.keys = s.keys.establish peer key := by
  cases h with
  | @shared _ _ key _ course =>
    obtain ⟨-, publicKey, wrapped, fits, hwrap, hsend⟩ := KeySending.connected_shared course
    obtain ⟨answer, hanswer, hwrapping⟩ := KeySending.connected_wrapped_with_answer course
    have hmem : (publicKey, key.toBytes) ∈ events.filterMap Event.wrapping? := List.mem_filterMap.2 ⟨_, hwrap, rfl⟩
    rw [hwrapping] at hmem
    obtain rfl : publicKey = answer.publicKey := (Prod.mk.inj (List.mem_singleton.1 hmem)).1
    exact ⟨answer, key, wrapped, fits, hanswer, hwrapping, hwrap, hsend, rfl⟩

end courses

end Session

namespace Step

theorem SharesAsAnswered.postsKey {step : Step} {peer : ClientId} (h : step.SharesAsAnswered peer) : step.PostsKey := by
  obtain ⟨me, answer, key, wrapped, fits, -, -, -, -, hsend, -⟩ := h
  refine ⟨_, _, hsend, Request.decode_encode _, rfl, ?_⟩
  rw [Request.drop_encode, Parcel.ofPayload_sendMessage]
  rfl

variable {ciphers : Ciphers} {peer : ClientId} {s s' : Session} {events : List Event}

/-- A key that was sent with success is wrapped for whom the relay named. -/
theorem sharesAsAnswered {reply : Reply} (h : (Operation.sendKey peer).course ciphers s events (.ok reply) s') :
    SharesAsAnswered ⟨s, .operate (.sendKey peer), events, .ok reply, s'⟩ peer := by
  obtain ⟨ended, hended, course⟩ := h
  cases ended with
  | error e => cases hended
  | ok receipt =>
    cases course with
    | admitted registered sharing =>
      obtain ⟨answer, key, wrapped, fits, hfacts⟩ := sharing.shared_with_answer
      exact ⟨_, answer, key, wrapped, fits, registered, hfacts⟩

/-- That a key is for no one but the peer is in the hands of the relay. -/
theorem wrapsOnlyFor_iff {result : Except Failure Reply}
    (h : (Operation.sendKey peer).course ciphers s events result s') :
    WrapsOnlyFor ⟨s, .operate (.sendKey peer), events, result, s'⟩ peer ↔
      ∀ answer, Event.keyAnswer? events = some answer →
        PostsKey ⟨s, .operate (.sendKey peer), events, result, s'⟩ → answer.clientId = peer := by
  constructor
  · intro only answer hanswer hposts
    by_contra hother
    exact (only.refused answer hanswer hother).2 hposts
  intro named
  cases result with
  | ok reply =>
    have hshared := sharesAsAnswered h
    have hposts := hshared.postsKey
    obtain ⟨me, given, key, wrapped, fits, -, hgiven, hwrapping, -⟩ := hshared
    refine ⟨fun _ _ => ⟨given, hgiven, named given hgiven hposts, ?_⟩, fun answer hanswer hother => ?_⟩
    · rw [hwrapping]
      simp
    · exact absurd (named answer hanswer hposts) hother
  | error e =>
    refine ⟨nofun, fun answer hanswer hother => ⟨?_, fun hposts => hother (named answer hanswer hposts)⟩⟩
    exact congrArg Session.keys (Operation.course_failed h)

end Step

namespace Session

/-- A key is wrapped for whoever the relay names. Sending a key to a peer, if it succeeds, wraps one key, with the
public key of the relay's answer, sends that to the peer and holds the key for the peer, whatever client the answer
names. So the key is for no one but the peer exactly if the relay names the peer in the answer that a message goes out
on. -/
theorem key_wrapped_for_the_one_named {w : Type} (env : Surroundings (StateM w)) (s : Session)
    (peer : ClientId) (x : w) :
    let step := ((Move.operate (.sendKey peer)).step env s x).1
    (∀ reply, step.result = .ok reply → step.SharesAsAnswered peer) ∧
      (step.WrapsOnlyFor peer ↔ ∀ answer, Event.keyAnswer? step.events = some answer → step.PostsKey →
        answer.clientId = peer) := by
  intro step
  have hcourse : (Operation.sendKey peer).course env.suite.toCiphers s step.events step.result step.after :=
    (Move.operate (.sendKey peer)).step_course env s x
  refine ⟨fun reply succeeded => ?_, Step.wrapsOnlyFor_iff hcourse⟩
  rw [succeeded] at hcourse
  have hshared := Step.sharesAsAnswered hcourse
  rwa [← succeeded] at hshared

open Transparent in
theorem key_for_bob_wrapped_for_bob :
    let me : Identity := ⟨"alice", .replicate 1, ⟨[7]⟩, ⟨.replicate 160 7⟩⟩
    let bob : ClientId := .replicate 2
    let env : Surroundings (StateM ScriptedLink) :=
      ⟨ScriptedLink.link, suite ⟨pure (.error .random), pure (.ok ⟨.replicate 16 5⟩), pure []⟩⟩
    let x : ScriptedLink := { script := [
      { reply := (Response.ofPayload .publicKey (bob.toBytes ++ List.replicate 160 8)).encode },
      { reply := (Response.ofPayload .messageSent (List.replicate 20 2)).encode }] }
    let step := ((Move.operate (.sendKey bob)).step env { identity := some me } x).1
    step.result = .ok (.receipt ⟨bob, 0x02020202⟩) ∧ step.WrapsOnlyFor bob := by
  intro me bob env x step
  have hanswer : Event.keyAnswer? step.events = some ⟨bob, ⟨.replicate 160 8⟩⟩ := by decide +kernel
  obtain ⟨-, honly⟩ := key_wrapped_for_the_one_named env { identity := some me } bob x
  refine ⟨by decide +kernel, honly.2 fun answer hany _ => ?_⟩
  obtain rfl := Option.some.inj (hanswer.symm.trans hany)
  rfl

/-- Where the relay names carol as it is asked for bob's public key, the key that is held for bob is wrapped for her. -/
theorem key_for_bob_wrapped_for_carol :
    let me : Identity := ⟨"alice", .replicate 1, ⟨[7]⟩, ⟨.replicate 160 7⟩⟩
    let bob : ClientId := .replicate 2
    let carol : ClientId := .replicate 3
    let key : SymmetricKey := ⟨.replicate 16 5⟩
    let env : Surroundings (StateM ScriptedLink) :=
      ⟨ScriptedLink.link, Transparent.suite ⟨pure (.error .random), pure (.ok key), pure []⟩⟩
    let x : ScriptedLink := { script := [
      { reply := (Response.ofPayload .publicKey (carol.toBytes ++ List.replicate 160 9)).encode },
      { reply := (Response.ofPayload .messageSent (List.replicate 20 2)).encode }] }
    let step := ((Move.operate (.sendKey bob)).step env { identity := some me } x).1
    step.result = .ok (.receipt ⟨bob, 0x02020202⟩) ∧ step.after.keys.lookup bob = some key ∧
      step.events.filterMap Event.wrapping? = [(⟨.replicate 160 9⟩, key.toBytes)] ∧ ¬step.WrapsOnlyFor bob := by
  intro me bob carol key env x step
  have hresult : step.result = .ok (.receipt ⟨bob, 0x02020202⟩) := by decide +kernel
  have hanswer : Event.keyAnswer? step.events = some ⟨carol, ⟨.replicate 160 9⟩⟩ := by decide +kernel
  refine ⟨hresult, by decide +kernel, by decide +kernel, fun only => ?_⟩
  obtain ⟨answer, hnamed, howner, -⟩ := only.owned _ hresult
  obtain rfl := Option.some.inj (hanswer.symm.trans hnamed)
  exact absurd howner (by decide)

end Session

end SealedPost
