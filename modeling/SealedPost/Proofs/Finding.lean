import Mathlib.Control.Monad.Basic
import SealedPost.Cipher.Transparent
import SealedPost.Link.Scripted
import SealedPost.Proofs.Discipline
import SealedPost.Proofs.Listings

/-! Finding a peer by its name: the answer comes from the directory that the relay tells now, and from its first client
with this name. Where none is told there is no answer, and the directory that was held stays. -/
namespace SealedPost

namespace Session

/-- How asking for the directory fails: the connection does not open, or the round trip fails on it. -/
inductive Unlisted (id : ClientId) : List Event → Failure → Prop
  | unconnected (fault : LinkFault) : Unlisted id [.connect (.error fault)] (transportFailure fault)
  | unanswered {calls : List Event} {e : Failure} (trip : RoundTrip (.clientList id) .clientList calls (.error e)) :
      Unlisted id (.connect (.ok ()) :: (calls ++ [.disconnect])) e

theorem Unlisted.fatal {id : ClientId} {events : List Event} {e : Failure} (h : Unlisted id events e) :
    e.isConnectionFatal = true := by
  cases h with
  | unconnected fault => rfl
  | unanswered trip => exact trip.fatal

variable {s s' : Session} {events : List Event}

/-- The directory that is asked for is told in whole, and kept and handed on as it was told, or asking for it fails and
nothing changes. -/
theorem Listing.told_or_unlisted {id : ClientId} {result : Except Failure Directory}
    (h : Listing id s events result s') :
    (∃ payload, Event.listing? events = some payload ∧ result = .ok (.ofPayload payload) ∧
      s' = { s with directory := .ofPayload payload }) ∨
    ∃ e, Event.listing? events = none ∧ result = .error e ∧ s' = s ∧ Unlisted id events e := by
  cases h with
  | failed course =>
    cases course with
    | refused _ fault => exact .inr ⟨_, rfl, rfl, rfl, .unconnected fault⟩
    | held inside =>
      cases inside with
      | failed trip => exact .inr ⟨_, trip.listing?_append [.disconnect], rfl, rfl, .unanswered trip⟩
  | told course =>
    cases course with
    | held inside =>
      cases inside with
      | told trip => exact .inl ⟨_, trip.listing?_append [.disconnect], rfl, rfl⟩

/-- A registered client finds a peer in the directory that it is told, or it is told none. -/
theorem Finding.told_or_unlisted {name : String} {me : Identity} {result : Except Failure Peer}
    (h : Finding name s events result s') (registered : s.identity = some me) :
    (∃ payload, Event.listing? events = some payload ∧ s' = { s with directory := .ofPayload payload } ∧
      result = ((Directory.ofPayload payload).find? name).elim (.error (.peerNotFound name)) .ok) ∨
    ∃ e, Event.listing? events = none ∧ result = .error e ∧ s' = s ∧ Unlisted me.id events e := by
  rcases h with listed | ⟨listed, ⟨rfl, hresult⟩, rfl⟩
  · rcases (listed.of_some registered).told_or_unlisted with ⟨_, _, absurd, _⟩ | ⟨_, quiet, ⟨⟩, rfl, unlisted⟩
    · cases absurd
    · exact .inr ⟨_, quiet, rfl, rfl, unlisted⟩
  · rcases (listed.of_some registered).told_or_unlisted with ⟨payload, told, ⟨⟩, rfl⟩ | ⟨_, _, absurd, _⟩
    · rw [List.append_nil]
      refine .inl ⟨payload, told, rfl, ?_⟩
      rw [hresult]
      cases (Directory.ofPayload payload).find? name <;> rfl
    · cases absurd

/-- A peer is looked for in the directory that the relay tells now. Where a whole response with a directory comes in,
that directory is held from then on, whether the name is in it or not. The peer that is returned is the one of the first
record with exactly this name, and the name is not found exactly if no record has it; so nothing of a directory that was
held before is returned. Where no such response comes in, what is returned is the failure of the connect or of the round
trip, which does not say that a peer was not found, and the session is as it was. -/
theorem peer_found_in_directory_told {w : Type} (env : Surroundings (StateM w)) (s : Session) (me : Identity)
    (name : String) (x : w) (registered : s.identity = some me) :
    let step := ((Move.operate (.findPeer name)).step env s x).1
    (∀ payload, Event.listing? step.events = some payload →
      step.after = { s with directory := .ofPayload payload } ∧
      (∀ p, step.result = .ok (.peer p) ↔ ∃ place, Peer.FirstNamed name (Directory.parsePeers payload) place p) ∧
      (step.result = .error (.peerNotFound name) ↔ ∀ p ∈ Directory.parsePeers payload, p.name ≠ name)) ∧
    (Event.listing? step.events = none → step.after = s ∧
      ∃ e, step.result = .error e ∧ Unlisted me.id step.events e ∧ ∀ sought, e ≠ .peerNotFound sought) := by
  intro step
  obtain ⟨ended, hresult, finding⟩ : Operation.course env.suite.toCiphers (.findPeer name) s step.events step.result
      step.after := (Move.operate (.findPeer name)).step_course env s x
  rcases finding.told_or_unlisted registered with ⟨payload, told, hafter, hended⟩ | ⟨e, quiet, hended, hafter, unlisted⟩
  · refine ⟨fun payload' told' => ?_, fun quiet => ?_⟩
    · obtain rfl : payload = payload' := Option.some.inj (told.symm.trans told')
      have hstep : step.result =
          ((Directory.ofPayload payload).find? name).elim (.error (.peerNotFound name)) (.ok ∘ .peer) := by
        rw [hresult, hended]
        cases (Directory.ofPayload payload).find? name <;> rfl
      refine ⟨hafter, fun p => ?_, ?_⟩
      · refine Iff.trans ?_ (Directory.find?_eq_some_iff (d := .ofPayload payload))
        rw [hstep]
        cases (Directory.ofPayload payload).find? name <;> simp
      · refine Iff.trans ?_ (Directory.find?_eq_none_iff (d := .ofPayload payload))
        rw [hstep]
        cases (Directory.ofPayload payload).find? name <;> simp
    · rw [told] at quiet
      cases quiet
  · refine ⟨fun payload told => ?_, fun _ => ⟨hafter, e, ?_, unlisted, ?_⟩⟩
    · rw [quiet] at told
      cases told
    · rw [hresult, hended]
      rfl
    · rintro sought rfl
      cases unlisted.fatal

open Transparent in
theorem bob_found_as_first_of_two :
    let me : Identity := ⟨"alice", .replicate 1, ⟨[7]⟩, ⟨.replicate 160 7⟩⟩
    let s : Session := ⟨some me, KeyRing.empty, ⟨[⟨.replicate 9, "bob"⟩]⟩⟩
    let peers : List Peer := [⟨.replicate 2, "bobby"⟩, ⟨.replicate 3, "bob"⟩, ⟨.replicate 4, "bob"⟩]
    let listing := peers.flatMap Peer.encode
    let env : Surroundings (StateM ScriptedLink) :=
      ⟨ScriptedLink.link, suite ⟨pure (.error .random), pure (.error .random), pure []⟩⟩
    let x : ScriptedLink := { script := [{ reply := (Response.ofPayload .clientList listing).encode }] }
    let step := ((Move.operate (.findPeer "bob")).step env s x).1
    s.identity = some me ∧ step.result = .ok (.peer ⟨.replicate 3, "bob"⟩) ∧
      step.after = { s with directory := .ofPayload listing } := by
  intro me s peers listing env x step
  have htold : Event.listing? step.events = some listing := by decide +kernel
  have hpeers : Directory.parsePeers listing = peers := by decide +kernel
  have hfirst : Peer.FirstNamed "bob" peers 1 ⟨.replicate 3, "bob"⟩ := by
    refine ⟨rfl, rfl, fun earlier q before stands => ?_⟩
    obtain rfl : earlier = 0 := Nat.lt_one_iff.1 before
    cases stands
    decide
  obtain ⟨hlisted, -⟩ := peer_found_in_directory_told env s me "bob" x rfl
  obtain ⟨hafter, hfound, -⟩ := hlisted listing htold
  refine ⟨rfl, (hfound _).2 ⟨1, ?_⟩, hafter⟩
  rw [hpeers]
  exact hfirst

end Session

end SealedPost
