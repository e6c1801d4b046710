import Mathlib.Control.Monad.Basic
import SealedPost.Cipher.Transparent
import SealedPost.Link.Scripted
import SealedPost.Proofs.Absorption
import SealedPost.Proofs.Execution
import SealedPost.Proofs.Framing
import SealedPost.Proofs.Listings

/-! A fetched batch is taken in message by message and sender by sender: whatever its messages hold, each of them comes
to something, and what it comes to hangs on its own sender's messages before it and on nobody else's. -/
namespace SealedPost

namespace Session
open SealedPost.Action

variable {σ τ : Type} (env : Surroundings (StateT σ (StateM τ))) (s : Session) (me : Identity)

/-- Everything that a fetch asks for arrives: the connection opens, and the two round trips succeed, one after the
other, with the directory and the queue as payloads. -/
def Arrives (x : σ) (y : τ) (directory queue : Bytes) : Prop :=
  ∃ x' y', (env.link.connect.run x).run y = ((.ok (), x'), y') ∧
    let listed := (roundTrip env (.clientList me.id) .clientList).exec s x' y'
    listed.result = .ok directory ∧
      ((roundTrip env (.waitingMessages me.id) .waitingMessages).exec { s with directory := .ofPayload directory }
        listed.outer listed.inner).result = .ok queue

variable {env s me}

/-- What arrives is taken in under the directory that came with it. -/
theorem exec_fetchWaiting {x : σ} {y : τ} {directory queue : Bytes} (registered : s.identity = some me)
    (arrives : Arrives env s me x y directory queue) :
    let informed : Session := { s with directory := .ofPayload directory }
    let taken := informed.absorbAll env.suite.toCiphers (parseQueue queue)
    ∃ x' y', (fetchWaiting env).exec s x y = ⟨.ok taken.1, taken.2, x', y'⟩ := by
  obtain ⟨x', y', opens, hlisted, hqueue⟩ := arrives
  obtain ⟨x₁, y₁, hlist⟩ := (leavesSession_roundTrip env (.clientList me.id) .clientList).exec_eq hlisted
  rw [hlist] at hqueue
  obtain ⟨x₂, y₂, hcollect⟩ := (leavesSession_roundTrip env (.waitingMessages me.id) .waitingMessages).exec_eq hqueue
  have hinside : (refreshDirectory env me.id >>= fun _ =>
      roundTrip env (.waitingMessages me.id) .waitingMessages).exec s x' y' =
        ⟨.ok queue, { s with directory := .ofPayload directory }, x₂, y₂⟩ := by
    rw [exec_bind, refreshDirectory, exec_bind, hlist]
    exact hcollect
  rw [fetchWaiting, exec_admitted _ _ registered, exec_bind, exec_withConnection_of_opens env opens hinside]
  exact ⟨_, _, rfl⟩

/-- Batch processing is a fold in the order of the queue and sender by sender. Where a registered client fetches and
the directory and the queue both arrive, the fetch succeeds whatever the messages hold, with one result for each record
of the queue, in order and under the name that the first record of the new directory with the sender's id has, or under
none if no record has this id. A text or a file comes to what it comes to under the last key that a message of its
sender brought before it in the batch, or else under the key held for the sender before the batch. So a queue with the
messages of one sender alone gives just the results that the whole queue gives for this sender, and leaves the same key
for it. -/
theorem batch_folds_per_sender {σ τ : Type} (env : Surroundings (StateT σ (StateM τ))) (s : Session)
    (me : Identity) (x : σ) (y : τ) (directory queue : Bytes) (registered : s.identity = some me)
    (arrives : Arrives env s me x y directory queue) :
    ∃ received, ((fetchWaiting env).exec s x y).result = .ok received ∧
      received.length = (parseQueue queue).length ∧
      (∀ earlier m later, parseQueue queue = earlier ++ m :: later → ∃ name outcome,
        received[earlier.length]? = some ⟨m.messageId, m.sender, name, m.kind, outcome⟩ ∧
        (∀ known, name = some known ↔
          ∃ place p, Peer.FirstWithId m.sender (Directory.parsePeers directory) place p ∧ p.name = known) ∧
        (name = none ↔ ∀ p ∈ Directory.parsePeers directory, p.id ≠ m.sender) ∧
        (m.kind.isContent = true → outcome = contentOutcome env.suite.toCiphers
          ((lastKey (earlier.filterMap (·.keyEvent? env.suite.toCiphers (some me))) m.sender).or
            (s.keys.lookup m.sender)) m)) ∧
      ∀ sender x' y' queue', Arrives env s me x' y' directory queue' →
        parseQueue queue' = (parseQueue queue).filter (·.sender = sender) →
        ((fetchWaiting env).exec s x' y').result = .ok (received.filter (·.sender = sender)) ∧
        ((fetchWaiting env).exec s x' y').session.keys.lookup sender =
          ((fetchWaiting env).exec s x y).session.keys.lookup sender := by
  obtain ⟨_, _, hfetch⟩ := exec_fetchWaiting registered arrives
  refine ⟨_, by rw [hfetch], length_absorbAll _ _ _, ?_, ?_⟩
  · intro earlier m later hsplit
    rw [hsplit, getElem?_absorbAll, absorbAll_session, absorb_received]
    refine ⟨_, _, rfl, fun known => Directory.nameOf?_eq_some_iff, Directory.nameOf?_eq_none_iff, fun hcontent => ?_⟩
    rw [judge_outcome _ _ _ hcontent, KeyRing.lookup_establishAll, registered]
  · intro sender x' y' queue' arrives' hqueue
    obtain ⟨_, _, hfetch'⟩ := exec_fetchWaiting registered arrives'
    have halike : AlikeFor sender { s with directory := .ofPayload directory }
        { s with directory := .ofPayload directory } := ⟨rfl, rfl, rfl⟩
    obtain ⟨hreceived, hlast⟩ := halike.absorbAll_filter env.suite.toCiphers (parseQueue queue)
    rw [hfetch, hfetch', hqueue, hreceived]
    exact ⟨rfl, hlast.held.symm⟩

open Transparent in
/-- Two records have the sender's id, and none has the id that the file comes from. -/
theorem text_opened_with_key_before_it :
    let me : Identity := ⟨"alice", .replicate 1, ⟨[7]⟩, ⟨.replicate 160 7⟩⟩
    let bob : ClientId := .replicate 2
    let stranger : ClientId := .replicate 3
    let old : SymmetricKey := ⟨.replicate 16 5⟩
    let new : SymmetricKey := ⟨.replicate 16 9⟩
    let s : Session := { identity := some me, keys := KeyRing.empty.establish bob old }
    let first : QueuedMessage := ⟨1, bob, .text, encrypt old [104]⟩
    let file : QueuedMessage := ⟨2, stranger, .file, [1, 2]⟩
    let key : QueuedMessage := ⟨3, bob, .keySend, 7 :: new.toBytes⟩
    let last : QueuedMessage := ⟨4, bob, .text, encrypt new [104, 111]⟩
    let peers : List Peer := [⟨.replicate 4, "carol"⟩, ⟨bob, "bob"⟩, ⟨bob, "bobby"⟩]
    let directory := peers.flatMap Peer.encode
    let queue := [first, file, key, last].flatMap QueuedMessage.encode
    let env : Surroundings (StateT ScriptedLink (StateM Unit)) :=
      ⟨ScriptedLink.link, suite ⟨pure (.error .random), pure (.error .random), pure []⟩⟩
    let x : ScriptedLink := { script := [{ reply := (Response.ofPayload .clientList directory).encode },
      { reply := (Response.ofPayload .waitingMessages queue).encode }] }
    s.identity = some me ∧ Arrives env s me x () directory queue ∧
      ∃ received, ((fetchWaiting env).exec s x ()).result = .ok received ∧ received.length = 4 ∧
        received[1]? = some ⟨2, stranger, none, .file, .noKey [1, 2]⟩ ∧
        received[3]? = some ⟨4, bob, some "bob", .text, .text "ho"⟩ := by
  intro me bob stranger old new s first file key last peers directory queue env x
  have arrives : Arrives env s me x () directory queue := ⟨_, (), rfl, by decide +kernel, by decide +kernel⟩
  have hqueue : parseQueue queue = [first, file, key, last] :=
    parseQueue_flatMap_encode [first, file, key, last] (by decide)
  have hpeers : Directory.parsePeers directory = peers := by decide +kernel
  have hbob : Peer.FirstWithId bob peers 1 ⟨bob, "bob"⟩ := by
    refine ⟨rfl, rfl, fun earlier q before stands => ?_⟩
    obtain rfl : earlier = 0 := Nat.lt_one_iff.1 before
    cases stands
    decide
  obtain ⟨received, hresult, hlength, hmessages, -⟩ :=
    batch_folds_per_sender env s me x () directory queue rfl arrives
  obtain ⟨fileName, fileOutcome, hfile, -, hunknown, hfileOutcome⟩ := hmessages [first] file [key, last] hqueue
  obtain ⟨name, outcome, hlast, hknown, -, houtcome⟩ := hmessages [first, file, key] last [] hqueue
  obtain rfl : fileName = none := hunknown.2 (by rw [hpeers]; decide)
  obtain rfl : name = some "bob" := (hknown "bob").2 ⟨1, ⟨bob, "bob"⟩, by rw [hpeers]; exact hbob, rfl⟩
  refine ⟨rfl, arrives, received, hresult, hlength.trans (congrArg List.length hqueue), ?_, ?_⟩
  · rw [show received[1]? = received[[first].length]? from rfl, hfile, hfileOutcome rfl]
    decide +kernel
  · rw [show received[3]? = received[[first, file, key].length]? from rfl, hlast, houtcome rfl]
    decide +kernel

end Session

end SealedPost
