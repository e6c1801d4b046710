import SealedPost.Cipher.Transparent
import SealedPost.Proofs.Consistency

/-! The suite that hides nothing keeps the laws that a suite is relied on for, and two clients can run on it. -/
namespace SealedPost.Transparent

/-- Keys that are counted through: the number of a key is its mark. -/
def counter : KeySource (StateM Nat) where
  freshKeyPair := modifyGet fun n =>
    (.ok ⟨⟨[UInt8.ofNat n]⟩, ⟨Block.replicate 160 (UInt8.ofNat n)⟩⟩, n + 1)
  freshSymmetricKey := modifyGet fun n => (.ok ⟨Block.replicate 16 (UInt8.ofNat n)⟩, n + 1)
  freshSeed := pure []

theorem decrypts : ciphers.Decrypts := by
  intro key plaintext
  have hinverse : (· ^^^ mark key.toBytes) ∘ (· ^^^ mark key.toBytes) = id := by
    funext b
    change b ^^^ mark key.toBytes ^^^ mark key.toBytes = b
    rw [UInt8.xor_assoc, UInt8.xor_self, UInt8.xor_zero]
  change (if mark key.toBytes = mark key.toBytes then .ok ((plaintext.map (· ^^^ mark key.toBytes)).map
    (· ^^^ mark key.toBytes)) else .error (.decryption .aes)) = Except.ok (ε := Failure) plaintext
  rw [if_pos rfl, List.map_map, hinverse, List.map_id]

theorem substantial : ciphers.Substantial :=
  fun _ _ nothing => nomatch nothing

/-- What is wrapped with a public key is opened by every private key with the same mark. -/
theorem unwraps {c : Type} {source : KeySource (StateM c)}
    (h : ∀ seed pair, (source.freshKeyPair.run seed).1 = .ok pair →
      mark pair.publicKey.toBytes = mark pair.privateKey.toBytes) : (suite source).Unwraps := by
  intro seed pair generated key _ wrapped made
  obtain rfl : mark pair.publicKey.toBytes :: key.toBytes = wrapped := Except.ok.inj made
  exact if_pos (h seed pair generated)

/-- A counted pair has one mark on both of its keys. -/
theorem counter_unwraps : (suite counter).Unwraps :=
  unwraps fun _ _ generated => by
    obtain rfl := Except.ok.inj generated
    rfl

/-- The same suite, but for the ciphertext of one text, which is empty. -/
def terse : CipherSuite (StateM Nat) :=
  { suite counter with
    encrypt key plaintext := if plaintext = Utf8.encode "hi" then [] else encrypt key plaintext
    decrypt key ciphertext := if ciphertext = [] then .ok (Utf8.encode "hi") else decrypt key ciphertext }

theorem terse_decrypts : terse.toCiphers.Decrypts := by
  intro key plaintext
  by_cases hhi : plaintext = Utf8.encode "hi"
  · have hempty : terse.encrypt key plaintext = [] := if_pos hhi
    rw [hempty, hhi]
    rfl
  · have hsame : terse.encrypt key plaintext = encrypt key plaintext := if_neg hhi
    rw [hsame]
    exact decrypts key plaintext

def clients : Network Bool Nat :=
  .start (fun n => .replicate (UInt8.ofNat (n + 1))) fun second => if second then 20 else 10

def alice : Identity := ⟨"alice", .replicate 1, ⟨[10]⟩, ⟨.replicate 160 10⟩⟩

def bob : Identity := ⟨"bob", .replicate 2, ⟨[20]⟩, ⟨.replicate 160 20⟩⟩

def run (script : List (Bool × Operation)) : List (Turn Bool Nat) × Network Bool Nat :=
  clients.play (suite counter) ((false, .register "alice") :: (true, .register "bob") :: script)

theorem reaches_run (script : List (Bool × Operation))
    (fits : ∀ turn ∈ (run script).1, turn.before.Fits turn.client turn.operation) :
    Network.Reaches (suite counter) clients (run script).1 (run script).2 :=
  Network.Reaches.start.play _ fits

end SealedPost.Transparent
