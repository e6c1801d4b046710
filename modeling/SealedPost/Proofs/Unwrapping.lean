import Mathlib.NumberTheory.LucasPrimality
import SealedPost.Cipher.Standard
import SealedPost.Proofs.KeyForm
import SealedPost.Proofs.Rsa

/-! What is wrapped for the owner of a private key is unwrapped with it. -/
namespace SealedPost

namespace Rsa.Private

variable {bs : Bytes} {key : PrivateKey} {owner : Private}

theorem isUsable_of_ofInfo? (h : ofInfo? bs = some owner) : owner.IsUsable := by
  simp only [ofInfo?, Option.bind_eq_bind, Option.bind_eq_some_iff] at h
  obtain ⟨_, _, _, _, _, _, _, _, _, _, _, _, hkey⟩ := h
  split at hkey
  · split at hkey
    · next usable =>
      obtain rfl := Option.some.inj hkey
      exact usable.2
    · cases hkey
  · cases hkey

theorem isUsable_of_ofKey (h : ofKey key = .ok owner) : owner.IsUsable := by
  unfold ofKey at h
  split at h
  · next read hread =>
    obtain rfl := Except.ok.inj h
    exact isUsable_of_ofInfo? hread
  · cases h

end Rsa.Private

namespace Standard

variable {key : PrivateKey} {owner : Rsa.Private} {wire : PublicKey} {receiver : Rsa.Public}
  {seed message ciphertext : Bytes}

theorem derivePublicKey_of_ofKey (h : Rsa.Private.ofKey key = .ok owner) :
    derivePublicKey key = owner.publicKey.toWire := by
  simp only [derivePublicKey, h, bind, Except.bind]

theorem wrap_eq_ok_iff (h : Rsa.Public.ofWire wire = .ok receiver) :
    wrap wire seed message = .ok ciphertext ↔ receiver.encrypt seed message = some ciphertext := by
  simp only [wrap, h, bind, Except.bind]
  cases receiver.encrypt seed message with
  | some _ => simp only [pure, Except.pure, Except.ok.injEq, Option.some.injEq]
  | none => exact ⟨fun h => (nomatch h), fun h => (nomatch h)⟩

/-- What the owner's key decrypts is unwrapped. -/
theorem unwrap_of_decrypt (hkey : Rsa.Private.ofKey key = .ok owner) (h : owner.decrypt ciphertext = .ok message) :
    unwrap key ciphertext = .ok message := by
  simp only [unwrap, hkey, bind, Except.bind, h, pure, Except.pure]

/-- A private key with two different primes opens whatever was wrapped with its public key, under every seed. A message
can be wrapped exactly if it is at least 42 bytes shorter than the modulus, which is as long as every ciphertext; a
modulus of 58 bytes is enough for every session key. -/
theorem wrapped_messages_unwrap (hkey : Rsa.Private.ofKey key = .ok owner) (hp : owner.p.Prime) (hq : owner.q.Prime)
    (different : owner.p ≠ owner.q) (hwire : derivePublicKey key = .ok wire) (seed : Block 20) :
    let k := owner.publicKey.size
    (∀ message, (∃ ciphertext, wrap wire seed.toBytes message = .ok ciphertext) ↔ 42 ≤ k ∧ message.length ≤ k - 42) ∧
      (∀ message ciphertext, wrap wire seed.toBytes message = .ok ciphertext →
        ciphertext.length = k ∧ unwrap key ciphertext = .ok message) ∧
      (58 ≤ k → ∀ sessionKey : SymmetricKey, ∃ ciphertext,
        wrap wire seed.toBytes sessionKey.toBytes = .ok ciphertext ∧
          unwrap key ciphertext = .ok sessionKey.toBytes) := by
  intro k
  have usable := Rsa.Private.isUsable_of_ofKey hkey
  have hseed : seed.toBytes.length = Sha1.size := seed.length_toBytes
  have hread : Rsa.Public.ofWire wire = .ok owner.publicKey := by
    rw [derivePublicKey_of_ofKey hkey] at hwire
    exact Rsa.Public.ofWire_toWire usable.1 hwire
  have hfits : ∀ message, (∃ ciphertext, wrap wire seed.toBytes message = .ok ciphertext) ↔
      42 ≤ k ∧ message.length ≤ k - 42 := by
    intro message
    have hlimit : message.length + Oaep.overhead ≤ k ↔ 42 ≤ k ∧ message.length ≤ k - 42 := by
      unfold Oaep.overhead Sha1.size
      omega
    exact (exists_congr fun _ => wrap_eq_ok_iff hread).trans (Rsa.Public.exists_encrypt_iff.trans hlimit)
  have hback : ∀ message ciphertext, wrap wire seed.toBytes message = .ok ciphertext →
      ciphertext.length = k ∧ unwrap key ciphertext = .ok message := by
    intro message ciphertext h
    have hencrypt := (wrap_eq_ok_iff hread).1 h
    exact ⟨Rsa.Public.length_of_encrypt hencrypt,
      unwrap_of_decrypt hkey (Rsa.Private.decrypt_encrypt usable hp hq different hseed hencrypt)⟩
  refine ⟨hfits, hback, fun hk sessionKey => ?_⟩
  have hshort : sessionKey.toBytes.length ≤ k - 42 := by
    rw [sessionKey.length_toBytes]
    omega
  obtain ⟨ciphertext, h⟩ := (hfits sessionKey.toBytes).2 ⟨by omega, hshort⟩
  exact ⟨ciphertext, h, (hback _ _ h).2⟩

/-- Lucas's test, for a number whose predecessor has no prime factors but two and three. -/
private theorem prime_of_powMod {n a : Nat} (h : Rsa.powMod a (3 * 2 ^ n) (3 * 2 ^ n + 1) = 1)
    (htwo : Rsa.powMod a (3 * 2 ^ n / 2) (3 * 2 ^ n + 1) ≠ 1)
    (hthree : Rsa.powMod a (3 * 2 ^ n / 3) (3 * 2 ^ n + 1) ≠ 1) : (3 * 2 ^ n + 1).Prime := by
  have hone : 1 % (3 * 2 ^ n + 1) = 1 := Nat.one_mod_eq_one.2 (by have := Nat.two_pow_pos n; omega)
  have hpower : ∀ e, (a : ZMod (3 * 2 ^ n + 1)) ^ e = 1 ↔ Rsa.powMod a e (3 * 2 ^ n + 1) = 1 := by
    intro e
    have hcast := ZMod.natCast_eq_natCast_iff' (a ^ e) 1 (3 * 2 ^ n + 1)
    rw [Nat.cast_pow, Nat.cast_one, hone] at hcast
    rw [Rsa.powMod_eq]
    exact hcast
  apply lucas_primality _ (a : ZMod (3 * 2 ^ n + 1)) ((hpower _).2 h)
  intro r hr hdvd
  rw [ne_eq, hpower]
  rcases hr.dvd_mul.1 hdvd with hdvd | hdvd
  · obtain rfl := (Nat.prime_dvd_prime_iff_eq hr Nat.prime_three).1 hdvd
    exact hthree
  · obtain rfl := (Nat.prime_dvd_prime_iff_eq hr Nat.prime_two).1 (hr.dvd_of_dvd_pow hdvd)
    exact htwo

/-- A key of 59 bytes, which is long enough for session keys. -/
theorem keys_of_short_modulus_unwrap :
    let p := 3 * 2 ^ 189 + 1
    let q := 3 * 2 ^ 276 + 1
    let owner : Rsa.Private := ⟨⟨p * q, 17⟩, Rsa.inverse 17 ((p - 1) * (q - 1)), p, q⟩
    let key : PrivateKey := ⟨owner.info (Rsa.inverse q p)⟩
    ∃ wire, derivePublicKey key = .ok wire ∧ ∀ (seed : Block 20) (sessionKey : SymmetricKey), ∃ ciphertext,
      wrap wire seed.toBytes sessionKey.toBytes = .ok ciphertext ∧ ciphertext.length = 59 ∧
        unwrap key ciphertext = .ok sessionKey.toBytes := by
  intro p q owner key
  have hp : p.Prime := @prime_of_powMod 189 10 (by decide +kernel) (by decide +kernel) (by decide +kernel)
  have hq : q.Prime := @prime_of_powMod 276 19 (by decide +kernel) (by decide +kernel) (by decide +kernel)
  have hread : Rsa.Private.ofInfo? key.toBytes = some owner := by decide +kernel
  have hkey : Rsa.Private.ofKey key = .ok owner := by rw [Rsa.Private.ofKey, hread]
  have hwire : derivePublicKey key = .ok ⟨Block.fit 160 owner.publicKey.info⟩ := by
    rw [derivePublicKey_of_ofKey hkey]
    exact Rsa.Public.toWire_of_short (by decide +kernel)
  have hsize : owner.publicKey.size = 59 := by decide +kernel
  refine ⟨_, hwire, fun seed sessionKey => ?_⟩
  obtain ⟨-, hback, hsession⟩ := wrapped_messages_unwrap hkey hp hq (by decide +kernel) hwire seed
  obtain ⟨ciphertext, hwrap, hunwrap⟩ := hsession (by rw [hsize]; decide) sessionKey
  exact ⟨ciphertext, hwrap, hsize ▸ (hback _ _ hwrap).1, hunwrap⟩

end Standard

end SealedPost
