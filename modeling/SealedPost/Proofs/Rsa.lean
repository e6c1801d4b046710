import Mathlib.Data.Nat.ModEq
import Mathlib.FieldTheory.Finite.Basic
import SealedPost.Cipher.Rsa
import SealedPost.Proofs.Oaep

/-! With two different primes as its factors a private key undoes what its public key does, for every number below the
modulus and every message that fits. -/
namespace SealedPost.Rsa

private theorem square_pow_mod (b n m : Nat) : (b * b % m) ^ n % m = b ^ (2 * n) % m := by
  rw [← Nat.pow_mod, ← Nat.pow_two, Nat.pow_mul]

theorem powMod_eq (b e m : Nat) : powMod b e m = b ^ e % m := by
  fun_induction powMod b e m with
  | case1 => rw [Nat.pow_zero]
  | case2 b e _ h odd ih =>
    have he : 2 * (e / 2) + 1 = e := by omega
    change b * powMod (b * b % m) (e / 2) m % m = _
    rw [ih, square_pow_mod, Nat.mul_mod_mod, ← pow_succ', he]
  | case3 b e _ h even ih =>
    have he : 2 * (e / 2) = e := by omega
    change powMod (b * b % m) (e / 2) m = _
    rw [ih, square_pow_mod, he]

theorem bezout_eq_gcd (a b : Nat) : a * (bezout a b).1 + b * (bezout a b).2 = (Nat.gcd a b : Int) := by
  fun_induction bezout a b with
  | case1 a => simp only [Int.mul_one, Nat.gcd_zero_right, Int.natCast_zero, Int.zero_mul, Int.add_zero]
  | case2 a b _ r ih =>
    have hdiv : (a : Int) = b * (a / b : Nat) + (a % b : Nat) := by exact_mod_cast (Nat.div_add_mod a b).symm
    calc (a : Int) * r.2 + b * (r.1 - (a / b : Nat) * r.2)
        = b * r.1 + (a - b * (a / b : Nat)) * r.2 := by ring
      _ = b * r.1 + (a % b : Nat) * r.2 := by rw [hdiv, add_sub_cancel_left]
      _ = (Nat.gcd b (a % b) : Int) := ih
      _ = (Nat.gcd a b : Int) := by rw [Nat.gcd_comm b, ← Nat.gcd_rec, Nat.gcd_comm]

/-- The inverse comes from a Bézout equation. -/
theorem mul_inverse {a m : Nat} (hm : 0 < m) (h : Nat.gcd a m = 1) : a * inverse a m ≡ 1 [MOD m] := by
  have hbezout := bezout_eq_gcd a m
  rw [h, Int.natCast_one] at hbezout
  have hcast : (inverse a m : Int) = (bezout a m).1 % m :=
    Int.toNat_of_nonneg (Int.emod_nonneg _ (Int.natCast_ne_zero.2 hm.ne'))
  have hproduct : (a : Int) * (bezout a m).1 ≡ 1 [ZMOD m] := by
    rw [← hbezout]
    exact (Int.modEq_add_fac_self ..).symm
  apply (Int.natCast_modEq_iff).1
  rw [Nat.cast_mul, hcast, Nat.cast_one]
  exact ((Int.mod_modEq ..).mul_left _).trans hproduct

/-- Fermat's little theorem for all bases, also those that the prime divides. -/
theorem pow_modEq_self {p e : Nat} (hp : p.Prime) (he : e % (p - 1) = 1) (m : Nat) : m ^ e ≡ m [MOD p] := by
  have : Fact p.Prime := ⟨hp⟩
  have hdiv := Nat.div_add_mod e (p - 1)
  rw [he] at hdiv
  apply (ZMod.natCast_eq_natCast_iff ..).1
  rw [Nat.cast_pow, ← hdiv, pow_succ, pow_mul]
  by_cases hm : (m : ZMod p) = 0
  · rw [hm, mul_zero]
  · rw [ZMod.pow_card_sub_one_eq_one hm, one_pow, one_mul]

namespace Public

variable {key : Public} {seed message padded ciphertext : Bytes}

theorem apply_eq (key : Public) (m : Nat) : key.apply m = m ^ key.exponent % key.modulus :=
  powMod_eq ..

theorem modulus_lt (key : Public) : key.modulus < 256 ^ key.size := by
  by_cases h : key.modulus = 0
  · rw [h]
    exact Nat.pow_pos (by decide)
  · calc key.modulus < 2 ^ (Nat.log2 key.modulus + 1) := Nat.lt_log2_self
      _ ≤ 2 ^ (8 * key.size) := Nat.pow_le_pow_right (by decide) (by rw [size, if_neg h]; omega)
      _ = 256 ^ key.size := Nat.pow_mul 2 8 _

theorem pow_size_le (h : key.modulus ≠ 0) : 256 ^ (key.size - 1) ≤ key.modulus := by
  calc 256 ^ (key.size - 1) = 2 ^ (8 * (key.size - 1)) := (Nat.pow_mul 2 8 _).symm
    _ ≤ 2 ^ Nat.log2 key.modulus := Nat.pow_le_pow_right (by decide) (by rw [size, if_neg h]; omega)
    _ ≤ key.modulus := Nat.log2_self_le h

theorem apply_lt (h : key.modulus ≠ 0) (m : Nat) : key.apply m < key.modulus := by
  rw [apply_eq]
  exact Nat.mod_lt _ (Nat.pos_of_ne_zero h)

/-- The zero byte at the start of a padded message keeps its number below the modulus. -/
theorem natBE_lt_of_pad (h : key.modulus ≠ 0) (hseed : seed.length = Sha1.size)
    (hpad : Oaep.pad key.size seed message = some padded) : Bytes.natBE padded < key.modulus := by
  have hlength := Oaep.length_of_pad hseed hpad
  obtain ⟨rest, rfl⟩ := Oaep.eq_zero_cons_of_pad hpad
  rw [List.length_cons] at hlength
  calc Bytes.natBE (0 :: rest) = Bytes.natBE rest := rfl
    _ < 256 ^ rest.length := Bytes.natBE_lt rest
    _ = 256 ^ (key.size - 1) := by rw [← hlength, Nat.add_sub_cancel]
    _ ≤ key.modulus := pow_size_le h

theorem encrypt_eq_some_iff :
    key.encrypt seed message = some ciphertext ↔
      ∃ padded, Oaep.pad key.size seed message = some padded ∧
        Bytes.ofNatBE key.size (key.apply (Bytes.natBE padded)) = ciphertext :=
  Option.map_eq_some_iff

theorem length_of_encrypt (h : key.encrypt seed message = some ciphertext) : ciphertext.length = key.size := by
  obtain ⟨padded, -, rfl⟩ := encrypt_eq_some_iff.1 h
  exact Bytes.length_ofNatBE ..

/-- A message is encrypted exactly if the padding has room for it. -/
theorem exists_encrypt_iff :
    (∃ ciphertext, key.encrypt seed message = some ciphertext) ↔ message.length + Oaep.overhead ≤ key.size := by
  constructor
  · rintro ⟨ciphertext, h⟩
    obtain ⟨padded, hpad, -⟩ := encrypt_eq_some_iff.1 h
    exact (Oaep.pad_eq_some_iff.1 hpad).1
  · intro fits
    exact ⟨_, encrypt_eq_some_iff.2 ⟨_, Oaep.pad_eq_some_iff.2 ⟨fits, rfl⟩, rfl⟩⟩

end Public

namespace Private

variable {key : Private} {p q a b m : Nat}

theorem combine_modEq_left (hp : 0 < p) (coprime : Nat.gcd q p = 1) (a b : Nat) : combine p q a b ≡ a [MOD p] := by
  have hinverse : q * inverse q p ≡ 1 [MOD p] := mul_inverse hp coprime
  have hfill : b + (a + (p - b % p)) = a + p * (b / p + 1) := by
    have hdiv := Nat.div_add_mod b p
    have hmod := Nat.mod_lt b hp
    rw [Nat.mul_add]
    omega
  calc combine p q a b
      ≡ b + q * ((a + (p - b % p)) * inverse q p) [MOD p] := ((Nat.mod_modEq ..).mul_left q).add_left b
    _ = b + q * inverse q p * (a + (p - b % p)) := by ring
    _ ≡ b + 1 * (a + (p - b % p)) [MOD p] := (hinverse.mul_right _).add_left b
    _ = a + p * (b / p + 1) := by rw [Nat.one_mul, hfill]
    _ ≡ a [MOD p] := Nat.add_mul_mod_self_left ..

theorem combine_modEq_right (p q a b : Nat) : combine p q a b ≡ b [MOD q] :=
  Nat.add_mul_mod_self_left ..

theorem combine_lt (hp : 0 < p) (hb : b < q) (a : Nat) : combine p q a b < p * q := by
  have hfactor : (a + (p - b % p)) * inverse q p % p + 1 ≤ p := Nat.mod_lt _ hp
  calc combine p q a b
      < q + q * ((a + (p - b % p)) * inverse q p % p) := Nat.add_lt_add_right hb _
    _ = q * ((a + (p - b % p)) * inverse q p % p + 1) := by ring
    _ ≤ q * p := Nat.mul_le_mul_left q hfactor
    _ = p * q := Nat.mul_comm ..

/-- With the exponent taken modulo the factor less one, a power undoes the public key modulo that factor. -/
private theorem powMod_apply {r : Nat} (hr : r.Prime) (hn : r ∣ key.publicKey.modulus)
    (he : key.publicKey.exponent * key.exponent % (r - 1) = 1) (m : Nat) :
    powMod (key.publicKey.apply m) (key.exponent % (r - 1)) r ≡ m [MOD r] := by
  have hpower : key.publicKey.apply m ≡ m ^ key.publicKey.exponent [MOD r] := by
    rw [Public.apply_eq]
    exact (Nat.mod_modEq ..).of_dvd hn
  have hexponent : key.publicKey.exponent * (key.exponent % (r - 1)) % (r - 1) = 1 := by rw [Nat.mul_mod_mod, he]
  calc powMod (key.publicKey.apply m) (key.exponent % (r - 1)) r
      = key.publicKey.apply m ^ (key.exponent % (r - 1)) % r := powMod_eq ..
    _ ≡ key.publicKey.apply m ^ (key.exponent % (r - 1)) [MOD r] := Nat.mod_modEq ..
    _ ≡ (m ^ key.publicKey.exponent) ^ (key.exponent % (r - 1)) [MOD r] := hpower.pow _
    _ = m ^ (key.publicKey.exponent * (key.exponent % (r - 1))) := (pow_mul ..).symm
    _ ≡ m [MOD r] := pow_modEq_self hr hexponent m

/-- Numbers that share a factor with the modulus come back too. -/
theorem apply_apply (usable : key.IsUsable) (hp : key.p.Prime) (hq : key.q.Prime) (different : key.p ≠ key.q)
    (hm : m < key.publicKey.modulus) : key.apply (key.publicKey.apply m) = m := by
  obtain ⟨-, -, -, hn, hep, heq⟩ := usable
  have coprime : Nat.gcd key.p key.q = 1 := (Nat.coprime_primes hp hq).2 different
  have hmodP := powMod_apply hp (Dvd.intro _ hn) hep m
  have hmodQ := powMod_apply hq (Dvd.intro_left _ hn) heq m
  have hbelow : powMod (key.publicKey.apply m) (key.exponent % (key.q - 1)) key.q < key.q := by
    rw [powMod_eq]
    exact Nat.mod_lt _ hq.pos
  rw [apply, if_pos coprime]
  refine Nat.ModEq.eq_of_lt_of_lt ((Nat.modEq_and_modEq_iff_modEq_mul coprime).1 ⟨?_, ?_⟩) ?_ (hn.symm ▸ hm)
  · exact (combine_modEq_left hp.pos ((Nat.gcd_comm ..).trans coprime) ..).trans hmodP
  · exact (combine_modEq_right ..).trans hmodQ
  · exact combine_lt hp.pos hbelow _

/-- The number that decryption finds is the padded message, so that raising it again gives the ciphertext back. -/
theorem decrypt_encrypt {seed message ciphertext : Bytes} (usable : key.IsUsable) (hp : key.p.Prime) (hq : key.q.Prime)
    (different : key.p ≠ key.q) (hseed : seed.length = Sha1.size)
    (h : key.publicKey.encrypt seed message = some ciphertext) : key.decrypt ciphertext = .ok message := by
  have hlength := Public.length_of_encrypt h
  obtain ⟨padded, hpad, rfl⟩ := Public.encrypt_eq_some_iff.1 h
  have hmodulus : key.publicKey.modulus ≠ 0 := Nat.ne_of_gt (Nat.zero_lt_of_lt usable.1.2.2.2.1)
  have hbelow := Public.apply_lt hmodulus (Bytes.natBE padded)
  have hread : Bytes.natBE (Bytes.ofNatBE key.publicKey.size (key.publicKey.apply (Bytes.natBE padded))) =
      key.publicKey.apply (Bytes.natBE padded) :=
    Bytes.natBE_ofNatBE (Nat.lt_trans hbelow (Public.modulus_lt _))
  have hback : key.apply (key.publicKey.apply (Bytes.natBE padded)) = Bytes.natBE padded :=
    apply_apply usable hp hq different (Public.natBE_lt_of_pad hmodulus hseed hpad)
  have hpadded : Bytes.ofNatBE key.publicKey.size (Bytes.natBE padded) = padded := by
    rw [← Oaep.length_of_pad hseed hpad]
    exact Bytes.ofNatBE_natBE padded
  have haccepted : ¬((Bytes.ofNatBE key.publicKey.size (key.publicKey.apply (Bytes.natBE padded))).length ≠
      key.publicKey.size ∨ key.publicKey.apply (Bytes.natBE padded) ≥ key.publicKey.modulus) :=
    not_or.2 ⟨not_not.2 hlength, Nat.not_le.2 hbelow⟩
  simp only [decrypt, hread, if_neg haccepted, hback, ne_eq, not_true_eq_false, if_false, hpadded,
    Oaep.unpad_pad hseed hpad]

end Private

end SealedPost.Rsa
