import WalletKeys.Proofs.Secp256k1.Nonce
import WalletKeys.Proofs.Stark.Nonce

/-! # No two signing problems share a seed

    A nonce that served for two different hashes gives the secret away. The nonces
    of a request come from its seed, so the seeds have to be as different as the
    problems they belong to.

    On the STARK curve a seed determines the secret, the hash and the retry. On
    secp256k1 it determines the scalar and the remainder of the hash, and hashes
    with one remainder are not told apart by anything else in a signature either,
    so there is nothing to give away.
-/

namespace WalletKeys.Nonce

/-- Seeds are equal for equal signing problems only. The middle part of a seed on the
    STARK curve is the hash on 32 octets, all of it. On secp256k1 problems with one seed
    also have the same course of signing, which ends with a signature if it is not given
    up for the limit of the derivation. -/
theorem seeds_separate_problems :
    (∀ {secret hash : Int} {retry : Option Int}, Stark.IsRequest secret hash retry →
      ∃ first middle extra : Octets,
        Stark.generatorSeed secret hash retry = .ok (first ++ middle ++ extra) ∧
          (first.length = 32 ∧ (first.toNat : Int) = secret) ∧
          (middle.length = 32 ∧ (middle.toNat : Int) = hash) ∧
          Stark.seedOctets retry = .ok extra) ∧
    (∀ {secret hash secret' hash' : Int} {retry retry' : Option Int},
      Stark.IsRequest secret hash retry → Stark.IsRequest secret' hash' retry' →
        (Stark.generatorSeed secret hash retry = Stark.generatorSeed secret' hash' retry' ↔
          secret = secret' ∧ hash = hash' ∧ retry = retry')) ∧
    ∀ {d d' : Int} {hash hash' : Octets}, (0 < d ∧ d < Secp256k1.order) →
      (0 < d' ∧ d' < Secp256k1.order) → hash.length = 32 → hash'.length = 32 →
        (∃ seed, (Secp256k1.request d hash).seed = .ok seed) ∧
        ((Secp256k1.request d hash).seed = (Secp256k1.request d' hash').seed ↔
          d = d' ∧ (hash.toNat : Int) % Secp256k1.order = hash'.toNat % Secp256k1.order) ∧
        ((Secp256k1.request d hash).seed = (Secp256k1.request d' hash').seed →
          ∀ derivation : Derivation,
            Secp256k1.sign (Secp256k1.nonces derivation d hash) d hash =
              Secp256k1.sign (Secp256k1.nonces derivation d' hash') d' hash' ∧
            ((∃ σ, Secp256k1.signDerived derivation d hash = .ok σ) ∨
              Secp256k1.signDerived derivation d hash = .error .undecided)) := by
  refine ⟨Stark.IsRequest.exists_generatorSeed, Stark.generatorSeed_eq_iff, ?_⟩
  intro d d' hash hash' hd hd' hlength hlength'
  obtain ⟨_, _, parts⟩ := (Secp256k1.request_fits hd hash).exists_seed
  refine ⟨⟨_, parts.seed_eq⟩, Secp256k1.seed_request_eq_iff hd hd' hlength hlength', ?_⟩
  intro hseed derivation
  exact ⟨Secp256k1.sign_eq_of_seeds_eq hd hd' hlength hlength' hseed derivation,
    Secp256k1.signDerived_cases hd hlength derivation⟩

/-- Hashes with the same digits at different places have different seeds, and so have a
    first attempt and a retry. A hash of the value of the order shares its seed and its
    signature with the hash zero. -/
theorem seeds_separate_problems_at_the_edges :
    Stark.generatorSeed (2 ^ 256 - 1) (2 ^ 250) none ≠
        Stark.generatorSeed (2 ^ 256 - 1) (2 ^ 246) none ∧
      Stark.generatorSeed 0 (2 ^ 251 - 1) none ≠
        Stark.generatorSeed 0 (2 ^ 251 - 1) (some 1) ∧
      Secp256k1.sign (Secp256k1.nonces .standard 1 (Octets.ofNat 32 Secp256k1.order)) 1
          (Octets.ofNat 32 Secp256k1.order) =
        Secp256k1.sign (Secp256k1.nonces .standard 1 (Octets.zeros 32)) 1 (Octets.zeros 32) := by
  obtain ⟨_, hstark, hsecp⟩ := seeds_separate_problems
  refine ⟨?_, ?_, ?_⟩
  · intro heq
    obtain ⟨_, hhash, _⟩ := (hstark ⟨by decide, by decide, by simp⟩
      ⟨by decide, by decide, by simp⟩).mp heq
    exact absurd hhash (by decide)
  · intro heq
    obtain ⟨_, _, hretry⟩ := (hstark ⟨by decide, by decide, by simp⟩
      ⟨by decide, by decide, by simp⟩).mp heq
    cases hretry
  · have hd : (0 : Int) < 1 ∧ (1 : Int) < Secp256k1.order := by decide
    have hlength := Octets.length_ofNat 32 Secp256k1.order
    obtain ⟨_, hiff, hsign⟩ := hsecp hd hd hlength (Octets.length_zeros 32)
    exact (hsign (hiff.mpr ⟨rfl, by decide +kernel⟩) .standard).1

end WalletKeys.Nonce
