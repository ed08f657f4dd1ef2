import WalletKeys.Proofs.Nonce.Problem
import WalletKeys.Proofs.Secp256k1.Ecdsa

/-! # Nonce requests of secp256k1

    The order has as many bits as a hash of 32 octets, so the hash is not cut, and
    its residue is its remainder by the order. Hashes with one remainder therefore
    have the same nonces, and since the remainder is also all that a signature
    depends on, they have the same signatures (`sign_eq_of_seeds_eq`).
-/

namespace WalletKeys.Secp256k1

open WalletKeys.Nonce

/-! ## Section 1: Requests -/

theorem bitLength_order : bitLength order = 256 := by decide +kernel

theorem octetLength_order : octetLength order = 32 := by decide +kernel

/-- The nonce request of a scalar and a hash. -/
def request (d : Int) (hash : Octets) : Problem := ⟨order, d, hash, []⟩

variable {d d' : Int} {hash hash' : Octets}

theorem request_fits (hd : 0 < d ∧ d < order) (hash : Octets) : (request d hash).Fits where
  order_pos := by
    show (0 : Int) < order
    decide
  secret := by
    have hfit : (order : Int) < 256 ^ 32 := by decide
    show 0 ≤ d ∧ d < 256 ^ octetLength order
    rw [octetLength_order]
    omega

theorem request_residue (d : Int) (hlength : hash.length = 32) :
    (request d hash).residue = hash.toNat % order := by
  show hashResidue order hash = hash.toNat % order
  rw [hashResidue_eq_emod (by decide), bitLength_order, leftmost_of_le (by omega)]

/-- Requests have one seed exactly if they agree in the scalar and in the remainder of
    the hash. -/
theorem seed_request_eq_iff (hd : 0 < d ∧ d < order) (hd' : 0 < d' ∧ d' < order)
    (hlength : hash.length = 32) (hlength' : hash'.length = 32) :
    (request d hash).seed = (request d' hash').seed ↔
      d = d' ∧ (hash.toNat : Int) % order = hash'.toNat % order := by
  rw [Problem.seed_eq_iff (by rfl) (request_fits hd hash) (request_fits hd' hash'),
    request_residue d hlength, request_residue d' hlength']
  show d = d' ∧ _ ∧ [] = [] ↔ _
  rw [eq_self_iff_true, and_true]

/-! ## Section 2: Signatures -/

/-- The judgement of a nonce depends on the remainder of the number to be signed. -/
theorem judge_congr (d k : Int) {z z' : Int} (h : z % order = z' % order) :
    judge d z k = judge d z' k := by
  have hscalar : ∀ t r : Int, t * (z + r * d) % order = t * (z' + r * d) % order := by
    intro t r
    exact (Int.ModEq.add_right (r * d) h).mul_left t
  unfold judge
  simp only [hscalar]

/-- Requests with one seed lead to one search for a signature. -/
theorem sign_eq_of_seeds_eq (hd : 0 < d ∧ d < order) (hd' : 0 < d' ∧ d' < order)
    (hlength : hash.length = 32) (hlength' : hash'.length = 32)
    (hseed : (request d hash).seed = (request d' hash').seed) (derivation : Derivation) :
    sign (nonces derivation d hash) d hash = sign (nonces derivation d' hash') d' hash' := by
  have hsource : nonces derivation d hash = nonces derivation d' hash' :=
    Source.derived_congr (by rfl) hseed
  obtain ⟨rfl, hresidue⟩ := (seed_request_eq_iff hd hd' hlength hlength').mp hseed
  have hjudge : judge d hash.toNat = judge d hash'.toNat := by
    funext k
    exact judge_congr d k hresidue
  rw [sign_of_length hlength, sign_of_length hlength', hsource, hjudge]

/-- Signing with derived nonces is given up at the limit or makes a signature. -/
theorem signDerived_cases (hd : 0 < d ∧ d < order) (hlength : hash.length = 32)
    (derivation : Derivation) :
    (∃ σ, signDerived derivation d hash = .ok σ) ∨
      signDerived derivation d hash = .error .undecided := by
  rw [signDerived, sign_of_length hlength]
  apply Source.search_cases
  intro i
  obtain ⟨_, _, parts⟩ := (request_fits hd hash).exists_seed
  have hnonce : (nonces derivation d hash).nonce i =
      ((request d hash).nonce derivation i).map Int.ofNat := rfl
  rw [hnonce]
  rcases Problem.nonce_cases parts.seed_eq i with ⟨k, hk, _⟩ | hlimit
  · obtain ⟨verdict, hverdict⟩ := exists_judge d hash.toNat k
    exact .inl ⟨k, verdict, by rw [hk]; rfl, hverdict⟩
  · exact .inr (by rw [hlimit]; rfl)

end WalletKeys.Secp256k1
