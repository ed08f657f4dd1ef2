import WalletKeys.Proofs.Nonce.Problem
import WalletKeys.Proofs.Stark.Ecdsa

/-! # Nonce requests of the STARK curve

    A hash of 251 bits is put on octets so that the leftmost 252 bits of these are
    the hash again (`exists_hashOctets`). So the middle part of the seed is the
    hash itself, on 32 octets, and nothing of it is lost.

    The extra octets tell the seeds of retries apart, and from the first attempt:
    a positive number is written on at least one octet.

    So every attempt has a seed, and its nonce is one that the signer can judge.
    Signing with such nonces is given up at the limit or makes a signature.
-/

namespace WalletKeys.Stark

open WalletKeys.Nonce

/-! ## Section 1: Hashes -/

theorem bitLength_order : bitLength order = 252 := by decide +kernel

theorem octetLength_order : octetLength order = 32 := by decide +kernel

/-- The octets of a hash give back every bit of it. -/
theorem exists_hashOctets {hash : Int} (h : 0 ≤ hash ∧ hash < bound) :
    ∃ octets, hashOctets hash = .ok octets ∧
      (leftmost (bitLength order) octets : Int) = hash := by
  rw [bitLength_order]
  have hbits : bitLength hash ≤ 251 := (bitLength_le_iff h.1 251).mpr (by
    rw [show (2 : Int) ^ 251 = bound by decide]
    exact h.2)
  unfold hashOctets
  dsimp only
  by_cases hshort : 248 ≤ bitLength hash ∧ 1 ≤ bitLength hash % 8 ∧ bitLength hash % 8 ≤ 4
  · -- The shifted hash takes 32 octets, of which the last four bits are cut off again.
    obtain ⟨octets, hwrite, hlength, hvalue⟩ :=
      FixedWidth.writeShortest_of_nonneg (x := 16 * hash) (by omega)
    have hlow := mt (bitLength_le_iff h.1 248).mpr (by omega)
    have hmost := (octetLength_le_iff (x := 16 * hash) (by omega) 32).mpr (by
      have hfit : (16 * bound : Int) < 256 ^ 32 := by decide
      omega)
    have hleast := mt (octetLength_le_iff (x := 16 * hash) (by omega) 31).mp (by
      rw [show (256 : Int) ^ 31 = 2 ^ 248 by decide]
      omega)
    refine ⟨octets, by rw [if_pos hshort, hwrite], ?_⟩
    rw [leftmost, show (8 * (octets.length : Int) - (252 : Nat)).toNat = 4 by omega,
      Nat.shiftRight_eq_div_pow]
    omega
  · -- Any other hash takes 31 octets at most, of which nothing is cut off.
    obtain ⟨octets, hwrite, hlength, hvalue⟩ := FixedWidth.writeShortest_of_nonneg h.1
    have hbound : octetLength hash ≤ 31 := by
      unfold octetLength
      omega
    refine ⟨octets, by rw [if_neg hshort, hwrite], ?_⟩
    rw [leftmost_of_le (by omega), hvalue]

/-! ## Section 2: Retries -/

/-- The extra octets of a retry tell its seed, and there are none without one. -/
theorem exists_seedOctets {retry : Option Int} (h : ∀ seed ∈ retry, 1 ≤ seed) :
    ∃ octets, seedOctets retry = .ok octets ∧
      retry = if octets = [] then none else some (octets.toNat : Int) := by
  cases retry with
  | none => exact ⟨[], rfl, rfl⟩
  | some seed =>
    have hpos : 1 ≤ seed := h seed rfl
    obtain ⟨octets, hwrite, _, hvalue⟩ :=
      FixedWidth.writeShortest_of_nonneg (x := seed) (by omega)
    refine ⟨octets, hwrite, ?_⟩
    rw [if_neg, hvalue]
    rintro rfl
    rw [Octets.toNat_nil] at hvalue
    omega

/-! ## Section 3: Requests -/

/-- The octets that the generator is seeded with for a secret, a hash and a retry. -/
def generatorSeed (secret hash : Int) (retry : Option Int) : Except CurveFault Octets := do
  let request ← problem secret hash retry
  request.seed

/-- A nonce is the first one of the generator that is seeded with these octets. Nothing else
    of the secret, the hash and the retry gets to it. -/
theorem nonce_eq_generator (derivation : Derivation) (secret hash : Int) (retry : Option Int) :
    nonce derivation secret hash retry =
      generatorSeed secret hash retry >>= fun seed =>
        (Generator.ofSeed derivation.mac seed).nth derivation order 0 := by
  unfold nonce generatorSeed problem
  cases seedOctets retry with
  | error fault => rfl
  | ok extra =>
    cases hashOctets hash with
    | error fault => rfl
    | ok octets => rfl

/-- A secret of 256 bits, a hash of 251 bits, and no retry or a positive one. -/
structure IsRequest (secret hash : Int) (retry : Option Int) : Prop where
  secret : 0 ≤ secret ∧ secret < 2 ^ 256
  hash : 0 ≤ hash ∧ hash < bound
  retry : ∀ seed ∈ retry, 1 ≤ seed

variable {secret hash : Int} {retry : Option Int}

/-- What a request comes to: a problem whose residue is the hash itself and whose extra
    octets tell the retry. -/
theorem IsRequest.exists_problem (h : IsRequest secret hash retry) :
    ∃ request, problem secret hash retry = .ok request ∧ request.Fits ∧
      request.order = order ∧ request.secret = secret ∧ request.residue = hash ∧
      seedOctets retry = .ok request.extra ∧
      retry = if request.extra = [] then none else some (request.extra.toNat : Int) := by
  obtain ⟨extra, hextra, hretry⟩ := exists_seedOctets h.retry
  obtain ⟨octets, hoctets, hvalue⟩ := exists_hashOctets h.hash
  have horder : (0 : Int) < order := by decide
  have hbound : (bound : Int) < order := by decide
  refine ⟨⟨order, secret, octets, extra⟩, ?_, ⟨horder, ?_⟩, rfl, rfl, ?_, hextra, hretry⟩
  · rw [problem, hextra, ok_bind, hoctets, ok_bind, pure_eq_ok]
  · rw [Problem.width, octetLength_order]
    exact h.secret
  · -- The hash is below the order, so it is its own remainder.
    rw [Problem.residue, hashResidue_eq_emod horder, hvalue,
      Int.emod_eq_of_lt h.hash.1 (h.hash.2.trans hbound)]

/-- The parts of the seed of a request: the secret and the hash on 32 octets each, and
    the octets of the retry. -/
theorem IsRequest.exists_generatorSeed (h : IsRequest secret hash retry) :
    ∃ first middle extra : Octets,
      generatorSeed secret hash retry = .ok (first ++ middle ++ extra) ∧
        (first.length = 32 ∧ (first.toNat : Int) = secret) ∧
        (middle.length = 32 ∧ (middle.toNat : Int) = hash) ∧ seedOctets retry = .ok extra := by
  obtain ⟨request, hrequest, hfits, horder, hsecret, hhash, hextra, _⟩ := h.exists_problem
  have hwidth : request.width = 32 := by rw [Problem.width, horder, octetLength_order]
  obtain ⟨first, middle, parts⟩ := hfits.exists_seed
  refine ⟨first, middle, request.extra, ?_, ⟨?_, ?_⟩, ⟨?_, ?_⟩, hextra⟩
  · rw [generatorSeed, hrequest, ok_bind, parts.seed_eq]
  · rw [parts.secret_length, hwidth]
  · rw [← parts.secret_value, hsecret]
  · rw [parts.hash_length, hwidth]
  · rw [← parts.hash_value, hhash]

/-- No two requests have one seed. -/
theorem generatorSeed_eq_iff {secret' hash' : Int} {retry' : Option Int}
    (h : IsRequest secret hash retry) (h' : IsRequest secret' hash' retry') :
    generatorSeed secret hash retry = generatorSeed secret' hash' retry' ↔
      secret = secret' ∧ hash = hash' ∧ retry = retry' := by
  obtain ⟨request, hrequest, hfits, horder, hsecret, hhash, _, hretry⟩ := h.exists_problem
  obtain ⟨request', hrequest', hfits', horder', hsecret', hhash', _, hretry'⟩ := h'.exists_problem
  constructor
  · intro heq
    rw [generatorSeed, generatorSeed, hrequest, hrequest', ok_bind, ok_bind,
      Problem.seed_eq_iff (horder.trans horder'.symm) hfits hfits', hsecret, hsecret', hhash,
      hhash'] at heq
    obtain ⟨hsame, hsame', hextra⟩ := heq
    rw [hretry, hretry', hextra]
    exact ⟨hsame, hsame', rfl⟩
  · rintro ⟨rfl, rfl, rfl⟩
    rfl

/-! ## Section 4: Signatures -/

/-- The attempts of a signer are requests. -/
theorem isRequest_attempt (hsecret : 0 ≤ secret ∧ secret < 2 ^ 256)
    (hhash : 0 ≤ hash ∧ hash < bound) (i : Nat) : IsRequest secret hash (seedAt i) := by
  refine ⟨hsecret, hhash, ?_⟩
  intro seed hseed
  cases i with
  | zero => cases hseed
  | succ i =>
    cases hseed
    omega

/-- The nonce of an attempt lies in `[1, order)`, or its search is given up. -/
theorem nonce_cases {derivation : Derivation} (h : IsRequest secret hash retry) :
    (∃ k : Nat, nonce derivation secret hash retry = .ok k ∧ 1 ≤ k ∧ (k : Int) < order) ∨
      nonce derivation secret hash retry = .error .undecided := by
  obtain ⟨first, middle, extra, hseed, _⟩ := h.exists_generatorSeed
  rw [nonce_eq_generator, hseed, ok_bind]
  exact Generator.nth_cases order 0 _

/-- Signing with derived nonces is given up at the limit or makes a signature. -/
theorem signDerived_cases (hsecret : 0 ≤ secret ∧ secret < 2 ^ 256)
    (hne : secret % order ≠ 0) (hhash : 0 ≤ hash ∧ hash < bound) (derivation : Derivation) :
    (∃ σ, (signDerived derivation secret hash).result = .ok σ) ∨
      (signDerived derivation secret hash).result = .error .undecided := by
  rw [signDerived, sign_eq_search hne hhash]
  apply Source.search_cases
  intro i
  have hattempt : (nonces derivation secret hash).nonce i =
      (nonce derivation secret hash (seedAt i)).map Int.ofNat := rfl
  rw [hattempt]
  rcases nonce_cases (isRequest_attempt hsecret hhash i) with ⟨k, hk, hrange⟩ | hlimit
  · obtain ⟨verdict, hverdict⟩ :=
      exists_judge (k := k) (secret % order) hash (Modular.not_dvd_of_range (by omega))
    exact .inl ⟨k, verdict, by rw [hk]; rfl, hverdict⟩
  · exact .inr (by rw [hlimit]; rfl)

end WalletKeys.Stark
