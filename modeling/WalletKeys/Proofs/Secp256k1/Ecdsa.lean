import WalletKeys.Proofs.Secp256k1.Attempt
import WalletKeys.Proofs.Secp256k1.PointCode

/-! # Signing, verification and recovery on secp256k1

    All three come down to one relation, `Fits`: the nonce point `R` has the
    abscissa `r` modulo the order, and `s * R = z * base + r * Q` for the public
    point `Q`. The signer chooses `R` and solves for `s`; verification solves for
    `R` and looks at its abscissa; recovery finds `R` from its abscissa and solves
    for `Q`. Each solution is unique, because scalars below the order can be
    inverted and the order annihilates every point of the curve.

    Replacing `s` by its opposite replaces `R` by its opposite, which has the same
    abscissa and the other parity. That is why the parity bit of the recovery id
    follows the choice of the smaller scalar.
-/

namespace WalletKeys.Secp256k1

open WalletKeys.Geometry WalletKeys.Modular WalletKeys.Nonce

/-! ## Section 1: The relation -/

/-- The nonce point `R` fits the scalars `r` and `s` over the number `z` by the
    public point `Q`. -/
structure Fits (z r s : Int) (Q R : Element) : Prop where
  abscissa : (coordinates R).x % order = r
  equation : s • R = z • base + r • Q

variable {z r s : Int} {Q R : Element}

theorem Fits.ne_zero (h : Fits z r s Q R) (hr : 0 < r) : R ≠ 0 := by
  intro hzero
  -- The pair that stands for the neutral element has the abscissa zero.
  have hx := h.abscissa
  rw [hzero, coordinates_zero, identity, Int.zero_emod] at hx
  omega

/-- A nonce point fits exactly if it is the one that solves the equation and has the
    abscissa. -/
theorem fits_iff (hs : 0 < s ∧ s < order) :
    Fits z r s Q R ↔ (coordinates R).x % order = r ∧ R = quotient order s (z • base + r • Q) := by
  rw [← zsmul_eq_iff_quotient order_nsmul (not_dvd_of_range hs)]
  constructor
  · intro h
    exact ⟨h.abscissa, h.equation⟩
  · intro h
    exact ⟨h.1, h.2⟩

/-- No two nonce points fit. -/
theorem Fits.nonce_unique {R' : Element} (hs : 0 < s ∧ s < order) (h : Fits z r s Q R)
    (h' : Fits z r s Q R') : R = R' := by
  rw [((fits_iff hs).mp h).2, ((fits_iff hs).mp h').2]

/-- The opposite nonce point fits the opposite scalar. -/
theorem Fits.neg (h : Fits z r s Q R) (hr : 0 < r) : Fits z r (order - s) Q (-R) where
  abscissa := by rw [(coordinates_neg (h.ne_zero hr)).1, h.abscissa]
  equation := by
    rw [order_sub_zsmul (order_nsmul _), zsmul_neg, neg_neg, h.equation]

/-- Scalars are in range together with their opposites. -/
theorem inRange_opposite_iff : InRange r (order - s) ↔ InRange r s := by
  unfold InRange
  constructor
  · intro h
    exact ⟨h.1, by omega, by omega⟩
  · intro h
    exact ⟨h.1, by omega, by omega⟩

/-! ## Section 2: Recovery ids -/

/-- The recovery id of a nonce point. -/
def recoveryIdOf (nonce : Affine) : Int :=
  recoveryId (decide ((order : Int) ≤ nonce.x)) (decide (nonce.y % 2 = 1))

theorem recoveryIdOf_range (nonce : Affine) : 0 ≤ recoveryIdOf nonce ∧ recoveryIdOf nonce ≤ 3 := by
  unfold recoveryIdOf recoveryId
  split <;> split <;> omega

/-- The abscissa of a point, reduced by the order, is the abscissa or falls short
    of it by the order. -/
theorem abscissa_emod_order {q : Affine} (hq : OnCurve q) :
    q.x % order = if (order : Int) ≤ q.x then q.x - order else q.x := by
  obtain ⟨hnonneg, hlt⟩ := hq.1
  have hprime : (fieldPrime : Int) < 2 * order := by decide
  split
  · rw [← Int.sub_emod_right, Int.emod_eq_of_lt (by omega) (by omega)]
  · exact Int.emod_eq_of_lt hnonneg (by omega)

/-- The id and the reduced abscissa of a nonce point say where to lift it from. -/
theorem recoveryIdOf_eq_iff {q : Affine} (hq : OnCurve q) (hr : 0 < r) {id : Int}
    (hid : 0 ≤ id ∧ id ≤ 3) :
    q.x % order = r ∧ recoveryIdOf q = id ↔
      (r < order ∧ q.x = if 2 ≤ id then r + order else r) ∧ q.y % 2 = id % 2 := by
  rw [abscissa_emod_order hq]
  obtain ⟨hnonneg, hlt⟩ := hq.1
  -- The order is subtracted once at most, so one bit tells whether it was.
  have hprime : (fieldPrime : Int) < 2 * order := by decide
  have hparity := Int.emod_two_eq_zero_or_one q.y
  unfold recoveryIdOf recoveryId
  by_cases hexceeds : (order : Int) ≤ q.x <;> by_cases hodd : q.y % 2 = 1 <;>
    by_cases hbit : 2 ≤ id <;> simp only [hexceeds, hodd, hbit, decide_true, decide_false,
      if_true, if_false, Bool.false_eq_true] <;> omega

/-- Of two opposite points one has an odd ordinate. -/
theorem odd_opposite (hR : R ≠ 0) :
    decide ((coordinates (-R)).y % 2 = 1) = !decide ((coordinates R).y % 2 = 1) := by
  rw [(coordinates_neg hR).2, ← decide_not]
  apply decide_eq_decide.mpr
  omega

/-! ## Section 3: Verification -/

variable {hash : Octets} {code : Octets}

/-- Of a code nothing but the point matters. -/
theorem verify_congr (hash : Octets) (r s : Int) {code code' : Octets}
    (h : decode code = decode code') : verify hash r s code = verify hash r s code' := by
  rw [verify, verify, h]

/-- What fails the first checks is not accepted. -/
theorem verify_of_not_checked (h : ¬(hash.length = 32 ∧ InRange r s)) :
    verify hash r s code = .ok false := by
  rw [verify, if_pos]
  by_cases hlength : hash.length = 32
  · exact .inr fun hrange => h ⟨hlength, hrange⟩
  · exact .inl hlength

/-- What passes the first checks is decided by the only nonce point that solves the
    equation. -/
theorem verify_of_checked (hlength : hash.length = 32) (hrange : InRange r s)
    (hcode : decode code = .ok (coordinates Q)) :
    let R := quotient order s ((hash.toNat : Int) • base + r • Q)
    verify hash r s code = .ok (decide (R ≠ 0 ∧ (coordinates R).x % order = r)) := by
  obtain ⟨t, hok, _, hinv⟩ := inverse_of_not_dvd (not_dvd_of_range hrange.2)
  rw [verify, if_neg (not_or.mpr ⟨not_not_intro hlength, not_not_intro hrange⟩), hcode]
  simp only [hok, ok_bind, ← coordinates_base, multiple_coordinates, add_coordinates,
    emod_order_zsmul, pure_eq_ok, Ne, coordinates_eq_identity_iff,
    combination_eq_quotient order_nsmul (not_dvd_of_range hrange.2) hinv]

/-- Verification finds the nonce point that fits, if there is one. -/
theorem verify_eq_true_iff (hcode : decode code = .ok (coordinates Q)) :
    verify hash r s code = .ok true ↔
      hash.length = 32 ∧ InRange r s ∧ ∃ R, Fits hash.toNat r s Q R := by
  by_cases hchecked : hash.length = 32 ∧ InRange r s
  · obtain ⟨hlength, hrange⟩ := hchecked
    simp only [verify_of_checked hlength hrange hcode, fits_iff hrange.2, Except.ok.injEq,
      decide_eq_true_eq]
    constructor
    · intro h
      obtain ⟨_, habscissa⟩ := h
      exact ⟨hlength, hrange, _, habscissa, rfl⟩
    · intro h
      obtain ⟨_, _, R, hR⟩ := h
      have hne := ((fits_iff hrange.2).mpr hR).ne_zero hrange.1.1
      obtain ⟨habscissa, rfl⟩ := hR
      exact ⟨hne, habscissa⟩
  · rw [verify_of_not_checked hchecked]
    constructor
    · intro h
      cases h
    · intro h
      obtain ⟨hlength, hrange, _⟩ := h
      exact absurd ⟨hlength, hrange⟩ hchecked

/-! ## Section 4: Recovery -/

/-- The nonce point `R` with the recovery id `id` leads to the public point `Q`. -/
structure Recovers (z r s id : Int) (Q R : Element) : Prop where
  scalars : InRange r s
  idRange : 0 ≤ id ∧ id ≤ 3
  fits : Fits z r s Q R
  id_eq : recoveryIdOf (coordinates R) = id

variable {id : Int}

/-- What is lifted is the nonce point that the scalar and the id belong to. -/
theorem lift_nonce_iff (hr : 0 < r ∧ r < order) (hid : 0 ≤ id ∧ id ≤ 3) {q : Affine} :
    lift (if 2 ≤ id then r + order else r) (id % 2) = .ok q ↔
      OnCurve q ∧ q.x % order = r ∧ recoveryIdOf q = id := by
  rw [lift_eq_ok_iff (Int.emod_two_eq_zero_or_one id)]
  constructor
  · intro h
    obtain ⟨hx, hy, hq⟩ := h
    exact ⟨hq, (recoveryIdOf_eq_iff hq hr.1 hid).mpr ⟨⟨hr.2, hx⟩, hy⟩⟩
  · intro hall
    obtain ⟨hq, h⟩ := hall
    obtain ⟨⟨_, hx⟩, hy⟩ := (recoveryIdOf_eq_iff hq hr.1 hid).mp h
    exact ⟨hx, hy, hq⟩

/-- Any nonce point fits one public point. -/
theorem exists_fits (z s : Int) (hr : 0 < r ∧ r < order) (hR : (coordinates R).x % order = r) :
    ∃ Q, Fits z r s Q R := by
  obtain ⟨t, _, _, hinv⟩ := inverse_of_not_dvd (not_dvd_of_range hr)
  refine ⟨(-z * t) • base + (s * t) • R, hR, ?_⟩
  rw [(zsmul_eq_combination_iff order_nsmul hinv).mpr rfl, neg_zsmul, add_neg_cancel_left]

theorem recoverPoint_of_recovers (h : Recovers hash.toNat r s id Q R) :
    recoverPoint hash r s id =
      if Q = 0 then .error .recoveredIdentity else .ok (coordinates Q) := by
  obtain ⟨hrange, hid, hfits, hbits⟩ := h
  have hR := onCurve_coordinates (hfits.ne_zero hrange.1.1)
  have hlift := (lift_nonce_iff hrange.1 hid).mpr ⟨hR, hfits.abscissa, hbits⟩
  -- Where there is a nonce point, its abscissa is below the prime already.
  have hx : (if 2 ≤ id then r + order else r) < fieldPrime := by
    rw [← ((lift_eq_ok_iff (Int.emod_two_eq_zero_or_one id)).mp hlift).1]
    exact hR.1.2
  obtain ⟨t, hok, _, hinv⟩ := inverse_of_not_dvd (not_dvd_of_range hrange.1)
  have hkey : Q = (-(hash.toNat % order) * t : Int) • base + (s * t) • R := by
    rw [← zsmul_eq_combination_iff order_nsmul hinv, neg_zsmul, emod_order_zsmul, hfits.equation,
      neg_add_cancel_left]
  rw [recoverPoint, if_neg (not_or.mpr ⟨not_not_intro hrange, not_not_intro hid⟩)]
  dsimp only
  rw [if_neg (not_le.mpr hx), hlift]
  simp only [hok, ok_bind, error_bind, ← coordinates_base, multiple_coordinates, add_coordinates,
    emod_order_zsmul, ← hkey, coordinates_eq_identity_iff, pure_eq_ok]

/-- Why recovery finds nothing: the first of its checks that fails. -/
def recoveryRefusal (r s id : Int) : CurveFault :=
  if ¬InRange r s ∨ ¬(0 ≤ id ∧ id ≤ 3) then .invalidSignature
  else if (fieldPrime : Int) ≤ if 2 ≤ id then r + order else r then .recoveryOverflow
  else .abscissaOffCurve

theorem category_of_recoveryRefusal (r s id : Int) :
    (recoveryRefusal r s id).category = .value := by
  unfold recoveryRefusal
  split
  · rfl
  · split <;> split <;> rfl

/-- Where no nonce point leads to a public point, recovery says why. -/
theorem recoverPoint_of_not_recovers (h : ¬∃ Q R, Recovers hash.toNat r s id Q R) :
    recoverPoint hash r s id = .error (recoveryRefusal r s id) := by
  unfold recoverPoint recoveryRefusal
  by_cases hguard : ¬InRange r s ∨ ¬(0 ≤ id ∧ id ≤ 3)
  · rw [if_pos hguard, if_pos hguard]
    rfl
  rw [if_neg hguard, if_neg hguard]
  rw [not_or, not_not, not_not] at hguard
  obtain ⟨hrange, hid⟩ := hguard
  dsimp only
  by_cases hover : (fieldPrime : Int) ≤ if 2 ≤ id then r + order else r
  · rw [if_pos hover, if_pos hover]
    rfl
  rw [if_neg hover, if_neg hover]
  cases hlift : lift (if 2 ≤ id then r + order else r) (id % 2) with
  | error fault =>
    have hnonneg : 0 ≤ if 2 ≤ id then r + order else r := by
      have hr := hrange.1.1
      split <;> omega
    rw [lift_eq_error ⟨hnonneg, not_le.mp hover⟩ hlift]
    rfl
  | ok nonce =>
    -- From a lifted point on nothing is refused, and the equation has a solution.
    obtain ⟨hnonce, habscissa, hbits⟩ := (lift_nonce_iff hrange.1 hid).mp hlift
    obtain ⟨R, _, rfl⟩ := exists_coordinates hnonce
    obtain ⟨Q, hfits⟩ := exists_fits hash.toNat s hrange.1 habscissa
    exact absurd ⟨Q, R, hrange, hid, hfits, hbits⟩ h

/-- Recovery finds the public point that a nonce point with the given id leads to. -/
theorem recoverPoint_eq_ok_iff {q : Affine} :
    recoverPoint hash r s id = .ok q ↔
      ∃ Q R, (Q ≠ 0 ∧ coordinates Q = q) ∧ Recovers hash.toNat r s id Q R := by
  constructor
  · intro h
    by_cases hex : ∃ Q R, Recovers hash.toNat r s id Q R
    · obtain ⟨Q, R, hrec⟩ := hex
      rw [recoverPoint_of_recovers hrec] at h
      split at h
      · cases h
      · rename_i hQ
        exact ⟨Q, R, ⟨hQ, Except.ok.inj h⟩, hrec⟩
    · rw [recoverPoint_of_not_recovers hex] at h
      cases h
  · intro h
    obtain ⟨Q, R, ⟨hQ, rfl⟩, hrec⟩ := h
    rw [recoverPoint_of_recovers hrec, if_neg hQ]

/-- Recovery finds a point of the curve or reports a bad value. -/
theorem recoverPoint_cases (hash : Octets) (r s id : Int) :
    (∃ q, recoverPoint hash r s id = .ok q ∧ OnCurve q) ∨
      ∃ fault, recoverPoint hash r s id = .error fault ∧ fault.category = .value := by
  by_cases hex : ∃ Q R, Recovers hash.toNat r s id Q R
  · obtain ⟨Q, R, hrec⟩ := hex
    rw [recoverPoint_of_recovers hrec]
    by_cases hQ : Q = 0
    · rw [if_pos hQ]
      exact .inr ⟨_, rfl, rfl⟩
    · rw [if_neg hQ]
      exact .inl ⟨_, rfl, onCurve_coordinates hQ⟩
  · exact .inr ⟨_, recoverPoint_of_not_recovers hex, category_of_recoveryRefusal r s id⟩

/-! ## Section 5: Signing -/

variable {d k : Int}

/-- The nonce point of `k` fits the scalar that the signer solves for. -/
theorem fits_of_nonce (d z : Int) (hk : ¬(order : Int) ∣ k) :
    Fits z (firstScalar k) (secondScalar d z k) (d • base) (k • base) where
  abscissa := rfl
  equation := by
    have hscalar := mul_scalarQuotient_modEq hk (z + firstScalar k * d)
    rw [secondScalar, ← mul_zsmul', zsmul_congr (order_nsmul base) hscalar, add_zsmul, mul_zsmul]

/-- Keeping the smaller scalar keeps the public point, for the id is adapted. -/
theorem recovers_normalized {σ : Signature} (hfits : Fits z r s Q R) (hrange : InRange r s)
    (hσ : normalized (coordinates R) s = σ) :
    σ.s ≤ order / 2 ∧ ∃ R', Recovers z σ.r σ.s σ.v Q R' := by
  have hodd : (order : Int) % 2 = 1 := by decide
  obtain ⟨hr, hs⟩ := hrange
  unfold normalized at hσ
  dsimp only at hσ
  rw [hfits.abscissa] at hσ
  subst hσ
  by_cases hhigh : (order : Int) / 2 < s
  · rw [if_pos hhigh]
    -- The opposite scalar belongs to the opposite nonce point, which has the other parity.
    have hx := (coordinates_neg (hfits.ne_zero hr.1)).1
    have hflip := odd_opposite (hfits.ne_zero hr.1)
    refine ⟨by dsimp only; omega, -R, ⟨hr, ?_⟩, ?_, hfits.neg hr.1, ?_⟩
    · dsimp only
      omega
    · rw [← hflip, ← hx]
      exact recoveryIdOf_range _
    · rw [← hflip, ← hx]
      rfl
  · rw [if_neg hhigh]
    exact ⟨by dsimp only; omega, R, ⟨hr, hs⟩, recoveryIdOf_range _, hfits, rfl⟩

/-- What the judgement of a nonce accepts. -/
theorem recovers_of_judge {σ : Signature} (h : judge d z k = .ok (.accepted σ)) :
    σ.s ≤ order / 2 ∧ ∃ R, Recovers z σ.r σ.s σ.v (d • base) R := by
  rw [judge_eq] at h
  have hverdict := Except.ok.inj h
  split at hverdict
  · cases hverdict
  rename_i hr
  split at hverdict
  · cases hverdict
  rename_i hs
  have haccepted := Verdict.accepted.inj hverdict
  refine recovers_normalized (fits_of_nonce d z (not_dvd_of_firstScalar hr)) ?_ haccepted
  obtain ⟨hr0, hr1⟩ := firstScalar_range k
  obtain ⟨hs0, hs1⟩ := secondScalar_range d z k
  exact ⟨⟨by omega, hr1⟩, by omega, hs1⟩

/-- A signature, whatever its nonce, leads back to the public point of its signer. -/
theorem recovers_of_sign {source : Source} {σ : Signature}
    (h : (sign source d hash).result = .ok σ) :
    hash.length = 32 ∧ σ.s ≤ order / 2 ∧ ∃ R, Recovers hash.toNat σ.r σ.s σ.v (d • base) R := by
  unfold sign at h
  split at h
  · cases h
  · rename_i hlength
    obtain ⟨k, _, hjudge⟩ := Source.search_eq_ok h
    exact ⟨not_not.mp hlength, recovers_of_judge hjudge⟩

/-! ## Section 6: Recovered codes -/

theorem recoverCode_of_recovers (form : Form) (hlength : hash.length = 32) (hQ : Q ≠ 0)
    (h : Recovers hash.toNat r s id Q R) :
    recoverCode form hash r s id = encode form (coordinates Q) := by
  rw [recoverCode, if_neg (not_not_intro hlength)]
  dsimp only
  rw [recoverPoint_of_recovers h, if_neg hQ, ok_bind]

/-- Recovery of a code reports a bad value if it does not return a code of a point
    of the curve. -/
theorem recoverCode_cases (form : Form) (hash : Octets) (r s id : Int) :
    (∃ code key, recoverCode form hash r s id = .ok code ∧ decode code = .ok key) ∨
      ∃ fault, recoverCode form hash r s id = .error fault ∧ fault.category = .value := by
  unfold recoverCode
  by_cases hlength : hash.length ≠ 32
  · rw [if_pos hlength]
    exact .inr ⟨.hashLength, rfl, rfl⟩
  rw [if_neg hlength]
  dsimp only
  rcases recoverPoint_cases hash r s id with ⟨q, hok, hq⟩ | ⟨fault, herr, hfault⟩
  · obtain ⟨code, hcode⟩ := exists_encode form hq
    rw [hok, ok_bind]
    exact .inl ⟨code, q, hcode, decode_of_encode hq hcode⟩
  · rw [herr, error_bind]
    exact .inr ⟨fault, rfl, hfault⟩

/-- Recovery with the id `id` returns a code of the point `key`. -/
def RecoversTo (form : Form) (hash : Octets) (r s : Int) (key : Affine) (id : Int) : Prop :=
  (0 ≤ id ∧ id ≤ 3) ∧ ∃ code, recoverCode form hash r s id = .ok code ∧ decode code = .ok key

theorem recoversTo_iff {form : Form} (hlength : hash.length = 32) (hQ : Q ≠ 0) :
    RecoversTo form hash r s (coordinates Q) id ↔ ∃ R, Recovers hash.toNat r s id Q R := by
  constructor
  · intro h
    obtain ⟨_, code, hrecover, hdecode⟩ := h
    rw [recoverCode, if_neg (not_not_intro hlength)] at hrecover
    dsimp only at hrecover
    obtain ⟨q, hpoint, hcode⟩ := bind_eq_ok_iff.mp hrecover
    obtain ⟨Q', R, ⟨hQ', rfl⟩, hrec⟩ := recoverPoint_eq_ok_iff.mp hpoint
    rw [decode_of_encode (onCurve_coordinates hQ') hcode, Except.ok.injEq] at hdecode
    obtain rfl := coordinates_injective hdecode
    exact ⟨R, hrec⟩
  · intro h
    obtain ⟨R, hrec⟩ := h
    obtain ⟨code, hcode⟩ := exists_encode form (onCurve_coordinates hQ)
    refine ⟨hrec.idRange, code, ?_, decode_of_encode (onCurve_coordinates hQ) hcode⟩
    rw [recoverCode_of_recovers form hlength hQ hrec, hcode]

/-- A signature is accepted under a code exactly if some id leads back to its point. -/
theorem verify_iff_exists_recoversTo (form : Form) (hlength : hash.length = 32) {key : Affine}
    (hcode : decode code = .ok key) :
    verify hash r s code = .ok true ↔ ∃ id, RecoversTo form hash r s key id := by
  obtain ⟨hkey, _⟩ := encode_of_decode hcode
  obtain ⟨Q, hQ, rfl⟩ := exists_coordinates hkey
  simp only [recoversTo_iff hlength hQ]
  rw [verify_eq_true_iff hcode]
  constructor
  · intro h
    obtain ⟨_, hrange, R, hfits⟩ := h
    exact ⟨recoveryIdOf (coordinates R), R, hrange, recoveryIdOf_range _, hfits, rfl⟩
  · intro h
    obtain ⟨id, R, hrec⟩ := h
    exact ⟨hlength, hrec.scalars, R, hrec.fits⟩

/-- No two ids lead to one point. -/
theorem RecoversTo.id_unique {form : Form} (hlength : hash.length = 32) {key : Affine}
    {id' : Int} (h : RecoversTo form hash r s key id) (h' : RecoversTo form hash r s key id') :
    id = id' := by
  have ⟨_, code, _, hcode⟩ := h
  obtain ⟨Q, hQ, rfl⟩ := exists_coordinates (encode_of_decode hcode).1
  obtain ⟨R, hrec⟩ := (recoversTo_iff hlength hQ).mp h
  obtain ⟨R', hrec'⟩ := (recoversTo_iff hlength hQ).mp h'
  rw [← hrec.id_eq, ← hrec'.id_eq, hrec.fits.nonce_unique hrec.scalars.2 hrec'.fits]

/-! ## Section 7: Public codes -/

/-- Secrets are the scalars in `[1, order)` on 32 octets. -/
theorem scalarOfOctets_eq_ok_iff {secret : Octets} :
    scalarOfOctets secret = .ok d ↔
      secret.length = 32 ∧ (0 < d ∧ d < order) ∧ d = secret.toNat := by
  unfold scalarOfOctets
  constructor
  · intro h
    split at h
    · cases h
    rename_i hlength
    split at h
    · cases h
    · cases h
      exact ⟨not_not.mp hlength, by omega, rfl⟩
  · rintro ⟨hlength, hrange, rfl⟩
    rw [if_neg (not_not_intro hlength), if_neg (by omega)]

theorem publicCode_eq (form : Form) (d : Int) :
    publicCode form d = encode form (coordinates (d • base)) := by
  rw [publicCode, ← coordinates_base, multiple_coordinates, ok_bind]

theorem zsmul_base_ne_zero (hd : d % order ≠ 0) : d • base ≠ 0 :=
  zsmul_ne_zero_of_emod order_nsmul_base base_ne_zero hd

/-- The public code of a scalar that the order does not divide is read as the public
    point. -/
theorem exists_publicCode (form : Form) (hd : d % order ≠ 0) :
    ∃ code, publicCode form d = .ok code ∧ decode code = .ok (coordinates (d • base)) := by
  have hcurve := onCurve_coordinates (zsmul_base_ne_zero hd)
  obtain ⟨code, hcode⟩ := exists_encode form hcurve
  exact ⟨code, by rw [publicCode_eq, hcode], decode_of_encode hcurve hcode⟩

/-! ## Section 8: Soundness -/

/-- The overflow bit is set only if the field has room for it. -/
theorem Recovers.lt_fieldPrime (h : Recovers z r s id Q R) (hbit : 2 ≤ id) :
    r + order < fieldPrime := by
  have hR := onCurve_coordinates (h.fits.ne_zero h.scalars.1.1)
  obtain ⟨⟨_, hx⟩, _⟩ := (recoveryIdOf_eq_iff hR h.scalars.1.1 h.idRange).mp
    ⟨h.fits.abscissa, h.id_eq⟩
  rw [if_pos hbit] at hx
  rw [← hx]
  exact hR.1.2

/-- A signature made with nonces of any source is in range, it is accepted under
    both codes of the signer's public point, and its recovery id leads to both. -/
theorem sign_sound (source : Source) {d : Int} (hd : d % order ≠ 0) (hash : Octets)
    {σ : Signature} (h : (sign source d hash).result = .ok σ) :
    (0 < σ.r ∧ σ.r < order) ∧ (0 < σ.s ∧ σ.s ≤ order / 2) ∧ (0 ≤ σ.v ∧ σ.v ≤ 3) ∧
      (2 ≤ σ.v → σ.r + order < fieldPrime) ∧
      ∀ form, ∃ code, publicCode form d = .ok code ∧ verify hash σ.r σ.s code = .ok true ∧
        recoverCode form hash σ.r σ.s σ.v = .ok code := by
  obtain ⟨hlength, hlow, R, hrec⟩ := recovers_of_sign h
  have hQ := zsmul_base_ne_zero hd
  have hcurve := onCurve_coordinates hQ
  refine ⟨hrec.scalars.1, ⟨hrec.scalars.2.1, hlow⟩, hrec.idRange, hrec.lt_fieldPrime, ?_⟩
  intro form
  obtain ⟨code, hcode⟩ := exists_encode form hcurve
  refine ⟨code, ?_, ?_, ?_⟩
  · rw [publicCode_eq, hcode]
  · rw [verify_eq_true_iff (decode_of_encode hcurve hcode)]
    exact ⟨hlength, hrec.scalars, R, hrec.fits⟩
  · rw [recoverCode_of_recovers form hlength hQ hrec, hcode]

/-- Two nonces of the neutral element are passed over, and the third one leads to a
    scalar that is replaced by its opposite. -/
theorem sign_sound_third_nonce :
    let hash : Octets := List.replicate 32 1
    let σ : Signature :=
      ⟨0x79be667ef9dcbbac55a06295ce870b07029bfcdb2dce28d959f2815b16f81798,
        0x5fb6ff79e04ea95cab20ebec07a2362496ad357985748ac64116c8acd16af275, 1⟩;
    (-5 : Int) % order ≠ 0 ∧ (sign (Source.ofList [0, -order, 1]) (-5) hash).result = .ok σ ∧
      ∀ form, ∃ code, publicCode form (-5) = .ok code ∧ verify hash σ.r σ.s code = .ok true ∧
        recoverCode form hash σ.r σ.s σ.v = .ok code := by
  intro hash σ
  have hd : (-5 : Int) % order ≠ 0 := by decide
  have hsign : (sign (Source.ofList [0, -order, 1]) (-5) hash).result = .ok σ := by
    decide +kernel
  obtain ⟨_, _, _, _, hcodes⟩ := sign_sound _ hd hash hsign
  exact ⟨hd, hsign, hcodes⟩

end WalletKeys.Secp256k1
