import WalletKeys.Proofs.Nonce.Search
import WalletKeys.Proofs.Stark.Group
import WalletKeys.Stark.Ecdsa

/-! # Attempts to sign on the STARK curve

    A nonce that the order divides leads to the neutral element, which has no abscissa,
    and that is a fault. From any other nonce `k` come two scalars: the abscissa of
    `k * base`, and the quotient of `hash + r * d` by `k`. The judgement that the signer
    runs computes just these (`judge_eq`), and it turns a nonce down if one of them has
    more than 251 bits or is zero.
-/

namespace WalletKeys.Stark

open WalletKeys.Geometry WalletKeys.Modular WalletKeys.Nonce

/-! ## Section 1: The rule -/

/-- The first scalar that a nonce leads to: the abscissa of its point, if there is one. -/
noncomputable def firstScalar (k : Int) : Int := (coordinates? (k • base)).elim 0 Affine.x

/-- The second scalar that a nonce leads to. -/
noncomputable def secondScalar (d hash k : Int) : Int :=
  scalarQuotient order k (hash + firstScalar k * d)

/-- A nonce from which the scalar `d` makes a signature over `hash`. -/
structure Accepted (d hash k : Int) : Prop where
  invertible : ¬(order : Int) ∣ k
  first : Usable (firstScalar k)
  second : Usable (secondScalar d hash k)

/-- A nonce that is turned down for one of its scalars. -/
structure Rejected (d hash k : Int) : Prop where
  invertible : ¬(order : Int) ∣ k
  unusable : Usable (firstScalar k) → ¬Usable (secondScalar d hash k)

/-- The signature that an accepted nonce leads to. -/
noncomputable def signature (d hash k : Int) : Signature := ⟨firstScalar k, secondScalar d hash k⟩

/-- Why a nonce is turned down, if it is: the first scalar is looked at first. -/
noncomputable def rejection (k : Int) : Rejection :=
  if Usable (firstScalar k) then .unusableS else .unusableR

/-! ## Section 2: The judgement -/

variable {d hash k : Int}

/-- The fault comes first, then the first scalar, then the second one. -/
theorem judge_eq (d hash k : Int) :
    judge d hash k =
      if (order : Int) ∣ k then .error .nonceMultiple
      else if ¬Usable (firstScalar k) then .ok (.rejected .unusableR)
      else if ¬Usable (secondScalar d hash k) then .ok (.rejected .unusableS)
      else .ok (.accepted (signature d hash k)) := by
  rw [judge, ← coordinates_base, multiple_coordinates]
  have hzero := zsmul_eq_zero_iff order_nsmul_base base_ne_zero k
  by_cases hk : (order : Int) ∣ k
  · rw [if_pos hk, hzero.mpr hk, coordinates?_zero]
  · -- The nonce point is not the neutral element, and the power is the nonce's inverse.
    obtain ⟨nonce, hnonce⟩ := exists_coordinates?_of_ne_zero (mt hzero.mp hk)
    have hfirst : nonce.x = firstScalar k := by rw [firstScalar, hnonce, Option.elim_some]
    rw [if_neg hk, hnonce]
    dsimp only
    rw [hfirst, mul_comm _ (fermat k order), mul_emod_eq_scalarQuotient (fermat_of_not_dvd hk)]
    rfl

theorem judge_of_dvd (hk : (order : Int) ∣ k) : judge d hash k = .error .nonceMultiple := by
  rw [judge_eq, if_pos hk]

theorem judge_of_accepted (h : Accepted d hash k) :
    judge d hash k = .ok (.accepted (signature d hash k)) := by
  rw [judge_eq, if_neg h.invertible, if_neg (not_not_intro h.first),
    if_neg (not_not_intro h.second)]

theorem judge_of_rejected (h : Rejected d hash k) :
    judge d hash k = .ok (.rejected (rejection k)) := by
  rw [judge_eq, if_neg h.invertible, rejection]
  by_cases hr : Usable (firstScalar k)
  · rw [if_neg (not_not_intro hr), if_pos (h.unusable hr), if_pos hr]
  · rw [if_pos hr, if_neg hr]

/-- Every nonce has one of three fates. -/
theorem nonce_trichotomy (d hash k : Int) :
    (order : Int) ∣ k ∨ Rejected d hash k ∨ Accepted d hash k := by
  by_cases hk : (order : Int) ∣ k
  · exact .inl hk
  by_cases hscalars : Usable (firstScalar k) ∧ Usable (secondScalar d hash k)
  · exact .inr (.inr ⟨hk, hscalars.1, hscalars.2⟩)
  · exact .inr (.inl ⟨hk, not_and.mp hscalars⟩)

theorem Rejected.not_accepted (h : Rejected d hash k) : ¬Accepted d hash k :=
  fun haccepted => h.unusable haccepted.first haccepted.second

/-- A nonce that the order does not divide leads to no fault. -/
theorem exists_judge (d hash : Int) (hk : ¬(order : Int) ∣ k) :
    ∃ verdict, judge d hash k = .ok verdict := by
  rcases nonce_trichotomy d hash k with hdvd | hrejected | haccepted
  · exact absurd hdvd hk
  · exact ⟨_, judge_of_rejected hrejected⟩
  · exact ⟨_, judge_of_accepted haccepted⟩

/-- What is accepted comes from an accepted nonce. -/
theorem accepted_of_judge {σ : Signature} (h : judge d hash k = .ok (.accepted σ)) :
    Accepted d hash k ∧ σ = signature d hash k := by
  rcases nonce_trichotomy d hash k with hdvd | hrejected | haccepted
  · rw [judge_of_dvd hdvd] at h
    cases h
  · rw [judge_of_rejected hrejected] at h
    cases h
  · rw [judge_of_accepted haccepted] at h
    cases h
    exact ⟨haccepted, rfl⟩

/-- Where hash and secret are acceptable, signing is the search. -/
theorem sign_eq_search {secret : Int} (hsecret : secret % order ≠ 0)
    (hhash : 0 ≤ hash ∧ hash < bound) (source : Source) :
    sign source secret hash = source.search (judge (secret % order) hash) := by
  rw [sign, if_neg (not_not_intro hhash)]
  dsimp only
  rw [if_neg hsecret]

end WalletKeys.Stark
