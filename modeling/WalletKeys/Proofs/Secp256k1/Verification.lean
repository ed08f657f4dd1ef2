import WalletKeys.Proofs.Secp256k1.Ecdsa

/-! # Verification decides the relation of the signature scheme

    For any octets and any integers verification comes to an answer, and the answer
    is yes exactly where the textbook relation holds: the scalars are in range, the
    octets are a canonical code of a point `Q` of the curve, and the quotient of
    `z * base + r * Q` by `s` is a point whose abscissa is congruent to `r`.

    That no octets lead to a fault rests on the curve: once a point has been read,
    every sum on the way is one of points of the curve, and those are never refused.
-/

namespace WalletKeys.Secp256k1

open WalletKeys.Geometry

variable {hash code : Octets} {r s : Int}

/-- Verification never fails. -/
theorem exists_verify (hash : Octets) (r s : Int) (code : Octets) :
    ∃ answer, verify hash r s code = .ok answer := by
  by_cases hchecked : hash.length = 32 ∧ InRange r s
  · obtain ⟨hlength, hrange⟩ := hchecked
    cases hcode : decode code with
    | error fault =>
      refine ⟨false, ?_⟩
      rw [verify, if_neg (not_or.mpr ⟨not_not_intro hlength, not_not_intro hrange⟩), hcode]
    | ok q =>
      -- What is read stands for an element, and from there on elements are added.
      obtain ⟨Q, _, rfl⟩ := exists_coordinates (encode_of_decode hcode).1
      exact ⟨_, verify_of_checked hlength hrange hcode⟩
  · exact ⟨false, verify_of_not_checked hchecked⟩

/-- Nothing is accepted under octets that are not read as a point. -/
theorem exists_decode_of_verify (h : verify hash r s code = .ok true) :
    ∃ Q : Element, decode code = .ok (coordinates Q) := by
  cases hcode : decode code with
  | error fault =>
    rw [verify, hcode] at h
    split at h <;> cases h
  | ok q =>
    obtain ⟨Q, _, rfl⟩ := exists_coordinates (encode_of_decode hcode).1
    exact ⟨Q, rfl⟩

/-- Verification comes to an answer on all octets and integers, and accepts exactly a
    hash of 32 octets, with scalars in `[1, order)` and a canonical code of a point `Q`
    of the curve, for which the quotient of `hash * base + r * Q` by `s` is a point with
    an abscissa congruent to `r` modulo the order. -/
theorem verify_decides_relation (hash : Octets) (r s : Int) (code : Octets) :
    ∃ answer, verify hash r s code = .ok answer ∧ (answer = true ↔
      hash.length = 32 ∧ (0 < r ∧ r < order) ∧ (0 < s ∧ s < order) ∧
        ∃ Q : Element, (OnCurve (coordinates Q) ∧ ∃ form, IsCode (coordinates Q) form code) ∧
          let R := quotient order s ((hash.toNat : Int) • base + r • Q)
          R ≠ 0 ∧ (coordinates R).x ≡ r [ZMOD order]) := by
  obtain ⟨answer, h⟩ := exists_verify hash r s code
  refine ⟨answer, h, ?_⟩
  simp only [← decode_eq_ok_iff_isCode]
  constructor
  · rintro rfl
    -- The code that was accepted names a point, and a nonce point fits it. That is the
    -- quotient, and its reduced abscissa is `r`, which is below the order.
    obtain ⟨Q, hcode⟩ := exists_decode_of_verify h
    obtain ⟨hlength, hrange, R, hR⟩ := (verify_eq_true_iff hcode).mp h
    have hne := hR.ne_zero hrange.1.1
    obtain ⟨habscissa, rfl⟩ := (fits_iff hrange.2).mp hR
    refine ⟨hlength, hrange.1, hrange.2, Q, hcode, hne, ?_⟩
    rw [Int.ModEq, habscissa, Int.emod_eq_of_lt hrange.1.1.le hrange.1.2]
  · intro hrelation
    obtain ⟨hlength, hr, hs, Q, hcode, _, habscissa⟩ := hrelation
    rw [Int.ModEq, Int.emod_eq_of_lt hr.1.le hr.2] at habscissa
    have htrue := (verify_eq_true_iff hcode).mpr
      ⟨hlength, ⟨hr, hs⟩, _, (fits_iff hs).mpr ⟨habscissa, rfl⟩⟩
    exact Except.ok.inj (h.symm.trans htrue)

end WalletKeys.Secp256k1
