import WalletKeys.Proofs.Stark.Ecdsa

/-! # Verification decides the relation between keys and signatures

    A key is an abscissa, and `IsSignature` says without any choice of an ordinate
    what a signature by it is: for some point `Q` above the key, the quotient of
    `hash * base + r * Q` by `s` is a point with the abscissa `r`.

    Verification works with one ordinate that it finds itself. It decides the relation
    from whichever of the two it gets, because the second candidate is the first one
    for the opposite of its point, and there are no other points above the key.
-/

namespace WalletKeys.Stark

open WalletKeys.Geometry WalletKeys.Modular

/-! ## Section 1: The relation -/

/-- The scalars `r` and `s` are a signature over `hash` by a point with the abscissa
    `key`. -/
structure IsSignature (key hash r s : Int) : Prop where
  hashRange : 0 ≤ hash ∧ hash < 2 ^ 251
  firstRange : 1 ≤ r ∧ r < 2 ^ 251
  secondRange : 1 ≤ s ∧ s < order
  keyRange : 0 ≤ key ∧ key < fieldPrime
  /-- The abscissa `r` is compared as it is, and the neutral element has none. -/
  equation : ∃ (Q : Element) (q : Affine), coordinates? Q = some q ∧ q.x = key ∧
    ∃ nonce, coordinates? (quotient order s (hash • base + r • Q)) = some nonce ∧ nonce.x = r

/-- A way to find ordinates: one is found at each abscissa that has any, and none
    elsewhere. -/
def FindsOrdinates (ordinate : Int → Option Int) : Prop :=
  ∀ x, (∃ y, ordinate x = some y ∧ OnCurve ⟨x, y⟩) ∨ ordinate x = none ∧ ∀ y, ¬OnCurve ⟨x, y⟩

/-- The other of two ordinates may be found as well. -/
theorem FindsOrdinates.neg {ordinate : Int → Option Int} (h : FindsOrdinates ordinate) :
    FindsOrdinates fun x => (ordinate x).map fun y => -y % fieldPrime := by
  intro x
  rcases h x with ⟨y, hy, hcurve⟩ | ⟨hnone, hempty⟩
  · obtain ⟨Q, hQ⟩ := onCurve_iff.mp hcurve
    refine .inl ⟨-y % fieldPrime, ?_, onCurve_iff.mpr ⟨-Q, coordinates?_neg hQ⟩⟩
    simp only [hy, Option.map_some]
  · refine .inr ⟨?_, hempty⟩
    simp only [hnone, Option.map_none]

/-! ## Section 2: The decision -/

variable {key hash r s : Int} {Q : Element} {ordinate : Int → Option Int}

/-- The points above a key are a point and its opposite. -/
theorem exists_above_iff {y : Int} (hQ : coordinates? Q = some ⟨key, y⟩) (P : Element → Prop) :
    (P Q ∨ P (-Q)) ↔ ∃ Q' q, coordinates? Q' = some q ∧ q.x = key ∧ P Q' := by
  constructor
  · intro h
    rcases h with h | h
    · exact ⟨Q, _, hQ, rfl, h⟩
    · exact ⟨-Q, _, coordinates?_neg hQ, rfl, h⟩
  · intro hall
    obtain ⟨Q', q, hQ', hx, h⟩ := hall
    rcases eq_or_eq_neg_of_coordinates hQ' hQ hx with rfl | rfl
    · exact .inl h
    · exact .inr h

/-- Where no ordinate is found, nothing is accepted. -/
theorem verifyBy_of_none (h : ordinate key = none) : verifyBy ordinate key hash r s = false := by
  rw [verifyBy, h]
  split
  · rfl
  · split <;> rfl

/-- Verification decides the relation, with ordinates found in any way. -/
theorem verifyBy_iff_isSignature (hordinate : FindsOrdinates ordinate) :
    verifyBy ordinate key hash r s = true ↔ IsSignature key hash r s := by
  have hbound : (bound : Int) = 2 ^ 251 := by decide
  rcases hordinate key with ⟨y, hy, hcurve⟩ | ⟨hnone, hempty⟩
  · obtain ⟨Q, hQ⟩ := onCurve_iff.mp hcurve
    -- The two candidates stand for all points above the key.
    rw [verifyBy_iff hy hQ, exists_above_iff hQ fun Q => ∃ R, Fits hash r s Q R, Usable, hbound]
    constructor
    · rintro ⟨hhash, ⟨hr, hs⟩, Q', q, hQ', hx, hfits⟩
      refine ⟨hhash, hr, hs, hcurve.1, Q', q, hQ', hx, ?_⟩
      exact hasAbscissa_iff.mp ((exists_fits_iff hs).mp hfits)
    · rintro ⟨hhash, hr, hs, _, Q', q, hQ', hx, hnonce⟩
      refine ⟨hhash, ⟨hr, hs⟩, Q', q, hQ', hx, ?_⟩
      exact (exists_fits_iff hs).mpr (hasAbscissa_iff.mpr hnonce)
  · rw [verifyBy_of_none hnone]
    refine iff_of_false Bool.false_ne_true fun h => ?_
    obtain ⟨Q, q, hQ, rfl, _⟩ := h.equation
    exact hempty q.y (onCurve_iff.mpr ⟨Q, hQ⟩)

/-- Verification accepts exactly the signatures by one of the points above the key. The
    search for an ordinate finds one whenever there is one, and no other way to find
    ordinates would change an answer. -/
theorem verify_decides_signatures :
    FindsOrdinates ordinate? ∧
      (∀ key hash r s, verify key hash r s = true ↔ IsSignature key hash r s) ∧
      ∀ ordinate, FindsOrdinates ordinate → ∀ key hash r s,
        verifyBy ordinate key hash r s = verify key hash r s := by
  have hverify (key hash r s : Int) : verify key hash r s = true ↔ IsSignature key hash r s :=
    verifyBy_iff_isSignature ordinate?_cases
  refine ⟨ordinate?_cases, hverify, ?_⟩
  intro ordinate hordinate key hash r s
  rw [Bool.eq_iff_iff, verifyBy_iff_isSignature hordinate, hverify]

/-- A signature with the smallest first scalar, by a key above which the search finds the
    ordinate that the signer's point does not have. With the other ordinate it is
    accepted as well. -/
theorem verify_decides_signatures_wrong_root :
    let key : Int := 0x3bdf6cb708a688a75f4b868e09b079f10b71b61c2fa0fd32349928c95c93f95
    let s : Int := 0x555555555555560aaaaaaaaaaaaaaaa7a560c4931efcc216999c1811e843375
    let opposite : Int → Option Int := fun x => (ordinate? x).map fun y => -y % fieldPrime;
    FindsOrdinates opposite ∧ verify key 2 1 s = true ∧ IsSignature key 2 1 s ∧
      verifyBy opposite key 2 1 s = true := by
  intro key s opposite
  obtain ⟨hfinds, hverify, hsame⟩ := verify_decides_signatures
  have haccepted : verify key 2 1 s = true := by decide +kernel
  refine ⟨hfinds.neg, haccepted, (hverify key 2 1 s).mp haccepted, ?_⟩
  rw [hsame opposite hfinds.neg, haccepted]

end WalletKeys.Stark
