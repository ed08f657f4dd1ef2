import WalletKeys.Proofs.Stark.Attempt

/-! # Signing and verification on the STARK curve

    Signer and verifier share the relation `Fits`: the nonce point `R` has the
    abscissa `r`, and `s * R = z * base + r * Q` for the public point `Q`. The
    verifier is given the abscissa of `Q` only. Above it lie `Q` and its opposite,
    and since both are tried, it makes no difference from which of the two the
    verifier starts (`verifyBy_iff`).

    The range of the scalars is 251 bits although the order has 252. A scalar in
    that range is below the order, so it can be inverted.
-/

namespace WalletKeys.Stark

open WalletKeys.Geometry WalletKeys.Modular WalletKeys.Nonce

/-! ## Section 1: The relation -/

/-- The nonce point `R` fits the scalars `r` and `s` over the number `z` by the
    public point `Q`. -/
structure Fits (z r s : Int) (Q R : Element) : Prop where
  abscissa : hasAbscissa r (coordinates? R) = true
  equation : s • R = z • base + r • Q

variable {z r s : Int} {Q R : Element}

theorem hasAbscissa_iff {p : Point} : hasAbscissa r p = true ↔ ∃ q, p = some q ∧ q.x = r := by
  cases p with
  | none =>
    constructor
    · intro h
      cases h
    · intro h
      obtain ⟨_, hnone, _⟩ := h
      cases hnone
  | some q =>
    rw [hasAbscissa, decide_eq_true_eq]
    constructor
    · intro h
      exact ⟨q, rfl, h⟩
    · intro h
      obtain ⟨_, hq, h⟩ := h
      cases hq
      exact h

/-- A usable scalar is below the order. -/
theorem Usable.lt_order {x : Int} (h : Usable x) : x < order := by
  have hbound : (bound : Int) < order := by decide
  exact h.2.trans hbound

/-- Some nonce point fits exactly if the one that solves the equation has the
    abscissa. -/
theorem exists_fits_iff (hs : 1 ≤ s ∧ s < order) :
    (∃ R, Fits z r s Q R) ↔
      hasAbscissa r (coordinates? (quotient order s (z • base + r • Q))) = true := by
  have hquotient (R : Element) :
      s • R = z • base + r • Q ↔ R = quotient order s (z • base + r • Q) :=
    zsmul_eq_iff_quotient order_nsmul (not_dvd_of_range hs)
  constructor
  · intro h
    obtain ⟨R, habscissa, hequation⟩ := h
    rwa [← (hquotient R).mp hequation]
  · intro h
    exact ⟨_, h, (hquotient _).mpr rfl⟩

/-! ## Section 2: Verification -/

variable {hash key y : Int} {ordinate : Int → Option Int}

/-- Verification finds the nonce point that fits one of the two points above the
    key, whichever of them it knows. -/
theorem verifyBy_iff (hy : ordinate key = some y) (hQ : coordinates? Q = some ⟨key, y⟩) :
    verifyBy ordinate key hash r s = true ↔
      (0 ≤ hash ∧ hash < bound) ∧ (Usable r ∧ 1 ≤ s ∧ s < order) ∧
        ((∃ R, Fits hash r s Q R) ∨ ∃ R, Fits hash r s (-Q) R) := by
  unfold verifyBy
  by_cases hhash : 0 ≤ hash ∧ hash < bound
  · rw [if_neg (not_not_intro hhash)]
    by_cases hscalars : Usable r ∧ 1 ≤ s ∧ s < order
    · rw [if_neg (not_not_intro hscalars), hy]
      dsimp only
      have hndvd : ¬(order : Int) ∣ s := not_dvd_of_range hscalars.2
      have hinv := fermat_of_not_dvd hndvd
      -- The second candidate is the first one for the opposite of the key's point.
      rw [← hQ, ← coordinates_base, multiple_coordinates, multiple_coordinates, neg_coordinates,
        add_coordinates, add_coordinates, Bool.or_eq_true, ← zsmul_neg,
        combination_eq_quotient order_nsmul hndvd hinv,
        combination_eq_quotient order_nsmul hndvd hinv, ← exists_fits_iff hscalars.2,
        ← exists_fits_iff hscalars.2]
      exact ⟨fun h => ⟨hhash, hscalars, h⟩, fun h => h.2.2⟩
    · rw [if_pos hscalars]
      constructor
      · intro h
        cases h
      · intro hall
        obtain ⟨_, h, _⟩ := hall
        exact absurd h hscalars
  · rw [if_pos hhash]
    constructor
    · intro h
      cases h
    · intro hall
      obtain ⟨h, _⟩ := hall
      exact absurd h hhash

/-- A signature that fits a point is accepted under its abscissa, whichever
    ordinate is found above that. -/
theorem verifyBy_of_fits {q : Affine} (hQ : coordinates? Q = some q)
    (hhash : 0 ≤ hash ∧ hash < bound) (hr : Usable r) (hs : Usable s) (h : Fits hash r s Q R)
    (hy : ordinate q.x = some y) (hcurve : OnCurve ⟨q.x, y⟩) :
    verifyBy ordinate q.x hash r s = true := by
  -- The point found by the verifier is the signer's or its opposite.
  obtain ⟨Q', hQ'⟩ := onCurve_iff.mp hcurve
  rw [verifyBy_iff hy hQ']
  refine ⟨hhash, ⟨hr, hs.1, hs.lt_order⟩, ?_⟩
  rcases eq_or_eq_neg_of_coordinates hQ' hQ rfl with rfl | rfl
  · exact .inl ⟨R, h⟩
  · rw [neg_neg]
    exact .inr ⟨R, h⟩

/-! ## Section 3: Signing -/

variable {d k secret : Int} {σ : Signature}

/-- What the judgement of a nonce accepts. -/
theorem fits_of_judge (h : judge d z k = .ok (.accepted σ)) :
    Usable σ.r ∧ Usable σ.s ∧ ∃ R, Fits z σ.r σ.s (d • base) R := by
  obtain ⟨⟨hk, hr, hs⟩, rfl⟩ := accepted_of_judge h
  refine ⟨hr, hs, k • base, ?_, ?_⟩
  · -- The nonce point is not the neutral element, so it has an abscissa.
    obtain ⟨nonce, hnonce⟩ := exists_coordinates?_of_ne_zero
      (mt (zsmul_eq_zero_iff order_nsmul_base base_ne_zero k).mp hk)
    rw [hnonce, hasAbscissa_iff]
    exact ⟨nonce, rfl, by rw [signature, firstScalar, hnonce, Option.elim_some]⟩
  · have hscalar := mul_scalarQuotient_modEq hk (z + firstScalar k * d)
    dsimp only [signature, secondScalar]
    rw [← mul_zsmul', zsmul_congr (order_nsmul base) hscalar, add_zsmul, mul_zsmul]

/-- A signature, whatever its nonce, fits the public point of its signer. -/
theorem fits_of_sign {source : Source} (h : (sign source secret hash).result = .ok σ) :
    (0 ≤ hash ∧ hash < bound) ∧ secret % order ≠ 0 ∧ Usable σ.r ∧ Usable σ.s ∧
      ∃ R, Fits hash σ.r σ.s (secret • base) R := by
  unfold sign at h
  split at h
  · cases h
  rename_i hhash
  dsimp only at h
  split at h
  · cases h
  rename_i hsecret
  obtain ⟨k, _, hjudge⟩ := Source.search_eq_ok h
  -- The secret enters the judgement reduced, which makes no difference to the public point.
  rw [← emod_order_zsmul]
  exact ⟨not_not.mp hhash, hsecret, fits_of_judge hjudge⟩

/-- The key of a secret that the order does not divide is the abscissa of its
    public point. -/
theorem exists_publicAbscissa (h : secret % order ≠ 0) :
    ∃ q, coordinates? (secret • base) = some q ∧ publicAbscissa secret = .ok q.x := by
  obtain ⟨q, hq⟩ :=
    exists_coordinates?_of_ne_zero (zsmul_ne_zero_of_emod order_nsmul_base base_ne_zero h)
  refine ⟨q, hq, ?_⟩
  rw [publicAbscissa, ← coordinates_base, multiple_coordinates, hq]

/-- A key is the abscissa of its public point. -/
theorem exists_of_publicAbscissa {x : Int} (h : publicAbscissa secret = .ok x) :
    ∃ q, coordinates? (secret • base) = some q ∧ q.x = x := by
  rw [publicAbscissa, ← coordinates_base, multiple_coordinates] at h
  split at h
  · cases h
  · rename_i q hq
    cases h
    exact ⟨q, hq, rfl⟩

/-- A secret that the order divides has no key. -/
theorem publicAbscissa_of_dvd (h : (order : Int) ∣ secret) :
    publicAbscissa secret = .error .secretMultiple := by
  rw [publicAbscissa, ← coordinates_base, multiple_coordinates,
    (zsmul_eq_zero_iff order_nsmul_base base_ne_zero secret).mpr h, coordinates?_zero]

/-! ## Section 4: Soundness -/

theorem verify_of_fits {q : Affine} (hQ : coordinates? Q = some q)
    (hhash : 0 ≤ hash ∧ hash < bound) (hr : Usable r) (hs : Usable s) (h : Fits hash r s Q R) :
    verify q.x hash r s = true := by
  rcases ordinate?_cases q.x with ⟨y, hy, hcurve⟩ | ⟨_, hnone⟩
  · exact verifyBy_of_fits hQ hhash hr hs h hy hcurve
  · exact absurd (onCurve_iff.mpr ⟨Q, hQ⟩) (hnone q.y)

/-- Secrets with one remainder make the same signatures and have the same key. -/
theorem sign_congr (source : Source) (hash : Int) {secret' : Int}
    (h : secret' % order = secret % order) :
    sign source secret' hash = sign source secret hash ∧
      publicAbscissa secret' = publicAbscissa secret := by
  constructor
  · rw [sign, sign, h]
  · rw [publicAbscissa, publicAbscissa, multiple, multiple, h]

/-- A signature made with nonces of any source has usable scalars, and it is accepted
    under the signer's key, whichever ordinate is found above the key. Of the secret
    only the remainder by the order enters. -/
theorem verifyBy_of_sign (source : Source) {secret hash : Int} {σ : Signature}
    (hsecret : secret % order ≠ 0) (hhash : 0 ≤ hash ∧ hash < bound)
    (h : (sign source secret hash).result = .ok σ) :
    (Usable σ.r ∧ Usable σ.s) ∧
      (∃ key, publicAbscissa secret = .ok key ∧ verify key hash σ.r σ.s = true ∧
        ∀ ordinate y, ordinate key = some y → OnCurve ⟨key, y⟩ →
          verifyBy ordinate key hash σ.r σ.s = true) ∧
      ∀ secret', secret' % order = secret % order →
        sign source secret' hash = sign source secret hash ∧
          publicAbscissa secret' = publicAbscissa secret := by
  obtain ⟨_, _, hr, hs, R, hfits⟩ := fits_of_sign h
  obtain ⟨q, hq, hkey⟩ := exists_publicAbscissa hsecret
  refine ⟨⟨hr, hs⟩, ⟨q.x, hkey, verify_of_fits hq hhash hr hs hfits, ?_⟩, ?_⟩
  · intro ordinate y hy hcurve
    exact verifyBy_of_fits hq hhash hr hs hfits hy hcurve
  · intro secret' hsame
    exact sign_congr source hash hsame

/-- A secret between the order and the field prime, whose first nonce leads to a
    scalar of zero. -/
theorem verifyBy_of_sign_large_secret :
    let secret : Int := order + 5
    let hash : Int := 0x654933864000c98945f5db93cbb4c1815a130d45456e303099210c86d398b6c
    let σ : Signature :=
      ⟨0x759ca09377679ecd535a81e83039658bf40959283187c654c5416f439403cf5,
        0x18ac2b33ca836f1df35d328e5e69dea9e2f6045f6a56b01779aac22934d9d25⟩;
    secret < fieldPrime ∧ secret % order ≠ 0 ∧ (0 ≤ hash ∧ hash < bound) ∧
      (sign (Source.ofList [1, 2]) secret hash).result = .ok σ ∧
      ∃ key, publicAbscissa secret = .ok key ∧ verify key hash σ.r σ.s = true ∧
        ∀ ordinate y, ordinate key = some y → OnCurve ⟨key, y⟩ →
          verifyBy ordinate key hash σ.r σ.s = true := by
  intro secret hash σ
  have hsecret : secret % order ≠ 0 := by decide
  have hhash : 0 ≤ hash ∧ hash < bound := by decide
  have hsign : (sign (Source.ofList [1, 2]) secret hash).result = .ok σ := by decide +kernel
  obtain ⟨_, hkey, _⟩ := verifyBy_of_sign _ hsecret hhash hsign
  exact ⟨by decide, hsecret, hhash, hsign, hkey⟩

end WalletKeys.Stark
