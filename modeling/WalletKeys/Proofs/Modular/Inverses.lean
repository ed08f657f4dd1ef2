import WalletKeys.Proofs.Modular.Residues

/-! # The two ways to invert

    Euclid's algorithm divides until a remainder is zero and does not know in advance
    when that is. It is put down here as a relation between what the loop starts from and
    what it ends with (`Divisions`). Remainders and coefficients are integers there,
    updated in the same way, and nothing in the relation says that a remainder is not
    negative or that it gets smaller. `inverse` divides natural numbers, and has the
    result that the loop ends with (`inverseCourse_iff`).

    Which result that is can be said without the loop. The inverse is the one reduced
    number whose product with `a` is congruent to one, and there is none exactly if `a`
    and the modulus have a common factor. Modulo a prime the power `x ^ (p - 2)` is such
    a number as well, so both ways to invert agree.
-/

namespace WalletKeys.Modular

/-! ## Section 1: The loop of divisions -/

/-- Divisions from the remainders `r` and `s` on until the second one is zero. The
    coefficients `t` and `u` go through the same differences. -/
inductive Divisions : (r s t u : Int) → (gcd factor : Int) → Prop where
  | done {r t u : Int} : Divisions r 0 t u r t
  | divide {r s t u gcd factor : Int} (ne : s ≠ 0)
      (rest : Divisions s (r - r.fdiv s * s) u (t - r.fdiv s * u) gcd factor) :
      Divisions r s t u gcd factor

/-- The whole computation of an inverse of `a` modulo `n`, with its result. -/
inductive InverseCourse (a n : Int) : (result : Except CurveFault Int) → Prop where
  | found {factor : Int} (divisions : Divisions n (a.fmod n) 0 1 1 factor) :
      InverseCourse a n (.ok (factor.fmod n))
  | refused {gcd factor : Int} (divisions : Divisions n (a.fmod n) 0 1 gcd factor)
      (ne : gcd ≠ 1) : InverseCourse a n (.error .noInverse)

theorem Divisions.unique {r s t u gcd gcd' factor factor' : Int}
    (h : Divisions r s t u gcd factor) (h' : Divisions r s t u gcd' factor') :
    gcd = gcd' ∧ factor = factor' := by
  induction h with
  | done =>
    cases h' with
    | done => exact ⟨rfl, rfl⟩
    | divide hne => exact absurd rfl hne
  | divide hne _ ih =>
    cases h' with
    | done => exact absurd rfl hne
    | divide _ hrest => exact ih hrest

theorem InverseCourse.unique {a n : Int} {result result' : Except CurveFault Int}
    (h : InverseCourse a n result) (h' : InverseCourse a n result') : result = result' := by
  cases h with
  | found hdivisions =>
    cases h' with
    | found hdivisions' => rw [(hdivisions.unique hdivisions').2]
    | refused hdivisions' hne => exact absurd (hdivisions.unique hdivisions').1.symm hne
  | refused hdivisions hne =>
    cases h' with
    | found hdivisions' => exact absurd (hdivisions.unique hdivisions').1 hne
    | refused => rfl

/-- From natural numbers the loop ends, with what the division of natural numbers ends
    with. -/
theorem divisions_bezout (r s : Nat) (t u : Int) :
    Divisions r s t u (bezout r s t u).1 (bezout r s t u).2 := by
  induction r, s, t, u using bezout.induct with
  | case1 r t u =>
    rw [bezout]
    exact .done
  | case2 r s t u hs ih =>
    rw [bezout, dif_neg hs]
    refine .divide (by exact_mod_cast hs) ?_
    -- The difference that the loop takes is the remainder of the natural numbers.
    rw [Int.fdiv_eq_ediv_of_nonneg _ (Int.natCast_nonneg s), ← Int.natCast_div,
      ← natCast_mod_eq_sub]
    exact ih

/-- For a positive modulus the loop ends, and the inverse is its result. -/
theorem inverseCourse_inverse {n : Int} (hn : 0 < n) (a : Int) :
    InverseCourse a n (inverse a n) := by
  -- The loop reduces by floors, which for a positive modulus is how `inverse` reduces.
  have hdivisions := divisions_bezout n.toNat (a % n).toNat 0 1
  rw [Int.toNat_of_nonneg hn.le, Int.toNat_of_nonneg (Int.emod_nonneg a hn.ne'),
    ← Int.fmod_eq_emod_of_nonneg a hn.le] at hdivisions
  rw [inverse, if_neg hn.ne', if_neg hn.not_gt, ← Int.fmod_eq_emod_of_nonneg a hn.le]
  dsimp only
  by_cases hgcd : (bezout n.toNat (a.fmod n).toNat 0 1).1 = 1
  · rw [if_pos hgcd, ← Int.fmod_eq_emod_of_nonneg _ hn.le]
    rw [hgcd] at hdivisions
    exact .found hdivisions
  · rw [if_neg hgcd]
    exact .refused hdivisions (by exact_mod_cast hgcd)

theorem inverseCourse_iff {n : Int} (hn : 0 < n) {a : Int} {result : Except CurveFault Int} :
    InverseCourse a n result ↔ result = inverse a n := by
  constructor
  · intro h
    exact h.unique (inverseCourse_inverse hn a)
  · rintro rfl
    exact inverseCourse_inverse hn a

/-! ## Section 2: The result for a positive modulus -/

section Positive

variable {a n : Int}

/-- A number with an inverse has no factor in common with the modulus. -/
theorem gcd_eq_one_of_mul_modEq {t : Int} (h : a * t ≡ 1 [ZMOD n]) : Int.gcd a n = 1 := by
  obtain ⟨k, hk⟩ := Int.modEq_iff_dvd.mp h
  rw [← Int.isCoprime_iff_gcd_eq_one]
  exact ⟨t, k, by linarith [mul_comm a t, mul_comm n k]⟩

/-- A common factor is noticed. -/
theorem inverse_of_not_coprime (hn : 0 < n) (hgcd : Int.gcd a n ≠ 1) :
    inverse a n = .error .noInverse := by
  rw [inverse, if_neg hn.ne', if_neg hn.not_gt]
  dsimp only
  rw [bezout_fst_eq_gcd hn, if_neg hgcd]

/-- The result is the one reduced number that is an inverse. -/
theorem inverse_eq_ok_iff (hn : 0 < n) {t : Int} :
    inverse a n = .ok t ↔ (0 ≤ t ∧ t < n) ∧ a * t ≡ 1 [ZMOD n] := by
  by_cases hgcd : Int.gcd a n = 1
  · obtain ⟨t', hok, hrange, hmul⟩ := inverse_of_coprime hn hgcd
    rw [hok, Except.ok.injEq]
    constructor
    · rintro rfl
      exact ⟨hrange, hmul⟩
    · rintro ⟨ht, h⟩
      -- The number has no factor in common with the modulus, so it cancels from both products.
      have hcancel := (hmul.trans h.symm).cancel_left_div_gcd hn
      rw [Int.gcd_comm, hgcd, Nat.cast_one, Int.ediv_one] at hcancel
      exact eq_of_modEq_of_range hcancel hrange ht
  · rw [inverse_of_not_coprime hn hgcd]
    exact iff_of_false (by simp) fun h => hgcd (gcd_eq_one_of_mul_modEq h.2)

/-- There is no other fault than the missing inverse. -/
theorem inverse_eq_error_iff (hn : 0 < n) {fault : CurveFault} :
    inverse a n = .error fault ↔ fault = .noInverse ∧ Int.gcd a n ≠ 1 := by
  by_cases hgcd : Int.gcd a n = 1
  · obtain ⟨t, hok, _⟩ := inverse_of_coprime hn hgcd
    rw [hok]
    exact iff_of_false (by simp) fun h => h.2 hgcd
  · rw [inverse_of_not_coprime hn hgcd, Except.error.injEq, eq_comm, and_iff_left hgcd]

end Positive

/-! ## Section 3: The power modulo a prime -/

/-- What is computed by squaring is the power. -/
theorem power_eq_pow_emod (base : Int) (e : Nat) {m : Nat} (hm : 0 < m) :
    power base e m = base ^ e % m := by
  apply (emod_eq_of_cast (power_range base e (Int.natCast_pos.mpr hm)) _).symm
  rw [power_cast, Int.cast_pow]

section Prime

variable {p : Nat} [hp : Fact p.Prime]

/-- The power with any exponent and modulus is the one with exponent `p - 2` here. -/
theorem signedPower_eq_fermat (x : Int) : signedPower x (p - 2) p = .ok (fermat x p) := by
  have htwo := hp.out.two_le
  have hexponent : ((p : Int) - 2).toNat = p - 2 := by omega
  obtain ⟨hnonneg, hlt⟩ := power_range x (p - 2) (Int.natCast_pos.mpr hp.out.pos)
  rw [signedPower, if_neg (by omega), Int.natAbs_natCast, if_neg (by omega), if_pos (by omega),
    hexponent, Int.fmod_eq_emod_of_nonneg _ (Int.natCast_nonneg p), Int.emod_eq_of_lt hnonneg hlt,
    fermat]

/-- The power is what the algorithm finds. -/
theorem inverse_eq_fermat {x : Int} (hx : ¬(p : Int) ∣ x) : inverse x p = .ok (fermat x p) := by
  have hpos : (0 : Int) < p := Int.natCast_pos.mpr hp.out.pos
  exact (inverse_eq_ok_iff hpos).mpr ⟨power_range x (p - 2) hpos, fermat_of_not_dvd hx⟩

end Prime

/-! ## Section 4: Both ways -/

/-- For every positive modulus the loop of divisions ends with one result, which is that of
    `inverse`: the reduced inverse of a number without a common factor with the modulus, and
    a fault about the value for all other numbers. Modulo a prime the power with exponent
    `m - 2` is the same number, for all that the prime does not divide. -/
theorem inverses_found_both_ways :
    (∀ a n : Int, 1 ≤ n →
      (∀ result, InverseCourse a n result ↔ result = inverse a n) ∧
      (Int.gcd a n = 1 →
        ∃ t, inverse a n = .ok t ∧ (0 ≤ t ∧ t < n) ∧ a * t ≡ 1 [ZMOD n]) ∧
      ∀ fault, inverse a n = .error fault ↔ fault = .noInverse ∧ Int.gcd a n ≠ 1) ∧
    CurveFault.noInverse.category = .value ∧
    ∀ m : Nat, m.Prime → ∀ x : Int, ¬(m : Int) ∣ x →
      signedPower x (m - 2) m = .ok (fermat x m) ∧ fermat x m = x ^ (m - 2) % m ∧
        inverse x m = .ok (fermat x m) := by
  refine ⟨?_, rfl, ?_⟩
  · intro a n hn
    have hpos : 0 < n := by omega
    exact ⟨fun _ => inverseCourse_iff hpos, inverse_of_coprime hpos,
      fun _ => inverse_eq_error_iff hpos⟩
  · intro m hm x hx
    have : Fact m.Prime := ⟨hm⟩
    exact ⟨signedPower_eq_fermat x, power_eq_pow_emod x (m - 2) hm.pos, inverse_eq_fermat hx⟩

/-- A negative number with an inverse and one without, modulo a composite number, the modulus
    one, where zero is an inverse, and a negative number modulo a prime. -/
theorem inverses_found_both_ways_negative :
    (∃ t, inverse (-7) 9 = .ok t ∧ (0 ≤ t ∧ t < 9) ∧ -7 * t ≡ 1 [ZMOD 9]) ∧
      InverseCourse (-6) 9 (.error .noInverse) ∧
      (∃ t, inverse 5 1 = .ok t ∧ 0 ≤ t ∧ t < 1) ∧
      inverse (-10) 7 = .ok 2 ∧ fermat (-10) 7 = 2 := by
  obtain ⟨hinverse, _, hpower⟩ := inverses_found_both_ways
  obtain ⟨_, hfound, _⟩ := hinverse (-7) 9 (by decide)
  obtain ⟨hends, _, hrefused⟩ := hinverse (-6) 9 (by decide)
  obtain ⟨_, htrivial, _⟩ := hinverse 5 1 (by decide)
  obtain ⟨t, ht, hrange, _⟩ := htrivial (by decide)
  obtain ⟨_, hpow, hsame⟩ := hpower 7 (by decide) (-10) (by decide)
  have htwo : fermat (-10) 7 = 2 := by rw [hpow]; decide
  rw [Nat.cast_ofNat, htwo] at hsame
  exact ⟨hfound (by decide), (hends _).mpr ((hrefused _).mpr ⟨rfl, by decide⟩).symm,
    ⟨t, ht, hrange⟩, hsame, htwo⟩

end WalletKeys.Modular
