import Mathlib.FieldTheory.Finite.Basic
import WalletKeys.Modular.Inverse

/-! # Inverses and powers as residues

    What the two ways to divide compute, said in the ring of residues: the
    extended Euclidean algorithm returns an inverse whenever there is one, and
    the power `x ^ (p - 2)` is the inverse of `x` modulo a prime `p`.

    The algorithm is followed by one invariant. Each of its two coefficients,
    times the number to be inverted, is congruent to the remainder next to it,
    and a division step keeps that.
-/

namespace WalletKeys.Modular

/-! ## Section 1: The extended Euclidean algorithm -/

/-- The first component is the greatest common divisor. -/
theorem bezout_fst (r s : Nat) (t u : Int) : (bezout r s t u).1 = Nat.gcd r s := by
  induction r, s, t, u using bezout.induct with
  | case1 r t u =>
    rw [bezout]
    simp
  | case2 r s t u hs ih =>
    rw [bezout, dif_neg hs, ih, Nat.gcd_comm r s, Nat.gcd_rec s r, Nat.gcd_comm]

/-- A remainder is the difference that a division step takes. -/
theorem natCast_mod_eq_sub (r s : Nat) : ((r % s : Nat) : Int) = r - (r / s : Nat) * s := by
  rw [Int.natCast_mod, Int.emod_def, Int.natCast_div, mul_comm]

/-- A division keeps the congruence of the coefficients. -/
theorem modEq_of_division {a n t u : Int} {r s : Nat} (ht : t * a ≡ r [ZMOD n])
    (hu : u * a ≡ s [ZMOD n]) : (t - (r / s : Nat) * u) * a ≡ (r % s : Nat) [ZMOD n] := by
  -- The remainder is the same combination of the two numbers as the new coefficient.
  rw [natCast_mod_eq_sub, sub_mul, mul_assoc]
  exact ht.sub (hu.mul_left _)

/-- The second component, times `a`, is congruent to the first, if the
    coefficients start out that way. -/
theorem bezout_snd {a n : Int} (r s : Nat) (t u : Int)
    (ht : t * a ≡ r [ZMOD n]) (hu : u * a ≡ s [ZMOD n]) :
    (bezout r s t u).2 * a ≡ (bezout r s t u).1 [ZMOD n] := by
  induction r, s, t, u using bezout.induct with
  | case1 r t u =>
    rw [bezout]
    simpa using ht
  | case2 r s t u hs ih =>
    rw [bezout, dif_neg hs]
    exact ih hu (modEq_of_division ht hu)

/-- From a positive modulus and the reduced number, it is that of the modulus and the
    number. -/
theorem bezout_fst_eq_gcd {n : Int} (hn : 0 < n) (a : Int) (t u : Int) :
    (bezout n.toNat (a % n).toNat t u).1 = Int.gcd a n := by
  have hr : ((a % n).toNat : Int) = a % n := Int.toNat_of_nonneg (Int.emod_nonneg a hn.ne')
  have hs : (n.toNat : Int) = n := Int.toNat_of_nonneg hn.le
  rw [bezout_fst, Nat.gcd_comm, ← Int.gcd_natCast_natCast, hr, hs, Int.emod_def, sub_eq_add_neg,
    ← mul_neg, Int.gcd_add_mul_left_left]

/-- A number without a common factor with a positive modulus has an inverse,
    and it is found. -/
theorem inverse_of_coprime {a n : Int} (hn : 0 < n) (hgcd : Int.gcd a n = 1) :
    ∃ t, inverse a n = .ok t ∧ (0 ≤ t ∧ t < n) ∧ a * t ≡ 1 [ZMOD n] := by
  have hr : ((a % n).toNat : Int) = a % n := Int.toNat_of_nonneg (Int.emod_nonneg a hn.ne')
  have hs : (n.toNat : Int) = n := Int.toNat_of_nonneg hn.le
  have hfst : (bezout n.toNat (a % n).toNat 0 1).1 = 1 := by rw [bezout_fst_eq_gcd hn, hgcd]
  have hsnd := bezout_snd (a := a) (n := n) n.toNat (a % n).toNat 0 1
    (by rw [zero_mul, hs]; exact (Int.modEq_zero_iff_dvd.mpr dvd_rfl).symm)
    (by rw [one_mul, hr]; exact (Int.mod_modEq a n).symm)
  rw [hfst, Nat.cast_one, mul_comm] at hsnd
  refine ⟨(bezout n.toNat (a % n).toNat 0 1).2 % n, ?_, ⟨Int.emod_nonneg _ hn.ne',
    Int.emod_lt_of_pos _ hn⟩, ((Int.mod_modEq _ n).mul_left a).trans hsnd⟩
  rw [inverse, if_neg hn.ne', if_neg hn.not_gt]
  dsimp only
  rw [if_pos hfst]

/-- A positive number below the modulus is not a multiple of it. -/
theorem not_dvd_of_range {k n : Int} (hk : 0 < k ∧ k < n) : ¬n ∣ k := by
  intro hdvd
  have hle := Int.le_of_dvd hk.1 hdvd
  omega

theorem emod_ne_zero_of_range {k n : Int} (hk : 0 < k ∧ k < n) : k % n ≠ 0 :=
  mt Int.dvd_of_emod_eq_zero (not_dvd_of_range hk)

/-- Congruent numbers below the modulus are equal. -/
theorem eq_of_modEq_of_range {k l n : Int} (h : k ≡ l [ZMOD n]) (hk : 0 ≤ k ∧ k < n)
    (hl : 0 ≤ l ∧ l < n) : k = l := by
  rwa [Int.ModEq, Int.emod_eq_of_lt hk.1 hk.2, Int.emod_eq_of_lt hl.1 hl.2] at h

section Prime

variable {p : Nat} [hp : Fact p.Prime]

/-- A prime modulus has an inverse of every number that it does not divide. -/
theorem inverse_of_not_dvd {a : Int} (ha : ¬(p : Int) ∣ a) :
    ∃ t, inverse a p = .ok t ∧ (0 ≤ t ∧ t < p) ∧ a * t ≡ 1 [ZMOD p] := by
  have hcop : Int.gcd a p = 1 := by
    rw [Int.gcd_comm, Int.gcd_eq_natAbs, Int.natAbs_natCast]
    exact (Nat.Prime.coprime_iff_not_dvd hp.out).mpr (mt Int.natCast_dvd.mpr ha)
  exact inverse_of_coprime (Int.natCast_pos.mpr hp.out.pos) hcop

/-- It is the inverse of the field. -/
theorem inverse_of_ne_zero {a : Int} (ha : (a : ZMod p) ≠ 0) :
    ∃ t, inverse a p = .ok t ∧ (0 ≤ t ∧ t < p) ∧ (t : ZMod p) = (a : ZMod p)⁻¹ := by
  obtain ⟨t, hok, hrange, hmul⟩ :=
    inverse_of_not_dvd (mt (ZMod.intCast_zmod_eq_zero_iff_dvd a p).mpr ha)
  refine ⟨t, hok, hrange, eq_inv_of_mul_eq_one_right ?_⟩
  have hcast := (ZMod.intCast_eq_intCast_iff _ _ p).mpr hmul
  rwa [Int.cast_mul, Int.cast_one] at hcast

end Prime

/-! ## Section 2: Powers -/

/-- A power is reduced. -/
theorem power_range (base : Int) (e : Nat) {m : Int} (hm : 0 < m) :
    0 ≤ power base e m ∧ power base e m < m := by
  induction base, e using power.induct m with
  | case1 base =>
    rw [power]
    exact ⟨Int.emod_nonneg _ hm.ne', Int.emod_lt_of_pos _ hm⟩
  | case2 base e he hodd ih =>
    rw [power, dif_neg he]
    dsimp only
    rw [if_pos hodd]
    exact ⟨Int.emod_nonneg _ hm.ne', Int.emod_lt_of_pos _ hm⟩
  | case3 base e he heven ih =>
    rw [power, dif_neg he]
    dsimp only
    rw [if_neg heven]
    exact ih

/-- A power modulo `m` is the power of the residue. -/
theorem power_cast (m : Nat) (base : Int) (e : Nat) :
    (power base e m : ZMod m) = (base : ZMod m) ^ e := by
  induction base, e using power.induct (m : Int) with
  | case1 base =>
    rw [power]
    simp
  -- The exponent is twice its half plus its last binary digit.
  | case2 base e he hodd ih =>
    have hroot : (power (base * base % m) (e / 2) m : ZMod m) =
        (base : ZMod m) ^ (2 * (e / 2)) := by
      rw [ih, ZMod.intCast_mod, Int.cast_mul, ← pow_two, ← pow_mul]
    rw [power, dif_neg he]
    dsimp only
    rw [if_pos hodd, ZMod.intCast_mod, Int.cast_mul, hroot, ← pow_succ']
    congr 1
    omega
  | case3 base e he heven ih =>
    rw [power, dif_neg he]
    dsimp only
    rw [if_neg heven, ih, ZMod.intCast_mod, Int.cast_mul, ← pow_two, ← pow_mul]
    congr 1
    omega

/-- Modulo a prime, the power with exponent `p - 2` is the inverse of the field. -/
theorem fermat_cast {p : Nat} [hp : Fact p.Prime] {x : Int} (hx : (x : ZMod p) ≠ 0) :
    (fermat x p : ZMod p) = (x : ZMod p)⁻¹ := by
  rw [fermat, power_cast]
  apply eq_inv_of_mul_eq_one_right
  rw [← pow_succ', show p - 2 + 1 = p - 1 by have := hp.out.two_le; omega]
  exact ZMod.pow_card_sub_one_eq_one hx

theorem fermat_of_not_dvd {p : Nat} [Fact p.Prime] {x : Int} (hx : ¬(p : Int) ∣ x) :
    x * fermat x p ≡ 1 [ZMOD p] := by
  have hne : (x : ZMod p) ≠ 0 := mt (ZMod.intCast_zmod_eq_zero_iff_dvd x p).mp hx
  rw [← ZMod.intCast_eq_intCast_iff, Int.cast_mul, fermat_cast hne, mul_inv_cancel₀ hne,
    Int.cast_one]

/-! ## Section 3: Quotients of scalars -/

/-- The number in `[0, n)` with the residue `k⁻¹ * a`. -/
def scalarQuotient (n : Nat) (k a : Int) : Int := ((k : ZMod n)⁻¹ * (a : ZMod n)).val

theorem scalarQuotient_cast (n : Nat) [NeZero n] (k a : Int) :
    (scalarQuotient n k a : ZMod n) = (k : ZMod n)⁻¹ * (a : ZMod n) := by
  rw [scalarQuotient, Int.cast_natCast, ZMod.natCast_zmod_val]

theorem scalarQuotient_range (n : Nat) [NeZero n] (k a : Int) :
    0 ≤ scalarQuotient n k a ∧ scalarQuotient n k a < n :=
  ⟨Int.natCast_nonneg _, Int.ofNat_lt.mpr (ZMod.val_lt _)⟩

/-- Reduced numbers with one residue are equal. -/
theorem emod_eq_of_cast {n : Nat} {x y : Int} (hy : 0 ≤ y ∧ y < n)
    (h : (x : ZMod n) = (y : ZMod n)) : x % n = y := by
  rw [(ZMod.intCast_eq_intCast_iff x y n).mp h, Int.emod_eq_of_lt hy.1 hy.2]

section Prime

variable {p : Nat} [hp : Fact p.Prime] {k a : Int}

/-- Multiplying with an inverse makes the quotient. -/
theorem mul_emod_eq_scalarQuotient {t : Int} (h : k * t ≡ 1 [ZMOD p]) (a : Int) :
    t * a % p = scalarQuotient p k a := by
  apply emod_eq_of_cast (scalarQuotient_range p k a)
  have hinv := (ZMod.intCast_eq_intCast_iff _ _ p).mpr h
  rw [Int.cast_mul, Int.cast_one] at hinv
  rw [scalarQuotient_cast, Int.cast_mul, eq_inv_of_mul_eq_one_right hinv]

/-- The quotient solves the equation that it is named for. -/
theorem mul_scalarQuotient_modEq (hk : ¬(p : Int) ∣ k) (a : Int) :
    k * scalarQuotient p k a ≡ a [ZMOD p] := by
  have hne : (k : ZMod p) ≠ 0 := mt (ZMod.intCast_zmod_eq_zero_iff_dvd k p).mp hk
  rw [← ZMod.intCast_eq_intCast_iff, Int.cast_mul, scalarQuotient_cast, mul_inv_cancel_left₀ hne]

theorem scalarQuotient_eq_zero_iff (hk : ¬(p : Int) ∣ k) :
    scalarQuotient p k a = 0 ↔ (p : Int) ∣ a := by
  have hne : (k : ZMod p) ≠ 0 := mt (ZMod.intCast_zmod_eq_zero_iff_dvd k p).mp hk
  rw [scalarQuotient, Int.natCast_eq_zero, ZMod.val_eq_zero, mul_eq_zero,
    or_iff_right (inv_ne_zero hne), ZMod.intCast_zmod_eq_zero_iff_dvd]

/-- The quotient by the opposite scalar is the opposite. -/
theorem scalarQuotient_sub (k a : Int) :
    scalarQuotient p (p - k) a =
      if scalarQuotient p k a = 0 then 0 else p - scalarQuotient p k a := by
  have hcast : ((p - k : Int) : ZMod p)⁻¹ * (a : ZMod p) = -((k : ZMod p)⁻¹ * (a : ZMod p)) := by
    rw [Int.cast_sub, Int.cast_natCast, ZMod.natCast_self, zero_sub, inv_neg, neg_mul]
  rw [scalarQuotient, scalarQuotient, hcast, ZMod.neg_val]
  have hlt := ZMod.val_lt ((k : ZMod p)⁻¹ * (a : ZMod p))
  by_cases hzero : (k : ZMod p)⁻¹ * (a : ZMod p) = 0
  · rw [if_pos hzero, hzero, ZMod.val_zero, Nat.cast_zero, if_pos rfl]
  · have hne := mt (ZMod.val_eq_zero _).mp hzero
    rw [if_neg hzero, if_neg (by exact_mod_cast hne), Nat.cast_sub hlt.le]

end Prime

end WalletKeys.Modular
