import Mathlib.Tactic.LinearCombination
import WalletKeys.Proofs.Geometry.Group

/-! # Multiples without divisions

    A check that a multiple of a point is the neutral element, fast enough for
    the numbers of points of real curves. A point is carried as a triple of
    numbers with `x = X / Z²` and `y = Y / Z³`, so that doubling and adding need
    no inverse, and a triple with `Z = 0` stands for the neutral element.

    `nsmul_eq_zero_of_ladder` is the one statement that the rest of the library
    uses.
-/

namespace WalletKeys.Geometry

open WeierstrassCurve.Affine

/-! ## Section 1: Triples -/

/-- Coordinates over a common denominator. -/
structure Triple where
  x : Int
  y : Int
  z : Int

namespace Triple

/-- The double of a point on a curve with linear coefficient `a`. -/
def double (p : Nat) (a : Int) (t : Triple) : Triple :=
  let yy := t.y * t.y % p
  let zz := t.z * t.z % p
  let s := 4 * t.x * yy % p
  let slope := (3 * t.x * t.x + a * zz * zz) % p
  let x := (slope * slope - 2 * s) % p
  ⟨x, (slope * (s - x) - 8 * yy * yy) % p, 2 * t.y * t.z % p⟩

/-- The difference of the abscissas of a point and `q`, over `t.z ^ 2`. -/
def run (p : Nat) (q : Affine) (t : Triple) : Int := (q.x * (t.z * t.z) - t.x) % p

/-- The difference of the ordinates of a point and `q`, over `t.z ^ 3`. -/
def rise (p : Nat) (q : Affine) (t : Triple) : Int := (q.y * (t.z * t.z * t.z) - t.y) % p

/-- The sum with a point `q` of another abscissa. -/
def chord (p : Nat) (q : Affine) (t : Triple) : Triple :=
  let run := t.run p q
  let rise := t.rise p q
  let square := run * run % p
  let x := (rise * rise - square * run - 2 * (t.x * square)) % p
  ⟨x, (rise * (t.x * square - x) - t.y * (square * run)) % p, t.z * run % p⟩

/-- The sum with a point that is given by its coordinates. -/
def add (p : Nat) (a : Int) (q : Affine) (t : Triple) : Triple :=
  if t.z % p = 0 then ⟨q.x, q.y, 1⟩
  else if t.run p q = 0 ∧ t.rise p q = 0 then t.double p a
  else t.chord p q

/-- The multiple `k * q`, for `k` of at most `digits` binary digits. -/
def ladder (p : Nat) (a : Int) (q : Affine) : (digits k : Nat) → Triple
  | 0, _ => ⟨1, 1, 0⟩
  | digits + 1, k =>
    let half := (ladder p a q digits (k / 2)).double p a
    if k % 2 = 1 then half.add p a q else half

/-! ## Section 2: Sums of what triples stand for -/

variable {p : Nat} [hp : Fact p.Prime] {a b : Int}

/-- The triple stands for the point. -/
def Represents (t : Triple) : (residueCurve p a b).Point → Prop
  | .zero => (t.z : ZMod p) = 0
  | .some x y _ =>
    (t.z : ZMod p) ≠ 0 ∧ (t.x : ZMod p) = x * t.z ^ 2 ∧ (t.y : ZMod p) = y * t.z ^ 3

theorem double_represents [hell : (residueCurve p a b).IsElliptic] {t : Triple}
    {P : (residueCurve p a b).Point} (h : t.Represents P) :
    (t.double p a).Represents (P + P) := by
  have hz' : ((t.double p a).z : ZMod p) = 2 * t.y * t.z := by simp [double]
  cases P with
  | zero =>
    have hz : (t.z : ZMod p) = 0 := h
    show ((t.double p a).z : ZMod p) = 0
    rw [hz', hz, mul_zero]
  | some x y hP =>
    obtain ⟨hz, hx, hy⟩ := h
    by_cases hzero : y = 0
    · rw [add_eq_zero_of_abscissa hP hP (Or.inr hzero)]
      show ((t.double p a).z : ZMod p) = 0
      rw [hz', hy, hzero]
      ring
    · obtain ⟨ℓ, hℓ, _, hsum⟩ := add_self_eq hell hP hzero
      rw [hsum]
      have hslope : 3 * (t.x : ZMod p) ^ 2 + a * t.z ^ 4 = ℓ * (2 * y) * t.z ^ 4 := by
        rw [hx]
        linear_combination (-(t.z : ZMod p) ^ 4) * hℓ
      have hx' : ((t.double p a).x : ZMod p) =
          (3 * t.x ^ 2 + a * t.z ^ 4) ^ 2 - 8 * t.x * t.y ^ 2 := by
        simp [double]
        ring
      have hy' : ((t.double p a).y : ZMod p) =
          (3 * t.x ^ 2 + a * t.z ^ 4) * (4 * t.x * t.y ^ 2 - (t.double p a).x) - 8 * t.y ^ 4 := by
        simp [double]
        ring
      refine ⟨?_, ?_, ?_⟩
      · rw [hz', hy, show 2 * (y * (t.z : ZMod p) ^ 3) * t.z = 2 * y * (t.z : ZMod p) ^ 4 by ring]
        exact mul_ne_zero (mul_ne_zero (two_ne_zero_of_elliptic hell) hzero) (pow_ne_zero 4 hz)
      · rw [hx', hslope, hz', hx, hy]
        ring
      · rw [hy', hx', hslope, hz', hx, hy]
        ring

theorem run_cast {t : Triple} {x₁ : ZMod p} (x₂ y₂ : ZMod p) (hx : (t.x : ZMod p) = x₁ * t.z ^ 2) :
    (t.run p (reduced x₂ y₂) : ZMod p) = (x₂ - x₁) * t.z ^ 2 := by
  simp [run, hx]
  ring

theorem rise_cast {t : Triple} {y₁ : ZMod p} (x₂ y₂ : ZMod p) (hy : (t.y : ZMod p) = y₁ * t.z ^ 3) :
    (t.rise p (reduced x₂ y₂) : ZMod p) = (y₂ - y₁) * t.z ^ 3 := by
  simp [rise, hy]
  ring

/-- Away from the two points above the abscissa of `q`, the chord leads to the sum;
    at the opposite of `q` it leads to the neutral element. -/
theorem chord_represents {t : Triple} {x₁ y₁ x₂ y₂ : ZMod p}
    {h₁ : (residueCurve p a b).Nonsingular x₁ y₁} {h₂ : (residueCurve p a b).Nonsingular x₂ y₂}
    (h : t.Represents (.some x₁ y₁ h₁)) (hne : ¬(x₁ = x₂ ∧ y₁ = y₂)) :
    (t.chord p (reduced x₂ y₂)).Represents (Point.some x₁ y₁ h₁ + Point.some x₂ y₂ h₂) := by
  obtain ⟨hz, hx, hy⟩ := h
  have hrun := run_cast x₂ y₂ hx
  have hrise := rise_cast x₂ y₂ hy
  have hz' : ((t.chord p (reduced x₂ y₂)).z : ZMod p) = (x₂ - x₁) * t.z ^ 3 := by
    simp [chord, hrun]
    ring
  by_cases habs : x₁ = x₂
  · subst habs
    rw [add_eq_zero_of_abscissa h₁ h₂ (Or.inl fun heq => hne ⟨rfl, heq⟩)]
    show ((t.chord p (reduced x₁ y₂)).z : ZMod p) = 0
    rw [hz', sub_self, zero_mul]
  · obtain ⟨ℓ, hℓ, _, hsum⟩ := add_eq_of_ne h₁ h₂ habs
    rw [hsum]
    have hx' : ((t.chord p (reduced x₂ y₂)).x : ZMod p) =
        (ℓ ^ 2 - x₁ - x₂) * ((x₂ - x₁) * t.z ^ 3) ^ 2 := by
      simp [chord, hrun, hrise, hx, ← hℓ]
      ring
    refine ⟨?_, by rw [hx', hz'], ?_⟩
    · rw [hz']
      exact mul_ne_zero (sub_ne_zero.mpr (Ne.symm habs)) (pow_ne_zero 3 hz)
    · have hy' : ((t.chord p (reduced x₂ y₂)).y : ZMod p) =
          (y₂ - y₁) * t.z ^ 3 * (x₁ * t.z ^ 2 * ((x₂ - x₁) * t.z ^ 2) ^ 2 -
            (t.chord p (reduced x₂ y₂)).x) - y₁ * t.z ^ 3 * ((x₂ - x₁) * t.z ^ 2) ^ 3 := by
        simp [chord, hrun, hrise, hx, hy]
        ring
      rw [hy', hx', hz', ← hℓ]
      ring

theorem add_represents [hell : (residueCurve p a b).IsElliptic] {t : Triple} {q : Affine}
    {P Q : (residueCurve p a b).Point} (h : t.Represents P) (hq : coordinates? Q = some q) :
    (t.add p a q).Represents (P + Q) := by
  cases Q with
  | zero => simp [coordinates?] at hq
  | some x₂ y₂ hQ =>
  obtain rfl := Option.some.inj hq
  unfold add
  cases P with
  | zero =>
    have hz : (t.z : ZMod p) = 0 := h
    rw [if_pos ((emod_eq_zero_iff _).mpr hz)]
    show Represents _ (0 + Point.some x₂ y₂ hQ)
    rw [zero_add]
    simp [Represents]
  | some x₁ y₁ hP =>
    obtain ⟨hz, hx, hy⟩ := id h
    rw [if_neg (mt (emod_eq_zero_iff _).mp hz)]
    -- Both differences are reduced, so they are zero if their residues are.
    have hrun : t.run p (reduced x₂ y₂) = 0 ↔ x₁ = x₂ := by
      have hcast := run_cast x₂ y₂ hx
      rw [run, ZMod.intCast_mod] at hcast
      rw [run, emod_eq_zero_iff, hcast, mul_eq_zero_iff_right (pow_ne_zero 2 hz), sub_eq_zero,
        eq_comm]
    have hrise : t.rise p (reduced x₂ y₂) = 0 ↔ y₁ = y₂ := by
      have hcast := rise_cast x₂ y₂ hy
      rw [rise, ZMod.intCast_mod] at hcast
      rw [rise, emod_eq_zero_iff, hcast, mul_eq_zero_iff_right (pow_ne_zero 3 hz), sub_eq_zero,
        eq_comm]
    simp only [hrun, hrise]
    by_cases hsame : x₁ = x₂ ∧ y₁ = y₂
    · rw [if_pos hsame]
      obtain ⟨rfl, rfl⟩ := hsame
      exact double_represents h
    · rw [if_neg hsame]
      exact chord_represents h hsame

theorem ladder_represents [hell : (residueCurve p a b).IsElliptic] {q : Affine}
    {Q : (residueCurve p a b).Point} (hq : coordinates? Q = some q) (digits k : Nat)
    (hk : k < 2 ^ digits) : (ladder p a q digits k).Represents (k • Q) := by
  induction digits generalizing k with
  | zero =>
    obtain rfl : k = 0 := by simpa using hk
    rw [zero_nsmul]
    show ((0 : Int) : ZMod p) = 0
    exact Int.cast_zero
  | succ digits ih =>
    have hhalf := double_represents (ih (k / 2) (by rw [pow_succ] at hk; omega))
    rw [← two_nsmul, ← mul_nsmul'] at hhalf
    rw [ladder]
    by_cases hodd : k % 2 = 1
    · rw [if_pos hodd]
      have hsum := add_represents hhalf hq
      rwa [← succ_nsmul, show 2 * (k / 2) + 1 = k by omega] at hsum
    · rw [show 2 * (k / 2) = k by omega] at hhalf
      rwa [if_neg hodd]

end Triple

/-- A multiple whose triple has the last number zero is the neutral element. -/
theorem nsmul_eq_zero_of_ladder {p : Nat} [Fact p.Prime] {a b : Int}
    [(residueCurve p a b).IsElliptic] (digits : Nat) {q : Affine}
    {Q : (residueCurve p a b).Point} (hq : coordinates? Q = some q) {k : Nat} (hk : k < 2 ^ digits)
    (hz : (Triple.ladder p a q digits k).z % p = 0) : k • Q = 0 := by
  have h := Triple.ladder_represents hq digits k hk
  revert h
  generalize k • Q = P
  intro h
  cases P with
  | zero => rfl
  | some x y hP => exact absurd ((emod_eq_zero_iff _).mp hz) h.1

end WalletKeys.Geometry
