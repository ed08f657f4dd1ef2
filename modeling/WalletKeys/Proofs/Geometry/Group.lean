import Mathlib.AlgebraicGeometry.EllipticCurve.Affine.Point
import Mathlib.FieldTheory.Finite.Basic
import WalletKeys.Geometry.Affine

/-! # Lines and multiples in the group of a curve

    The curve `y² = x³ + a * x + b` over the residues modulo a prime `p` has a
    group of points. An element is seen through its reduced coordinates
    (`coordinates?`), which determine it, and every reduced pair that satisfies
    the equation is seen.

    Two statements tie the arithmetic on pairs to the group. `line_spec` says
    what the line through two points tells about their sum, whatever number
    serves as its slope. `addMultiple_spec` says that doubling and adding gives
    multiples, for any addition that is that of a group seen through some view.
-/

namespace WalletKeys.Geometry

open WeierstrassCurve.Affine

/-! ## Section 1: Points and their coordinates -/

/-- The curve `y² = x³ + a * x + b` over the residues modulo `p`. -/
def residueCurve (p : Nat) (a b : Int) : WeierstrassCurve.Affine (ZMod p) where
  a₁ := 0
  a₂ := 0
  a₃ := 0
  a₄ := a
  a₆ := b

/-- A pair of residues, by its least representatives. -/
def reduced {p : Nat} (x y : ZMod p) : Affine := ⟨x.val, y.val⟩

/-- The reduced coordinates of a point; the neutral element has none. -/
def coordinates? {p : Nat} {a b : Int} : (residueCurve p a b).Point → Option Affine
  | .zero => none
  | .some x y _ => some (reduced x y)

@[simp] theorem coordinates?_zero {p : Nat} {a b : Int} :
    coordinates? (0 : (residueCurve p a b).Point) = none := rfl

@[simp] theorem coordinates?_some {p : Nat} {a b : Int} {x y : ZMod p}
    (h : (residueCurve p a b).Nonsingular x y) :
    coordinates? (.some x y h) = some (reduced x y) := rfl

@[simp] theorem coordinates?_eq_none_iff {p : Nat} {a b : Int} {P : (residueCurve p a b).Point} :
    coordinates? P = none ↔ P = 0 := by
  cases P with
  | zero => exact ⟨fun _ => rfl, fun _ => rfl⟩
  | some x y hP => exact ⟨fun h => by simp at h, fun h => by simp [h]⟩

theorem exists_coordinates?_of_ne_zero {p : Nat} {a b : Int} {P : (residueCurve p a b).Point}
    (hP : P ≠ 0) : ∃ q, coordinates? P = some q := by
  cases h : coordinates? P with
  | none => exact absurd (coordinates?_eq_none_iff.mp h) hP
  | some q => exact ⟨q, rfl⟩

theorem ne_zero_of_coordinates? {p : Nat} {a b : Int} {P : (residueCurve p a b).Point}
    {q : Affine} (h : coordinates? P = some q) : P ≠ 0 := by
  intro hP
  rw [hP] at h
  cases h

/-- A point, with its coordinates brought into another form. -/
theorem exists_some_eq {p : Nat} {a b : Int} {P : (residueCurve p a b).Point}
    {x y x' y' : ZMod p} {h : (residueCurve p a b).Nonsingular x y} (hP : P = .some x y h)
    (hx : x = x') (hy : y = y') : ∃ h', P = .some x' y' h' := by
  subst hx hy
  exact ⟨h, hP⟩

section Coordinates

variable {p : Nat} [hp : Fact p.Prime] {a b : Int}

@[simp] theorem reduced_x_cast (x y : ZMod p) : ((reduced x y).x : ZMod p) = x := by
  simp [reduced]

@[simp] theorem reduced_y_cast (x y : ZMod p) : ((reduced x y).y : ZMod p) = y := by
  simp [reduced]

/-- A reduced pair is made of its residues. -/
theorem reduced_intCast {P : Affine} (hx : 0 ≤ P.x ∧ P.x < p) (hy : 0 ≤ P.y ∧ P.y < p) :
    reduced (P.x : ZMod p) (P.y : ZMod p) = P := by
  simp only [reduced, ZMod.val_intCast, Int.emod_eq_of_lt hx.1 hx.2, Int.emod_eq_of_lt hy.1 hy.2]

theorem reduced_x_inj {x y x' y' : ZMod p} : (reduced x y).x = (reduced x' y').x ↔ x = x' := by
  rw [reduced, reduced, Nat.cast_inj, (ZMod.val_injective p).eq_iff]

theorem reduced_y_inj {x y x' y' : ZMod p} : (reduced x y).y = (reduced x' y').y ↔ y = y' := by
  rw [reduced, reduced, Nat.cast_inj, (ZMod.val_injective p).eq_iff]

theorem reduced_y_eq_zero {x y : ZMod p} : (reduced x y).y = 0 ↔ y = 0 := by
  rw [reduced, Nat.cast_eq_zero, ZMod.val_eq_zero]

/-- Coordinates determine a point. -/
theorem coordinates?_injective :
    Function.Injective (coordinates? : (residueCurve p a b).Point → Option Affine) := by
  intro P Q h
  cases P with
  | zero =>
    cases Q with
    | zero => rfl
    | some x' y' h' => simp [coordinates?] at h
  | some x y hP =>
    cases Q with
    | zero => simp [coordinates?] at h
    | some x' y' hQ =>
      have heq := Option.some.inj h
      obtain rfl := reduced_x_inj.mp (congrArg Affine.x heq)
      obtain rfl := reduced_y_inj.mp (congrArg Affine.y heq)
      rfl

/-- The equation of the curve. -/
theorem residueCurve_equation_iff {x y : ZMod p} :
    (residueCurve p a b).Equation x y ↔ y ^ 2 = x ^ 3 + a * x + b := by
  rw [equation_iff]
  simp [residueCurve]

/-- Whether a number of the form `x % p` is zero shows in the residues. -/
theorem emod_eq_zero_iff (x : Int) : x % p = 0 ↔ (x : ZMod p) = 0 := by
  rw [ZMod.intCast_zmod_eq_zero_iff_dvd, Int.dvd_iff_emod_eq_zero]

/-- Points of the curve have reduced coordinates. -/
theorem coordinates?_range {P : (residueCurve p a b).Point} {q : Affine}
    (h : coordinates? P = some q) : (0 ≤ q.x ∧ q.x < p) ∧ (0 ≤ q.y ∧ q.y < p) := by
  cases P with
  | zero => simp [coordinates?] at h
  | some x y hP =>
    obtain rfl := Option.some.inj h
    have hx := ZMod.val_lt x
    have hy := ZMod.val_lt y
    simp only [reduced]
    omega

/-- Points of the curve satisfy its equation. -/
theorem coordinates?_equation {P : (residueCurve p a b).Point} {q : Affine}
    (h : coordinates? P = some q) :
    (q.y : ZMod p) ^ 2 = (q.x : ZMod p) ^ 3 + a * (q.x : ZMod p) + b := by
  cases P with
  | zero => simp [coordinates?] at h
  | some x y hP =>
    obtain rfl := Option.some.inj h
    rw [reduced_x_cast, reduced_y_cast]
    exact residueCurve_equation_iff.mp hP.1

/-- The reflected point has the opposite ordinate. -/
theorem coordinates?_neg {P : (residueCurve p a b).Point} {q : Affine}
    (h : coordinates? P = some q) : coordinates? (-P) = some ⟨q.x, -q.y % p⟩ := by
  cases P with
  | zero => simp [coordinates?] at h
  | some x y hP =>
    obtain rfl := Option.some.inj h
    rw [WeierstrassCurve.Affine.Point.neg_some, coordinates?_some, Option.some_inj]
    have hneg : (residueCurve p a b).negY x y = -y := by simp [negY, residueCurve]
    simp only [reduced, hneg, ← ZMod.val_intCast]
    simp

/-- The prime is odd, since no curve of this form over a field of two elements is
    without a singular point. -/
theorem two_ne_zero_of_elliptic (hell : (residueCurve p a b).IsElliptic) : (2 : ZMod p) ≠ 0 := by
  intro htwo
  apply hell.isUnit.ne_zero
  simp only [WeierstrassCurve.Δ, WeierstrassCurve.b₂, WeierstrassCurve.b₄,
    WeierstrassCurve.b₆, WeierstrassCurve.b₈, residueCurve]
  linear_combination (-32 * (a : ZMod p) ^ 3 - 216 * (b : ZMod p) ^ 2) * htwo

/-- The discriminant tells whether the curve is without singular points. -/
theorem isElliptic_of_discriminant (h : ¬(p : Int) ∣ 16 * (4 * a ^ 3 + 27 * b ^ 2)) :
    (residueCurve p a b).IsElliptic := by
  have hne : ((16 * (4 * a ^ 3 + 27 * b ^ 2) : Int) : ZMod p) ≠ 0 :=
    mt (ZMod.intCast_zmod_eq_zero_iff_dvd _ p).mp h
  refine ⟨isUnit_iff_ne_zero.mpr fun hzero => hne ?_⟩
  simp only [WeierstrassCurve.Δ, WeierstrassCurve.b₂, WeierstrassCurve.b₄,
    WeierstrassCurve.b₆, WeierstrassCurve.b₈, residueCurve] at hzero
  push_cast
  linear_combination -hzero

/-- Every reduced pair that satisfies the equation belongs to a point. -/
theorem exists_coordinates? [(residueCurve p a b).IsElliptic] {q : Affine}
    (hx : 0 ≤ q.x ∧ q.x < p) (hy : 0 ≤ q.y ∧ q.y < p)
    (heq : (q.y : ZMod p) ^ 2 = (q.x : ZMod p) ^ 3 + a * (q.x : ZMod p) + b) :
    ∃ P : (residueCurve p a b).Point, coordinates? P = some q := by
  have hns : (residueCurve p a b).Nonsingular (q.x : ZMod p) (q.y : ZMod p) :=
    equation_iff_nonsingular.mp (residueCurve_equation_iff.mpr heq)
  exact ⟨.some _ _ hns, by rw [coordinates?_some, reduced_intCast hx hy]⟩

/-- The pairs that belong to points are the reduced ones that satisfy the equation,
    where the two sides of the equation may be compared by any number that stands
    for their difference. -/
theorem exists_coordinates?_iff [(residueCurve p a b).IsElliptic] {q : Affine} {difference : Int}
    (h : (difference : ZMod p) =
      (q.y : ZMod p) ^ 2 - ((q.x : ZMod p) ^ 3 + a * (q.x : ZMod p) + b)) :
    (∃ P : (residueCurve p a b).Point, coordinates? P = some q) ↔
      (0 ≤ q.x ∧ q.x < p) ∧ (0 ≤ q.y ∧ q.y < p) ∧ difference % p = 0 := by
  rw [emod_eq_zero_iff, h, sub_eq_zero]
  constructor
  · intro h
    obtain ⟨P, hP⟩ := h
    obtain ⟨hx, hy⟩ := coordinates?_range hP
    exact ⟨hx, hy, coordinates?_equation hP⟩
  · intro h
    obtain ⟨hx, hy, heq⟩ := h
    exact exists_coordinates? hx hy heq

/-! ## Section 2: Lines -/

@[simp] theorem residueCurve_negY (x y : ZMod p) : (residueCurve p a b).negY x y = -y := by
  simp [negY, residueCurve]

/-- Points above one abscissa are equal or opposite. -/
theorem eq_or_eq_neg_of_abscissa {x y₁ y₂ : ZMod p} (h₁ : (residueCurve p a b).Nonsingular x y₁)
    (h₂ : (residueCurve p a b).Nonsingular x y₂) : y₁ = y₂ ∨ y₁ = -y₂ := by
  have h := Y_eq_of_X_eq h₁.1 h₂.1 rfl
  rwa [residueCurve_negY] at h

/-- Points whose coordinates have one abscissa are equal or opposite. -/
theorem eq_or_eq_neg_of_coordinates {P Q : (residueCurve p a b).Point} {u v : Affine}
    (hu : coordinates? P = some u) (hv : coordinates? Q = some v) (hx : u.x = v.x) :
    P = Q ∨ P = -Q := by
  cases P with
  | zero => simp [coordinates?] at hu
  | some x y hP =>
  cases Q with
  | zero => simp [coordinates?] at hv
  | some x' y' hQ =>
    obtain rfl := Option.some.inj hu
    obtain rfl := Option.some.inj hv
    obtain rfl := reduced_x_inj.mp hx
    rcases eq_or_eq_neg_of_abscissa hP hQ with rfl | rfl
    · exact .inl rfl
    · refine .inr ?_
      rw [WeierstrassCurve.Affine.Point.neg_some, Point.some.injEq]
      exact ⟨rfl, (residueCurve_negY x y').symm⟩

/-- Points have one abscissa exactly if they are equal or opposite. -/
theorem abscissa_eq_iff {P Q : (residueCurve p a b).Point} {u v : Affine}
    (hu : coordinates? P = some u) (hv : coordinates? Q = some v) :
    u.x = v.x ↔ P = Q ∨ P = -Q := by
  constructor
  · exact eq_or_eq_neg_of_coordinates hu hv
  · rintro (rfl | rfl)
    · rw [hu, Option.some_inj] at hv
      rw [hv]
    · rw [coordinates?_neg hv, Option.some_inj] at hu
      rw [← hu]

/-- Points above one abscissa have the sum zero, unless they coincide outside of
    the axis. -/
theorem add_eq_zero_of_abscissa {x y₁ y₂ : ZMod p} (h₁ : (residueCurve p a b).Nonsingular x y₁)
    (h₂ : (residueCurve p a b).Nonsingular x y₂) (hy : ¬y₁ = y₂ ∨ y₁ = 0) :
    Point.some x y₁ h₁ + Point.some x y₂ h₂ = 0 := by
  apply Point.add_of_Y_eq rfl
  rw [residueCurve_negY]
  rcases eq_or_eq_neg_of_abscissa h₁ h₂ with heq | heq
  · have hzero : y₁ = 0 := hy.resolve_left (not_not_intro heq)
    rw [← heq, hzero, neg_zero]
  · exact heq

/-- The double of a point outside of the axis, by the slope of its tangent. -/
theorem add_self_eq (hell : (residueCurve p a b).IsElliptic) {x y : ZMod p}
    (h : (residueCurve p a b).Nonsingular x y) (hy : y ≠ 0) :
    ∃ ℓ : ZMod p, ℓ * (2 * y) = 3 * x ^ 2 + a ∧ ∃ h', Point.some x y h + Point.some x y h =
      Point.some (ℓ ^ 2 - x - x) (ℓ * (x - (ℓ ^ 2 - x - x)) - y) h' := by
  have hden : (2 : ZMod p) * y ≠ 0 := mul_ne_zero (two_ne_zero_of_elliptic hell) hy
  have hne : y ≠ (residueCurve p a b).negY x y := by
    rw [residueCurve_negY]
    intro heq
    apply hden
    linear_combination heq
  refine ⟨(residueCurve p a b).slope x x y y, ?_, ?_⟩
  · rw [slope_of_Y_ne rfl hne, residueCurve_negY, show y - -y = 2 * y by ring,
      div_mul_cancel₀ _ hden]
    simp [residueCurve]
  · apply exists_some_eq (Point.add_self_of_Y_ne hne)
    · simp [residueCurve]
    · rw [addY, residueCurve_negY]
      simp [residueCurve]
      ring

/-- The sum of points with different abscissas, by the slope of their chord. -/
theorem add_eq_of_ne {x₁ y₁ x₂ y₂ : ZMod p} (h₁ : (residueCurve p a b).Nonsingular x₁ y₁)
    (h₂ : (residueCurve p a b).Nonsingular x₂ y₂) (hx : x₁ ≠ x₂) :
    ∃ ℓ : ZMod p, ℓ * (x₂ - x₁) = y₂ - y₁ ∧ ∃ h', Point.some x₁ y₁ h₁ + Point.some x₂ y₂ h₂ =
      Point.some (ℓ ^ 2 - x₁ - x₂) (ℓ * (x₁ - (ℓ ^ 2 - x₁ - x₂)) - y₁) h' := by
  refine ⟨(residueCurve p a b).slope x₁ x₂ y₁ y₂, ?_, ?_⟩
  · rw [slope_of_X_ne hx, div_mul_eq_mul_div, div_eq_iff (sub_ne_zero.mpr hx)]
    ring
  · apply exists_some_eq (Point.add_of_X_ne hx)
    · simp [residueCurve]
    · rw [addY, residueCurve_negY]
      simp [residueCurve]
      ring

/-- The third point of a line, for any number that is its slope modulo `p`. -/
theorem thirdPoint_eq {x₁ y₁ x₂ y₂ ℓ : ZMod p} {slope : Int} (hslope : (slope : ZMod p) = ℓ) :
    thirdPoint p slope (reduced x₁ y₁) (reduced x₂ y₂) =
      reduced (ℓ ^ 2 - x₁ - x₂) (ℓ * (x₁ - (ℓ ^ 2 - x₁ - x₂)) - y₁) := by
  subst hslope
  simp only [thirdPoint, reduced, ← ZMod.val_intCast]
  congr 3 <;> push_cast <;> simp [pow_two]

/-- What the line through two points tells about their sum: a vertical line has
    the sum zero, any other has a denominator that can be divided by, and every
    number that is its slope modulo `p` leads to the sum. -/
theorem line_spec [hell : (residueCurve p a b).IsElliptic] {P Q : (residueCurve p a b).Point}
    {u v : Affine} (hu : coordinates? P = some u) (hv : coordinates? Q = some v) :
    match line a u v with
    | .vertical => P + Q = 0
    | .sloped numerator denominator =>
      (denominator : ZMod p) ≠ 0 ∧
        ∀ slope : Int, (slope : ZMod p) = numerator * (denominator : ZMod p)⁻¹ →
          coordinates? (P + Q) = some (thirdPoint p slope u v) := by
  cases P with
  | zero => simp [coordinates?] at hu
  | some x₁ y₁ h₁ =>
  cases Q with
  | zero => simp [coordinates?] at hv
  | some x₂ y₂ h₂ =>
    obtain rfl := Option.some.inj hu
    obtain rfl := Option.some.inj hv
    simp only [line, ne_eq, reduced_x_inj, reduced_y_inj, reduced_y_eq_zero]
    by_cases hx : x₁ = x₂
    · subst hx
      rw [if_pos rfl]
      by_cases hy : ¬y₁ = y₂ ∨ y₁ = 0
      · rw [if_pos hy]
        exact add_eq_zero_of_abscissa h₁ h₂ hy
      · rw [if_neg hy]
        obtain ⟨heq, hne⟩ := not_or.mp hy
        obtain rfl := not_not.mp heq
        obtain ⟨ℓ, hℓ, _, hsum⟩ := add_self_eq hell h₁ hne
        have hden : (2 : ZMod p) * y₁ ≠ 0 := mul_ne_zero (two_ne_zero_of_elliptic hell) hne
        refine ⟨by simpa using hden, fun slope hslope => ?_⟩
        -- The denominator can be divided by, so the slope is the one of the tangent.
        have hline : (slope : ZMod p) = ℓ := by
          rw [hslope, eq_comm, eq_mul_inv_iff_mul_eq₀ (by simpa using hden)]
          push_cast
          rw [reduced_x_cast, reduced_y_cast, hℓ]
          ring
        rw [hsum, coordinates?_some, thirdPoint_eq hline]
    · rw [if_neg hx]
      obtain ⟨ℓ, hℓ, _, hsum⟩ := add_eq_of_ne h₁ h₂ hx
      have hden : x₂ - x₁ ≠ 0 := sub_ne_zero.mpr (Ne.symm hx)
      refine ⟨by simpa using hden, fun slope hslope => ?_⟩
      have hline : (slope : ZMod p) = ℓ := by
        rw [hslope, eq_comm, eq_mul_inv_iff_mul_eq₀ (by simpa using hden)]
        push_cast
        rw [reduced_x_cast, reduced_x_cast, reduced_y_cast, reduced_y_cast, hℓ]
      rw [hsum, coordinates?_some, thirdPoint_eq hline]

end Coordinates

/-! ## Section 3: Multiples -/

/-- Doubling and adding gives multiples, for an addition that is the one of a
    group `G` seen through `view`. -/
theorem addMultiple_spec {m : Type → Type} [Monad m] [LawfulMonad m] {α G : Type}
    [AddCommGroup G] (add : α → α → m α) (view : G → α)
    (hadd : ∀ P Q, add (view P) (view Q) = pure (view (P + Q))) (sum base : G) (k : Nat) :
    addMultiple add (view sum) (view base) k = pure (view (sum + k • base)) := by
  -- The sum and the base change together, and the half of `k` times the double of the base
  -- is `k` times the base up to the last binary digit.
  induction k using Nat.strongRecOn generalizing sum base with
  | ind k ih =>
    rw [addMultiple]
    by_cases hk : k = 0
    · rw [dif_pos hk, hk, zero_smul, add_zero]
    · have hhalf : (k / 2) • (base + base) = (2 * (k / 2)) • base := by
        rw [← two_nsmul, ← mul_nsmul]
      rw [dif_neg hk]
      by_cases hodd : k % 2 = 1
      · rw [if_pos hodd, hadd, pure_bind]
        dsimp only
        rw [hadd, pure_bind, ih (k / 2) (by omega), hhalf, add_assoc, ← succ_nsmul']
        congr 4
        omega
      · rw [if_neg hodd, pure_bind]
        dsimp only
        rw [hadd, pure_bind, ih (k / 2) (by omega), hhalf]
        congr 4
        omega

end WalletKeys.Geometry
