import WalletKeys.Proofs.Geometry.Law
import WalletKeys.Proofs.Geometry.Order
import WalletKeys.Proofs.Modular.Primality
import WalletKeys.Proofs.Modular.SquareRoot
import WalletKeys.Stark.Group

/-! # The group of the STARK curve is a group

    Here the neutral element has no coordinates, so `coordinates?` already shows
    elements of the curve's group the way that the operations take them. `add`,
    `neg` and `multiple` are the sum, the opposite and the multiple by any integer,
    and every element has the order `order`. So the points and `none` are a
    commutative group under `add` (`groupLaw_add_on_points`).

    `ordinate?` finds a point above an abscissa whenever there is one. Which of the
    two it finds is left open.
-/

namespace WalletKeys.Stark

open WalletKeys.Geometry WalletKeys.Modular

/-! ## Section 1: Elements -/

/-- An element of the group of the curve. -/
abbrev Element := (residueCurve fieldPrime linear constant).Point

instance : (residueCurve fieldPrime linear constant).IsElliptic :=
  isElliptic_of_discriminant (by decide +kernel)

/-- The pairs on the curve are those that stand for affine points. -/
theorem onCurve_iff {q : Affine} : OnCurve q ↔ ∃ P : Element, coordinates? P = some q := by
  unfold OnCurve
  apply (exists_coordinates?_iff ?_).symm
  push_cast
  ring

/-! ## Section 2: Sums and opposites -/

/-- Adding pairs is adding elements. -/
theorem add_coordinates (P Q : Element) :
    add (coordinates? P) (coordinates? Q) = coordinates? (P + Q) := by
  by_cases hP : P = 0
  · rw [hP, zero_add]
    rfl
  by_cases hQ : Q = 0
  · rw [hQ, add_zero]
    cases coordinates? P <;> rfl
  obtain ⟨u, hu⟩ := exists_coordinates?_of_ne_zero hP
  obtain ⟨v, hv⟩ := exists_coordinates?_of_ne_zero hQ
  have hline := line_spec hu hv
  rw [hu, hv, add]
  cases h : line linear u v with
  | vertical =>
    rw [h] at hline
    rw [hline, coordinates?_zero]
  | sloped numerator denominator =>
    rw [h] at hline
    obtain ⟨hden, hsum⟩ := hline
    rw [hsum (numerator * fermat denominator fieldPrime % fieldPrime)]
    rw [ZMod.intCast_mod, Int.cast_mul, fermat_cast hden]

/-- Reflecting a pair is taking the opposite. -/
theorem neg_coordinates (P : Element) : neg (coordinates? P) = coordinates? (-P) := by
  by_cases hP : P = 0
  · rw [hP, neg_zero]
    rfl
  · obtain ⟨q, hq⟩ := exists_coordinates?_of_ne_zero hP
    rw [coordinates?_neg hq, hq]
    rfl

/-! ## Section 3: The order -/

theorem exists_base : ∃ B : Element, coordinates? B = generator :=
  onCurve_iff.mp (by decide +kernel)

/-- The element that the base point stands for. -/
noncomputable def base : Element := exists_base.choose

@[simp] theorem coordinates_base : coordinates? base = generator := exists_base.choose_spec

theorem base_ne_zero : base ≠ 0 := ne_zero_of_coordinates? coordinates_base

theorem order_nsmul_base : order • base = 0 :=
  nsmul_eq_zero_of_ladder 252 coordinates_base (by decide +kernel) (by decide +kernel)

/-- The curve does not meet the axis. -/
theorem abscissa_ne_root (x : ZMod fieldPrime) :
    x ^ 3 + (linear : Int) * x + (constant : Int) ≠ 0 :=
  Quadratic.cubic_ne_zero 252 (by decide +kernel)
    ⟨0x4849ae2927680d353aa081a91779b35cf46b580e7a531465d38dfb19e9e2113,
      0x67d362ff77b726309bd1cf5cb4f3df52d0f76878afb53705a22fc78e12f5c4d,
      0xd508f6f3a6ffd3254ecea75816bc0c067103c4ee3b399dae811d51a642bb91⟩
    (by decide +kernel) x

/-- Every element is annihilated by the order. -/
@[simp] theorem order_nsmul (P : Element) : order • P = 0 :=
  nsmul_eq_zero_of_base abscissa_ne_root (by decide +kernel) base_ne_zero order_nsmul_base P

theorem emod_order_zsmul (k : Int) (P : Element) : (k % order) • P = k • P :=
  emod_zsmul (order_nsmul P) k

/-! ## Section 4: Multiples -/

/-- Multiplying pairs is multiplying elements. -/
theorem multiple_coordinates (k : Int) (P : Element) :
    multiple k (coordinates? P) = coordinates? (k • P) := by
  have h := addMultiple_spec (fun p q => (pure (add p q) : Id Point)) coordinates?
    (fun P Q : Element => congrArg pure (add_coordinates P Q)) 0 P (k % order).toNat
  have hnonneg : 0 ≤ k % order := Int.emod_nonneg k (by decide)
  rw [multiple, ← coordinates?_zero, h, zero_add, ← natCast_zsmul, Int.toNat_of_nonneg hnonneg,
    emod_order_zsmul]
  rfl

/-! ## Section 5: Ordinates -/

instance : Fact rootField.prime.Prime := fact_stark_fieldPrime

theorem rootField_valid : rootField.Valid where
  twos_pos := by decide
  odd_mod_two := by decide
  nonSquare_pow := by decide +kernel

/-- The ordinates above an abscissa are the roots of the cubic's value. -/
theorem onCurve_iff_square {x y : Int} (hx : 0 ≤ x ∧ x < fieldPrime)
    (hy : 0 ≤ y ∧ y < fieldPrime) :
    OnCurve ⟨x, y⟩ ↔ (y : ZMod fieldPrime) ^ 2 =
      ((x * x * x + linear * x + constant : Int) : ZMod fieldPrime) := by
  rw [OnCurve, emod_eq_zero_iff, Int.cast_sub, Int.cast_mul, ← pow_two, sub_eq_zero]
  constructor
  · intro h
    exact h.2.2
  · intro h
    exact ⟨hx, hy, h⟩

/-- An ordinate of a point is found if there is any above the abscissa. -/
theorem ordinate?_cases (x : Int) :
    (∃ y, ordinate? x = some y ∧ OnCurve ⟨x, y⟩) ∨
      ordinate? x = none ∧ ∀ y, ¬OnCurve ⟨x, y⟩ := by
  unfold ordinate?
  by_cases hx : 0 ≤ x ∧ x < fieldPrime
  · rw [if_neg (not_not_intro hx)]
    rcases rootField_valid.sqrt?_eq (x * x * x + linear * x + constant) with
      ⟨y, hsome, hy, hsq⟩ | ⟨hnone, hsq⟩
    · exact .inl ⟨y, hsome, (onCurve_iff_square hx hy).mpr hsq⟩
    · refine .inr ⟨hnone, ?_⟩
      intro y hy
      apply hsq
      have hy' := (onCurve_iff_square hx hy.2.1).mp hy
      rw [pow_two] at hy'
      exact ⟨(y : ZMod fieldPrime), hy'.symm⟩
  · rw [if_pos hx]
    exact .inr ⟨rfl, fun y hy => hx hy.1⟩

/-- The octets of field elements are those of reduced numbers. -/
theorem elementOfOctets_eq_ok_iff {octets : Octets} {x : Int} :
    elementOfOctets octets = .ok x ↔
      octets.length = 32 ∧ x < fieldPrime ∧ x = octets.toNat := by
  unfold elementOfOctets
  constructor
  · intro h
    split at h
    · cases h
    rename_i hlength
    split at h
    · cases h
    rename_i hrange
    cases h
    exact ⟨not_not.mp hlength, by omega, rfl⟩
  · intro h
    obtain ⟨hlength, hrange, rfl⟩ := h
    rw [if_neg (not_not_intro hlength), if_neg (by omega)]

/-- Other octets are a bad value. -/
theorem category_of_elementOfOctets {octets : Octets} {fault : CurveFault}
    (h : elementOfOctets octets = .error fault) : fault.category = .value := by
  unfold elementOfOctets at h
  split at h
  · cases h
    rfl
  split at h
  · cases h
    rfl
  · cases h

/-! ## Section 6: The laws of the group -/

/-- The neutral element, or a point of the curve. -/
def StandsForElement (p : Point) : Prop := ∀ q ∈ p, OnCurve q

theorem standsForElement_iff (p : Point) :
    StandsForElement p ↔ ∃ P : Element, coordinates? P = p := by
  constructor
  · intro h
    cases p with
    | none => exact ⟨0, coordinates?_zero⟩
    | some q => exact onCurve_iff.mp (h q rfl)
  · intro h q hq
    obtain ⟨P, rfl⟩ := h
    exact onCurve_iff.mpr ⟨P, hq⟩

/-- Addition of points is the group law of the curve: what stands for elements is added
    as the elements are, and with that it is a commutative group. -/
theorem groupLaw_add_on_points :
    GroupLaw StandsForElement (fun p q => (pure (add p q) : Id Point)) none neg ∧
      (∀ p, StandsForElement p ↔ ∃ P : Element, coordinates? P = p) ∧
      ∀ P Q : Element, add (coordinates? P) (coordinates? Q) = coordinates? (P + Q) := by
  refine ⟨?_, standsForElement_iff, add_coordinates⟩
  exact groupLaw_of_view coordinates?_injective (fun _ _ h => h) standsForElement_iff
    add_coordinates coordinates?_zero neg_coordinates

end WalletKeys.Stark
