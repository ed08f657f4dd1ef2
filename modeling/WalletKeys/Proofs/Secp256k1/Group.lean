import WalletKeys.Proofs.Geometry.Law
import WalletKeys.Proofs.Geometry.Order
import WalletKeys.Proofs.Modular.Primality
import WalletKeys.Secp256k1.Group

/-! # The group of secp256k1 is a group

    Pairs of numbers stand for the elements of the curve's group: an affine point
    is its reduced coordinates, and the neutral element is `(0, 0)`, which is
    free for that because the curve does not pass through it. In these terms
    `add` is the sum and never refused (`add_coordinates`), and `multiple` is the
    multiple by any integer (`multiple_coordinates`), since every element has
    the order `order`. So `add` makes a commutative group of the points and
    `(0, 0)`, in which no two points but opposite ones add up to `(0, 0)`
    (`groupLaw_add_on_pairs`).
-/

namespace WalletKeys.Secp256k1

open WalletKeys.Geometry WalletKeys.Modular

/-! ## Section 1: Elements and the pairs that stand for them -/

/-- An element of the group of the curve. -/
abbrev Element := (residueCurve fieldPrime 0 7).Point

instance : (residueCurve fieldPrime 0 7).IsElliptic :=
  isElliptic_of_discriminant (by decide +kernel)

/-- The pair of numbers that stands for an element. -/
def coordinates (P : Element) : Affine := (coordinates? P).getD identity

@[simp] theorem coordinates_zero : coordinates 0 = identity := rfl

theorem coordinates_of_some {P : Element} {q : Affine} (h : coordinates? P = some q) :
    coordinates P = q := by
  rw [coordinates, h, Option.getD_some]

/-- A pair satisfies the equation if and only if its residues do. -/
theorem equation_iff (q : Affine) :
    (q.y * q.y - q.x * q.x * q.x - 7) % fieldPrime = 0 ↔
      (q.y : ZMod fieldPrime) ^ 2 = (q.x : ZMod fieldPrime) ^ 3 + (0 : Int) * q.x + (7 : Int) := by
  rw [emod_eq_zero_iff, ← sub_eq_zero (a := _ ^ 2)]
  push_cast
  constructor <;> intro h <;> linear_combination h

/-- The pairs on the curve are those that stand for affine points. -/
theorem onCurve_iff {q : Affine} : OnCurve q ↔ ∃ P : Element, coordinates? P = some q := by
  unfold OnCurve
  apply (exists_coordinates?_iff ?_).symm
  push_cast
  ring

theorem not_onCurve_identity : ¬OnCurve identity := by decide +kernel

/-- An element other than zero stands on the curve. -/
theorem coordinates?_eq_some {P : Element} (hP : P ≠ 0) :
    coordinates? P = some (coordinates P) := by
  obtain ⟨q, hq⟩ := exists_coordinates?_of_ne_zero hP
  rw [hq, coordinates_of_some hq]

theorem onCurve_coordinates {P : Element} (hP : P ≠ 0) : OnCurve (coordinates P) :=
  onCurve_iff.mpr ⟨P, coordinates?_eq_some hP⟩

@[simp] theorem coordinates_eq_identity_iff {P : Element} : coordinates P = identity ↔ P = 0 := by
  constructor
  · intro h
    by_contra hP
    exact not_onCurve_identity (h ▸ onCurve_coordinates hP)
  · rintro rfl
    rfl

theorem coordinates_injective : Function.Injective coordinates := by
  intro P Q h
  by_cases hP : P = 0
  · rw [hP, coordinates_zero, eq_comm, coordinates_eq_identity_iff] at h
    rw [hP, h]
  · have hQ : Q ≠ 0 := by
      rintro rfl
      exact hP (coordinates_eq_identity_iff.mp h)
    apply coordinates?_injective
    rw [coordinates?_eq_some hP, coordinates?_eq_some hQ, h]

/-- Every pair on the curve stands for an element other than zero. -/
theorem exists_coordinates {q : Affine} (h : OnCurve q) :
    ∃ P : Element, P ≠ 0 ∧ coordinates P = q := by
  obtain ⟨P, hP⟩ := onCurve_iff.mp h
  exact ⟨P, ne_zero_of_coordinates? hP, coordinates_of_some hP⟩

/-! ## Section 2: Sums -/

/-- Adding pairs is adding elements. -/
theorem add_coordinates (P Q : Element) :
    add (coordinates P) (coordinates Q) = .ok (coordinates (P + Q)) := by
  unfold add
  by_cases hP : P = 0
  · rw [hP, if_pos coordinates_zero, zero_add]
  by_cases hQ : Q = 0
  · rw [hQ, if_neg (mt coordinates_eq_identity_iff.mp hP), if_pos coordinates_zero, add_zero]
  rw [if_neg (mt coordinates_eq_identity_iff.mp hP), if_neg (mt coordinates_eq_identity_iff.mp hQ)]
  have hline := line_spec (coordinates?_eq_some hP) (coordinates?_eq_some hQ)
  cases h : line 0 (coordinates P) (coordinates Q) with
  | vertical =>
    rw [h] at hline
    rw [hline, coordinates_zero]
  | sloped numerator denominator =>
    rw [h] at hline
    obtain ⟨hden, hsum⟩ := hline
    obtain ⟨inverted, hinv, _, hcast⟩ := inverse_of_ne_zero hden
    have hthird := hsum (numerator * inverted % fieldPrime) (by
      rw [ZMod.intCast_mod, Int.cast_mul, hcast])
    simp only [hinv]
    rw [coordinates_of_some hthird]
    rfl

/-! ## Section 3: The order -/

theorem exists_base : ∃ B : Element, B ≠ 0 ∧ coordinates B = generator :=
  exists_coordinates (by decide +kernel)

/-- The element that the base point stands for. -/
noncomputable def base : Element := exists_base.choose

theorem base_ne_zero : base ≠ 0 := exists_base.choose_spec.1

@[simp] theorem coordinates_base : coordinates base = generator := exists_base.choose_spec.2

theorem order_nsmul_base : order • base = 0 := by
  have hbase := coordinates?_eq_some base_ne_zero
  rw [coordinates_base] at hbase
  exact nsmul_eq_zero_of_ladder 256 hbase (by decide +kernel) (by decide +kernel)

/-- The curve does not meet the axis. -/
theorem abscissa_ne_root (x : ZMod fieldPrime) : x ^ 3 + (0 : Int) * x + (7 : Int) ≠ 0 :=
  Quadratic.cubic_ne_zero 256 (by decide +kernel)
    ⟨0, 0, 0x676072c51d36ab00c84deb078e4ba0feef17a1f9626d375046274e4ab01347c8⟩
    (by decide +kernel) x

/-- No point has the ordinate zero. -/
theorem ordinate_ne_zero {q : Affine} (h : OnCurve q) : q.y ≠ 0 := by
  intro hzero
  have hroot := (equation_iff q).mp h.2.2
  rw [hzero, Int.cast_zero, zero_pow two_ne_zero] at hroot
  exact abscissa_ne_root _ hroot.symm

/-- The pair that stands for the opposite of a point. -/
theorem coordinates_neg_eq {P : Element} (hP : P ≠ 0) :
    coordinates (-P) = ⟨(coordinates P).x, fieldPrime - (coordinates P).y⟩ := by
  have hcurve := onCurve_coordinates hP
  rw [coordinates_of_some (coordinates?_neg (coordinates?_eq_some hP)),
    neg_emod_eq hcurve.2.1 (ordinate_ne_zero hcurve)]

/-- A point and its opposite have ordinates of different parities. -/
theorem coordinates_neg {P : Element} (hP : P ≠ 0) :
    (coordinates (-P)).x = (coordinates P).x ∧
      (coordinates (-P)).y % 2 = 1 - (coordinates P).y % 2 := by
  have hprime : (fieldPrime : Int) % 2 = 1 := by decide
  rw [coordinates_neg_eq hP]
  refine ⟨rfl, ?_⟩
  dsimp only
  omega

/-- Every element is annihilated by the order. -/
@[simp] theorem order_nsmul (P : Element) : order • P = 0 :=
  nsmul_eq_zero_of_base abscissa_ne_root (by decide +kernel) base_ne_zero order_nsmul_base P

theorem emod_order_zsmul (k : Int) (P : Element) : (k % order) • P = k • P :=
  emod_zsmul (order_nsmul P) k

/-! ## Section 4: Multiples -/

/-- Multiplying pairs is multiplying elements. -/
theorem multiple_coordinates (d : Int) (P : Element) :
    multiple d (coordinates P) = .ok (coordinates (d • P)) := by
  have h := addMultiple_spec add coordinates add_coordinates 0 P (d % order).toNat
  have hnonneg : 0 ≤ d % order := Int.emod_nonneg d (by decide)
  rw [multiple, ← coordinates_zero, h, zero_add, ← natCast_zsmul, Int.toNat_of_nonneg hnonneg,
    emod_order_zsmul]
  rfl

/-! ## Section 5: The laws of the group -/

/-- A pair that stands for an element: a point of the curve, or the neutral element. -/
def StandsForElement (p : Affine) : Prop := OnCurve p ∨ p = identity

/-- The opposite: the point reflected at the horizontal axis, and the neutral element
    for itself. -/
def opposite (p : Affine) : Affine :=
  if p = identity then identity else ⟨p.x, fieldPrime - p.y⟩

theorem standsForElement_iff (p : Affine) :
    StandsForElement p ↔ ∃ P : Element, coordinates P = p := by
  constructor
  · intro h
    rcases h with hcurve | rfl
    · obtain ⟨P, _, hP⟩ := exists_coordinates hcurve
      exact ⟨P, hP⟩
    · exact ⟨0, coordinates_zero⟩
  · intro h
    obtain ⟨P, rfl⟩ := h
    by_cases hP : P = 0
    · rw [hP]
      exact .inr coordinates_zero
    · exact .inl (onCurve_coordinates hP)

theorem opposite_coordinates (P : Element) : opposite (coordinates P) = coordinates (-P) := by
  unfold opposite
  by_cases hP : P = 0
  · rw [hP, if_pos coordinates_zero, neg_zero, coordinates_zero]
  · rw [if_neg (mt coordinates_eq_identity_iff.mp hP), coordinates_neg_eq hP]

/-- Addition of pairs is the group law of the curve: pairs that stand for elements are
    added as the elements are, and with that they are a commutative group. -/
theorem groupLaw_add_on_pairs :
    GroupLaw StandsForElement add identity opposite ∧
      (∀ p, StandsForElement p ↔ ∃ P : Element, coordinates P = p) ∧
      ∀ P Q : Element, add (coordinates P) (coordinates Q) = .ok (coordinates (P + Q)) := by
  refine ⟨?_, standsForElement_iff, add_coordinates⟩
  exact groupLaw_of_view coordinates_injective (fun _ _ => Except.ok.inj) standsForElement_iff
    add_coordinates coordinates_zero opposite_coordinates

end WalletKeys.Secp256k1
