import WalletKeys.Geometry.Affine
import WalletKeys.FixedWidth
import WalletKeys.Modular.SquareRoot

/-! # The group of the STARK curve

    The curve `y² = x³ + x + constant` over the field of `fieldPrime` elements.
    The neutral element is `none`. Slopes are divided out by a power of the
    denominator, which needs no case for a missing inverse, so the operations
    are total.

    `ordinate?` finds one of the two points above an abscissa. Keys of this curve
    are abscissas alone, so either point will do.
-/

namespace WalletKeys.Stark

open WalletKeys.Geometry WalletKeys.Modular

/-! ## Section 1: Parameters -/

/-- The number of field elements, `2^251 + 17 * 2^192 + 1`. -/
def fieldPrime : Nat := 0x0800000000000011000000000000000000000000000000000000000000000001

/-- The number of points, the neutral element included. -/
def order : Nat := 0x0800000000000010ffffffffffffffffb781126dcae7b2321e66a241adc64d2f

/-- Message hashes and signature scalars stay below this bound, `2^251`. -/
def bound : Nat := 0x0800000000000000000000000000000000000000000000000000000000000000

/-- The linear coefficient of the curve equation. -/
def linear : Int := 1

/-- The constant coefficient of the curve equation. -/
def constant : Int := 0x06f21413efbe40de150e596d72f7a8c5609ad26c15c915c1f4cdfcb99cee9e89

/-- A point: a pair of coordinates, or the neutral element. -/
abbrev Point := Option Affine

/-- The base point of keys and nonces. -/
def generator : Point :=
  some ⟨0x01ef15c18599971b7beced415a40f0c7deacfd9b0d1819e03d723d8bc943cfca,
    0x005668060aa49730b7be4801df46ec62de53ecd11abe43a32873000c36e8dc1f⟩

/-- The field, split for square roots. -/
def rootField : RootField where
  prime := fieldPrime
  twos := 192
  odd := 0x0800000000000011
  prime_eq := by decide
  nonSquare := 3

/-- Reduced coordinates that satisfy the curve equation. -/
def OnCurve (p : Affine) : Prop :=
  (0 ≤ p.x ∧ p.x < fieldPrime) ∧ (0 ≤ p.y ∧ p.y < fieldPrime) ∧
    (p.y * p.y - (p.x * p.x * p.x + linear * p.x + constant)) % fieldPrime = 0

instance (p : Affine) : Decidable (OnCurve p) := by
  unfold OnCurve
  infer_instance

/-! ## Section 2: Operations -/

/-- The sum of two points: the reflected third point of their line. -/
def add (p q : Point) : Point :=
  match p, q with
  | none, q => q
  | p, none => p
  | some p, some q =>
    match line linear p q with
    | .vertical => none
    | .sloped numerator denominator =>
      some (thirdPoint fieldPrime (numerator * fermat denominator fieldPrime % fieldPrime) p q)

/-- The point reflected at the horizontal axis. -/
def neg (p : Point) : Point :=
  p.map fun p => ⟨p.x, -p.y % fieldPrime⟩

/-- The multiple `k * p`, for `k` reduced by the number of points. -/
def multiple (k : Int) (p : Point) : Point :=
  Id.run (addMultiple (fun p q => pure (add p q)) none p (k % order).toNat)

/-! ## Section 3: Abscissas -/

/-- An ordinate of the points with abscissa `x`, if there are any. -/
def ordinate? (x : Int) : Option Int :=
  if ¬(0 ≤ x ∧ x < fieldPrime) then none
  else rootField.sqrt? (x * x * x + linear * x + constant)

/-- The field element that 32 octets denote. -/
def elementOfOctets (octets : Octets) : Except CurveFault Int :=
  if octets.length ≠ 32 then .error .elementLength
  else if fieldPrime ≤ octets.toNat then .error .elementRange
  else .ok octets.toNat

/-- The public key of a secret: the abscissa of its public point. -/
def publicAbscissa (secret : Int) : Except CurveFault Int :=
  match multiple secret generator with
  | none => .error .secretMultiple
  | some p => .ok p.x

end WalletKeys.Stark
