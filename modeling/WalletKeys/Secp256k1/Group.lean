import WalletKeys.Geometry.Affine
import WalletKeys.Modular.Inverse

/-! # The group of secp256k1

    The curve `y² = x³ + 7` over the field of `fieldPrime` elements. Points are
    pairs of coordinates, and `(0, 0)`, which violates the equation, stands for
    the neutral element. The operations are defined on any pair of integers and
    reduce what they return. Off the curve a slope may have no inverse, so
    addition can be refused.
-/

namespace WalletKeys.Secp256k1

open WalletKeys.Geometry WalletKeys.Modular

/-! ## Section 1: Parameters -/

/-- The number of field elements. -/
def fieldPrime : Nat := 0xfffffffffffffffffffffffffffffffffffffffffffffffffffffffefffffc2f

/-- The number of points, the neutral element included. -/
def order : Nat := 0xfffffffffffffffffffffffffffffffebaaedce6af48a03bbfd25e8cd0364141

/-- The base point of keys and nonces. -/
def generator : Affine :=
  ⟨0x79be667ef9dcbbac55a06295ce870b07029bfcdb2dce28d959f2815b16f81798,
    0x483ada7726a3c4655da4fbfc0e1108a8fd17b448a68554199c47d08ffb10d4b8⟩

/-- The neutral element. -/
def identity : Affine := ⟨0, 0⟩

/-- Reduced coordinates that satisfy the curve equation. -/
def OnCurve (p : Affine) : Prop :=
  (0 ≤ p.x ∧ p.x < fieldPrime) ∧ (0 ≤ p.y ∧ p.y < fieldPrime) ∧
    (p.y * p.y - p.x * p.x * p.x - 7) % fieldPrime = 0

instance (p : Affine) : Decidable (OnCurve p) := by
  unfold OnCurve
  infer_instance

/-! ## Section 2: Operations -/

/-- The sum of two points: the reflected third point of their line. -/
def add (p q : Affine) : Except CurveFault Affine :=
  if p = identity then .ok q
  else if q = identity then .ok p
  else
    match line 0 p q with
    | .vertical => .ok identity
    | .sloped numerator denominator => do
      let inverted ← inverse denominator fieldPrime
      return thirdPoint fieldPrime (numerator * inverted % fieldPrime) p q

/-- The multiple `d * p`, for `d` reduced by the number of points. -/
def multiple (d : Int) (p : Affine) : Except CurveFault Affine :=
  addMultiple add identity p (d % order).toNat

end WalletKeys.Secp256k1
