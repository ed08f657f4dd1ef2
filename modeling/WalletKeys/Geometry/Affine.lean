import WalletKeys.Fault

/-! # Affine points, lines and multiples

    What the two curves of this library share: the line through two points, the
    third point in which it meets the curve, reflected, and multiplication of a
    group element by a number of any size.

    The formulas hold for every curve `y² = x³ + a * x + b`, where `b` does not
    enter. How a slope is divided out and how the neutral element is written are
    left to the curves.
-/

namespace WalletKeys.Geometry

/-- A pair of coordinates. -/
structure Affine where
  x : Int
  y : Int
  deriving DecidableEq, Repr

/-! ## Section 1: Lines -/

/-- The line through two points, or the tangent if they coincide. -/
inductive Line where
  /-- It meets the curve in no third affine point. -/
  | vertical
  /-- Its slope is a quotient. -/
  | sloped (numerator denominator : Int)

/-- The line through `p` and `q` on a curve with linear coefficient `a`. -/
def line (a : Int) (p q : Affine) : Line :=
  if p.x = q.x then
    if p.y ≠ q.y ∨ p.y = 0 then .vertical else .sloped (3 * p.x * p.x + a) (2 * p.y)
  else .sloped (q.y - p.y) (q.x - p.x)

/-- The reflected third point of the line with a given slope through `p` and `q`. -/
def thirdPoint (prime : Nat) (slope : Int) (p q : Affine) : Affine :=
  let x := (slope * slope - p.x - q.x) % prime
  ⟨x, (slope * (p.x - x) - p.y) % prime⟩

/-! ## Section 2: Multiples -/

/-- Adds `k` times `base` to `sum`, by doubling the base once for each binary
    digit of `k`, the last digit included. -/
def addMultiple {m : Type → Type} [Monad m] {α : Type} (add : α → α → m α)
    (sum base : α) (k : Nat) : m α :=
  if _h : k = 0 then pure sum
  else do
    let sum ← if k % 2 = 1 then add sum base else pure sum
    let base ← add base base
    addMultiple add sum base (k / 2)
termination_by k
decreasing_by omega

end WalletKeys.Geometry
