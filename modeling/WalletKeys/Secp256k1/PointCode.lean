import WalletKeys.FixedWidth
import WalletKeys.Secp256k1.Group

/-! # Point codes of secp256k1

    A point is written in one of two forms. The compressed form is a leading
    octet 2 or 3 that tells the parity of the ordinate, and the abscissa; the
    uncompressed form is a leading octet 4 and both coordinates. Reading accepts
    points of the curve with reduced coordinates only, so no point has two codes
    of one form.
-/

namespace WalletKeys.Secp256k1

open WalletKeys.Geometry WalletKeys.Modular

/-- The two forms of a point code. -/
inductive Form where
  | compressed
  | uncompressed
  deriving DecidableEq, Repr

/-- The number of octets of a code. -/
def Form.length : Form → Nat
  | .compressed => 33
  | .uncompressed => 65

/-- The point with abscissa `x` whose ordinate has the parity `odd`. The prime
    leaves 3 modulo 4, so a single power is the only candidate for a root. -/
def lift (x odd : Int) : Except CurveFault Affine :=
  if ¬(0 ≤ x ∧ x < fieldPrime) then .error .abscissaRange
  else
    let square := (x * x * x + 7) % fieldPrime
    let root := power square ((fieldPrime + 1) / 4) fieldPrime
    if root * root % fieldPrime ≠ square then .error .abscissaOffCurve
    else .ok ⟨x, if root % 2 ≠ odd then fieldPrime - root else root⟩

/-- The code of a point. Coordinates are written as they are; a compressed code
    keeps no more of the ordinate than its parity. -/
def encode (form : Form) (p : Affine) : Except CurveFault Octets :=
  match form with
  | .compressed => do
    let x ← FixedWidth.write 32 p.x
    return (if p.y % 2 = 1 then 3 else 2) :: x
  | .uncompressed => do
    let x ← FixedWidth.write 32 p.x
    let y ← FixedWidth.write 32 p.y
    return 4 :: (x ++ y)

/-- The point that a code names. -/
def decode (code : Octets) : Except CurveFault Affine :=
  match code with
  | [] => .error .pointCodeShape
  | lead :: body =>
    if body.length = 32 ∧ (lead = 2 ∨ lead = 3) then
      lift (Octets.toNat body) (lead.toNat % 2 : Nat)
    else if body.length = 64 ∧ lead = 4 then
      let p : Affine := ⟨Octets.toNat (body.take 32), Octets.toNat (body.drop 32)⟩
      if OnCurve p then .ok p else .error .pointOffCurve
    else .error .pointCodeShape

end WalletKeys.Secp256k1
