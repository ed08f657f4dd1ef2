import WalletKeys.Stark.Nonce

/-! # ECDSA on the STARK curve

    Both scalars of a signature have to fit 251 bits, so a nonce is turned down
    when one of them does not. Verification knows the abscissa of the key only,
    and accepts if one of the two points above it fits.
-/

namespace WalletKeys.Stark

open WalletKeys.Geometry WalletKeys.Modular
open WalletKeys.Nonce (Derivation Source Verdict Run)

/-! ## Section 1: Signing -/

/-- A signature. -/
structure Signature where
  r : Int
  s : Int
  deriving DecidableEq, Repr

/-- Why a nonce gives no signature. -/
inductive Rejection where
  /-- The abscissa of the nonce point is zero or too large. -/
  | unusableR
  /-- The second scalar is zero or too large. -/
  | unusableS
  deriving DecidableEq, Repr

/-- A scalar that a signature may hold: positive and of 251 bits. -/
def Usable (x : Int) : Prop := 1 ≤ x ∧ x < bound

instance (x : Int) : Decidable (Usable x) := by
  unfold Usable
  infer_instance

/-- What becomes of nonce `k` when the scalar `d` signs the number `hash`. -/
def judge (d hash k : Int) : Except CurveFault (Verdict Rejection Signature) :=
  match multiple k generator with
  | none => .error .nonceMultiple
  | some nonce =>
    if ¬Usable nonce.x then .ok (.rejected .unusableR)
    else
      let s := (hash + nonce.x * d) * fermat k order % order
      if ¬Usable s then .ok (.rejected .unusableS)
      else .ok (.accepted ⟨nonce.x, s⟩)

/-- The signature of a secret over a hash, by the first usable nonce of a
    source. -/
def sign (source : Source) (secret hash : Int) : Run Rejection Signature :=
  if ¬(0 ≤ hash ∧ hash < bound) then ⟨[], .error .hashRange⟩
  else
    let d := secret % order
    if d = 0 then ⟨[], .error .secretMultiple⟩
    else source.search (judge d hash)

/-- The signature by derived nonces. -/
def signDerived (derivation : Derivation) (secret hash : Int) : Run Rejection Signature :=
  sign (nonces derivation secret hash) secret hash

/-! ## Section 2: Checking -/

/-- Whether a point is affine and has a given abscissa. -/
def hasAbscissa (r : Int) : Point → Bool
  | none => false
  | some p => p.x = r

/-- Whether `(r, s)` is a signature over `hash` by one of the points with
    abscissa `key`, one of which is found by `ordinate`. -/
def verifyBy (ordinate : Int → Option Int) (key hash r s : Int) : Bool :=
  if ¬(0 ≤ hash ∧ hash < bound) then false
  else if ¬(Usable r ∧ 1 ≤ s ∧ s < order) then false
  else
    match ordinate key with
    | none => false
    | some y =>
      let inverted := fermat s order
      let fromHash := multiple (hash * inverted) generator
      let fromKey := multiple (r * inverted) (some ⟨key, y⟩)
      -- The root `y` may be the wrong one of two, so both points above `key` are tried.
      hasAbscissa r (add fromHash fromKey) || hasAbscissa r (add fromHash (neg fromKey))

/-- Whether `(r, s)` is a signature over `hash` by one of the points with
    abscissa `key`. -/
def verify (key hash r s : Int) : Bool := verifyBy ordinate? key hash r s

end WalletKeys.Stark
