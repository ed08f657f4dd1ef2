import WalletKeys.Nonce.Search
import WalletKeys.Secp256k1.PointCode

/-! # Recoverable ECDSA on secp256k1

    A signature is a pair of scalars and a recovery id, which tells the signer's
    point apart from the other points that the pair fits: bit 0 is the parity of
    the nonce point's ordinate, bit 1 says that its abscissa exceeds the group
    order. Of the two scalars `s` and `order - s` the smaller one is kept, and
    the parity bit follows the choice.

    `sign` takes its nonces from any source. `verify` and `recover` are the two
    ways to check the result.
-/

namespace WalletKeys.Secp256k1

open WalletKeys.Geometry WalletKeys.Modular WalletKeys.Nonce

/-! ## Section 1: Keys -/

/-- The scalar of a 32-octet secret, in `[1, order)`. -/
def scalarOfOctets (secret : Octets) : Except CurveFault Int :=
  if secret.length ≠ 32 then .error .secretLength
  else if secret.toNat = 0 ∨ order ≤ secret.toNat then .error .secretRange
  else .ok secret.toNat

/-- The code of the public point of a scalar. -/
def publicCode (form : Form) (d : Int) : Except CurveFault Octets := do
  let p ← multiple d generator
  encode form p

/-- The code of the public point of a secret. -/
def publicCodeOfSecret (form : Form) (secret : Octets) : Except CurveFault Octets := do
  let d ← scalarOfOctets secret
  publicCode form d

/-! ## Section 2: Signing -/

/-- A recoverable signature. -/
structure Signature where
  r : Int
  s : Int
  /-- The recovery id, or a number derived from it. -/
  v : Int
  deriving DecidableEq, Repr

/-- Why a nonce gives no signature. -/
inductive Rejection where
  /-- The abscissa of the nonce point is a multiple of the order. -/
  | zeroR
  /-- The second scalar would be zero. -/
  | zeroS
  deriving DecidableEq, Repr

/-- The recovery id of a nonce point: does its abscissa exceed the order, and
    is its ordinate odd? -/
def recoveryId (exceeds odd : Bool) : Int :=
  (if exceeds then 2 else 0) + (if odd then 1 else 0)

/-- The signature that a nonce point gives, with the smaller second scalar. -/
def normalized (nonce : Affine) (s : Int) : Signature :=
  let exceeds := decide ((order : Int) ≤ nonce.x)
  let odd := decide (nonce.y % 2 = 1)
  -- `order - s` belongs to the reflected nonce point, whose ordinate has the other parity.
  if (order : Int) / 2 < s then ⟨nonce.x % order, order - s, recoveryId exceeds !odd⟩
  else ⟨nonce.x % order, s, recoveryId exceeds odd⟩

/-- What becomes of nonce `k` when the scalar `d` signs the number `z`. -/
def judge (d z k : Int) : Except CurveFault (Verdict Rejection Signature) := do
  let nonce ← multiple k generator
  let r := nonce.x % order
  if r = 0 then return .rejected .zeroR
  let inverted ← inverse k order
  let s := inverted * (z + r * d) % order
  if s = 0 then return .rejected .zeroS
  return .accepted (normalized nonce s)

/-- The signature of scalar `d` over a 32-octet hash, by the first usable nonce
    of a source. -/
def sign (source : Source) (d : Int) (hash : Octets) : Run Rejection Signature :=
  if hash.length ≠ 32 then ⟨[], .error .hashLength⟩
  else source.search (judge d hash.toNat)

/-- The nonces that belong to a scalar and a hash. -/
def nonces (derivation : Derivation) (d : Int) (hash : Octets) : Source :=
  Source.derived derivation ⟨order, d, hash, []⟩

/-- The signature by derived nonces. -/
def signDerived (derivation : Derivation) (d : Int) (hash : Octets) : Except CurveFault Signature :=
  (sign (nonces derivation d hash) d hash).result

/-- The signature of a 32-octet secret whose recovery id is counted from 27, as
    wallets expect it. -/
def signRecoverable (derivation : Derivation) (secret hash : Octets) :
    Except CurveFault Signature := do
  let d ← scalarOfOctets secret
  let σ ← signDerived derivation d hash
  return { σ with v := 27 + σ.v }

/-! ## Section 3: Checking -/

/-- Scalars of a signature lie in `[1, order)`. -/
def InRange (r s : Int) : Prop := (0 < r ∧ r < order) ∧ (0 < s ∧ s < order)

instance (r s : Int) : Decidable (InRange r s) := by
  unfold InRange
  infer_instance

/-- Whether `(r, s)` is a signature over `hash` by the key with the given code.
    Both choices of the second scalar are accepted. -/
def verify (hash : Octets) (r s : Int) (code : Octets) : Except CurveFault Bool :=
  if hash.length ≠ 32 ∨ ¬InRange r s then .ok false
  else
    match decode code with
    | .error _ => .ok false
    | .ok key => do
      let inverted ← inverse s order
      let fromHash ← multiple (hash.toNat * inverted % order) generator
      let fromKey ← multiple (r * inverted % order) key
      let nonce ← add fromHash fromKey
      return nonce ≠ identity ∧ nonce.x % order = r

/-- The public point that fits a signature over a hash and its recovery id. -/
def recoverPoint (hash : Octets) (r s id : Int) : Except CurveFault Affine := do
  if ¬InRange r s ∨ ¬(0 ≤ id ∧ id ≤ 3) then .error .invalidSignature
  -- Bit 1 of the id says that the order was lost when `r` was reduced.
  let x := if 2 ≤ id then r + order else r
  if (fieldPrime : Int) ≤ x then .error .recoveryOverflow
  let nonce ← lift x (id % 2)
  let inverted ← inverse r order
  -- From `s * nonce = hash * generator + r * key`, solved for the key.
  let fromHash ← multiple (-(hash.toNat % order) * inverted % order) generator
  let fromNonce ← multiple (s * inverted % order) nonce
  let key ← add fromHash fromNonce
  if key = identity then .error .recoveredIdentity
  return key

/-- The code of the recovered point, for a 32-octet hash. -/
def recoverCode (form : Form) (hash : Octets) (r s id : Int) : Except CurveFault Octets := do
  if hash.length ≠ 32 then .error .hashLength
  let key ← recoverPoint hash r s id
  encode form key

end WalletKeys.Secp256k1
