import WalletKeys.Key.Fault
import WalletKeys.Secp256k1.Ecdsa

/-! # Keys and signatures of secp256k1

    A signature travels on 65 octets: two scalars of 32 octets and the recovery
    id. A public key is a point, with its two codes. Reading checks all that the
    curve layer relies on; objects put together by hand are not checked until
    they are used.
-/

namespace WalletKeys.Secp256k1

open WalletKeys.Geometry
open KeyFault (refusing passing)
open WalletKeys.Nonce (Derivation)

/-! ## Section 1: Signatures -/

/-- The number of octets of a signature. -/
def Signature.length : Nat := 65

/-- The octets of a signature: `r`, `s`, then the recovery id. -/
def Signature.toOctets (σ : Signature) : Except CurveFault Octets := do
  let r ← FixedWidth.write 32 σ.r
  let s ← FixedWidth.write 32 σ.s
  let v ← FixedWidth.octet σ.v
  return r ++ s ++ [v]

/-- The signature on 65 octets, with scalars in `[1, order)` and a recovery id
    up to 3. -/
def Signature.ofOctets (octets : Octets) : Except KeyFault Signature :=
  if octets.length ≠ Signature.length then
    .error (.signatureLength Signature.length octets.length)
  else
    let r := Octets.toNat (octets.take 32)
    let s := Octets.toNat ((octets.drop 32).take 32)
    let v := Octets.toNat (octets.drop 64)
    if ¬InRange r s then .error .scalarRange
    else if 3 < v then .error .recoveryIdRange
    else .ok ⟨r, s, v⟩

/-! ## Section 2: Public keys -/

/-- A public key. -/
structure PublicKey where
  point : Affine
  deriving DecidableEq, Repr

namespace PublicKey

/-- The code of a key in one of the two forms. -/
def code (key : PublicKey) (form : Form) : Except CurveFault Octets := encode form key.point

/-- The key that a code of either form names. -/
def ofOctets (octets : Octets) : Except KeyFault PublicKey := do
  let point ← refusing .refusedPublicKey (decode octets)
  return ⟨point⟩

/-- The key that made a signature over a hash. -/
def recover (σ : Signature) (hash : Octets) : Except KeyFault PublicKey := do
  let code ← refusing .refusedSignature (recoverCode .uncompressed hash σ.r σ.s σ.v)
  ofOctets code

/-- Whether a signature over a hash is by this key. The recovery id is not
    looked at. -/
def verify (key : PublicKey) (σ : Signature) (hash : Octets) : Except CurveFault Bool := do
  let code ← key.code .uncompressed
  Secp256k1.verify hash σ.r σ.s code

end PublicKey

/-! ## Section 3: Secret keys -/

/-- A secret scalar. -/
structure SecretKey where
  scalar : Int

namespace SecretKey

/-- The key of 32 octets that denote a scalar in `[1, order)`. -/
def ofOctets (octets : Octets) : Except KeyFault SecretKey := do
  let scalar ← refusing .refusedSecret (scalarOfOctets octets)
  return ⟨scalar⟩

/-- A digest in the form that this curve signs: 32 octets. -/
def signingHash (digest : Octets) : Except KeyFault Octets :=
  if digest.length ≠ 32 then .error (.digestLength digest.length) else .ok digest

/-- The signature over a hash. -/
def sign (derivation : Derivation) (key : SecretKey) (hash : Octets) :
    Except CurveFault Signature :=
  signDerived derivation key.scalar hash

/-- The signature over a digest. -/
def signDigest (derivation : Derivation) (key : SecretKey) (digest : Octets) :
    Except KeyFault Signature := do
  let hash ← signingHash digest
  passing (key.sign derivation hash)

/-- The public key, which is written and read back before it is given out. -/
def publicKey (key : SecretKey) : Except KeyFault PublicKey := do
  let code ← passing (publicCode .uncompressed key.scalar)
  PublicKey.ofOctets code

/-- What is shown of a secret key. -/
def description (_key : SecretKey) : String := "secp256k1.PrivateKey(<hidden>)"

end SecretKey

end WalletKeys.Secp256k1
