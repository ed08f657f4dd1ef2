import WalletKeys.Key.Outcome

/-! # Keys and signatures of the STARK curve

    A signature travels on 64 octets, two field elements of 32. A public key is
    an abscissa on 32 octets. A secret key is any field element: whether the
    group order divides it shows only when it is used.
-/

namespace WalletKeys.Stark

open KeyFault (refusing passing)
open WalletKeys.Nonce (Derivation)

/-! ## Section 1: Signatures -/

/-- The number of octets of a signature. -/
def Signature.length : Nat := 64

/-- The octets of the first scalar. -/
def Signature.rOctets (σ : Signature) : Except CurveFault Octets := FixedWidth.write 32 σ.r

/-- The octets of the second scalar. -/
def Signature.sOctets (σ : Signature) : Except CurveFault Octets := FixedWidth.write 32 σ.s

/-- The octets of a signature: `r`, then `s`. -/
def Signature.toOctets (σ : Signature) : Except CurveFault Octets := do
  let r ← σ.rOctets
  let s ← σ.sOctets
  return r ++ s

/-- The signature on 64 octets, with both halves field elements. -/
def Signature.ofOctets (octets : Octets) : Except KeyFault Signature :=
  if octets.length ≠ Signature.length then
    .error (.signatureLength Signature.length octets.length)
  else
    refusing .refusedSignature do
      let r ← elementOfOctets (octets.take 32)
      let s ← elementOfOctets (octets.drop 32)
      return ⟨r, s⟩

/-! ## Section 2: Public keys -/

/-- A public key. -/
structure PublicKey where
  x : Int
  deriving DecidableEq, Repr

namespace PublicKey

/-- The octets of a key. -/
def toOctets (key : PublicKey) : Except CurveFault Octets := FixedWidth.write 32 key.x

/-- The key on 32 octets, the abscissa of a curve point. -/
def ofOctets (octets : Octets) : Except KeyFault PublicKey := do
  let x ← refusing .refusedPublicKey (elementOfOctets octets)
  match ordinate? x with
  | none => .error .keyOffCurve
  | some _ => return ⟨x⟩

/-- Whether a signature over a hash is by this key. -/
def verify (key : PublicKey) (σ : Signature) (hash : Int) : Bool :=
  Stark.verify key.x hash σ.r σ.s

end PublicKey

/-! ## Section 3: Secret keys -/

/-- A secret field element. -/
structure SecretKey where
  element : Int

namespace SecretKey

/-- The key of 32 octets that denote a field element. -/
def ofOctets (octets : Octets) : Except KeyFault SecretKey := do
  let element ← refusing .refusedSecret (elementOfOctets octets)
  return ⟨element⟩

/-- A digest in the form that this curve signs: a number of 251 bits. -/
def signingHash (digest : Octets) : Except KeyFault Int :=
  if digest.length ≠ 32 then .error (.digestLength digest.length)
  else if bound ≤ digest.toNat then .error .digestRange
  else .ok digest.toNat

/-- The signature over a hash, with an event for each nonce turned down. -/
def sign (derivation : Derivation) (key : SecretKey) (hash : Int) : Outcome Signature :=
  if ¬(0 ≤ hash ∧ hash < bound) then .ofResult (.error .digestRange)
  else
    let run := signDerived derivation key.element hash
    ⟨run.rejections.map .reseeded, refusing .refusedSecret run.result⟩

/-- The signature over a digest. -/
def signDigest (derivation : Derivation) (key : SecretKey) (digest : Octets) :
    Outcome Signature := do
  let hash ← signingHash digest
  key.sign derivation hash

/-- The public key. -/
def publicKey (key : SecretKey) : Except KeyFault PublicKey := do
  let x ← refusing .refusedSecret (publicAbscissa key.element)
  return ⟨x⟩

/-- What is shown of a secret key. -/
def description (_key : SecretKey) : String := "starkex.PrivateKey(<hidden>)"

end SecretKey

end WalletKeys.Stark
