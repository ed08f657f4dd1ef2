import WalletKeys.Fault
import WalletKeys.Key.Curve

/-! # Faults of the key layer

    Keys and signatures report faults in their own terms: a malformed secret, a
    digest that cannot be signed, and so on. A fault of the curve layer reaches
    the user in one of two ways. `refusing` restates faults about values as
    faults of the object at hand and keeps their message; all other faults, and
    those that `passing` lets through, stay what they are.
-/

namespace WalletKeys

/-- Why an operation on keys was refused. -/
inductive KeyFault where
  /-- A secret that is not 32 octets or holds no set bit. -/
  | secretShape
  /-- A secret that a curve refuses. -/
  | refusedSecret (cause : CurveFault)
  /-- A digest that is not 32 octets long. -/
  | digestLength (got : Nat)
  /-- A digest that needs more than 251 bits. -/
  | digestRange
  /-- A signature of the wrong length. -/
  | signatureLength (expected got : Nat)
  /-- A signature scalar outside of the group order's range. -/
  | scalarRange
  /-- A recovery id above 3. -/
  | recoveryIdRange
  /-- A signature that a curve refuses. -/
  | refusedSignature (cause : CurveFault)
  /-- A public key of the wrong length for its type. -/
  | publicKeyLength (type : KeyType) (got : Nat)
  /-- A public key that a curve refuses. -/
  | refusedPublicKey (cause : CurveFault)
  /-- An abscissa of no curve point. -/
  | keyOffCurve
  /-- Something given for a curve that is none. -/
  | unsupportedCurve (given : Stray)
  /-- Something given for a public key type that is none. -/
  | unsupportedType (given : Stray)
  /-- A key given something for its type that has no curve. -/
  | untyped (given : Stray)
  /-- A key of one curve given a type of the other. -/
  | wrongKey (type : KeyType)
  /-- A public key asked for in terms of the other curve. -/
  | otherCurve (asked : Curve) (type : KeyType)
  /-- A private key whose secret has been overwritten. -/
  | closed
  /-- An open private key with fewer octets than a secret has. -/
  | bufferLength
  /-- A secret given as something other than octets. -/
  | notOctets (kind : String)
  /-- A secret given as something that has no length. -/
  | unmeasured (kind : String)
  /-- A fault of the curve layer, let through. -/
  | curve (cause : CurveFault)
  deriving DecidableEq, Repr

namespace KeyFault

/-- The sentence that reports a fault. -/
def message : KeyFault → String
  | secretShape => "secret key must be 32 bytes and not all zero"
  | refusedSecret cause | refusedSignature cause | refusedPublicKey cause | curve cause =>
    cause.message
  | digestLength got => "hash must be 32 bytes, got " ++ toString got
  | digestRange => "hash must be below 2^251"
  | signatureLength expected got =>
    "signature must be " ++ toString expected ++ " bytes, got " ++ toString got
  | scalarRange => "r and s must be in [1, n)"
  | recoveryIdRange => "recovery id must be in 0..3"
  | publicKeyLength type got =>
    type.name ++ " public key must be " ++ toString type.length ++ " bytes, got " ++ toString got
  | keyOffCurve => "stark key is not on the curve"
  | unsupportedCurve given => "unsupported curve: " ++ given.shown
  | unsupportedType given => "unsupported public key type: " ++ given.shown
  | untyped given => Text.quoted given.kind ++ " object has no attribute 'curve'"
  | wrongKey type =>
    type.name ++ " public key needs curvekeys.keys." ++ type.curve.name ++ ".PublicKey"
  | otherCurve asked type => "not a " ++ asked.name ++ " public key: " ++ type.shown
  | closed => "private key is closed"
  | bufferLength => "'PrivateKey._bytes' has an unexpected length"
  | notOctets kind =>
    "memoryview: a bytes-like object is required, not " ++ Text.quoted kind
  | unmeasured kind => "object of type " ++ Text.quoted kind ++ " has no len()"

/-- The branch of the taxonomy that a fault belongs to. -/
def category : KeyFault → Category
  | secretShape | refusedSecret _ => .secretKey
  | digestLength _ | digestRange => .signMessage
  | signatureLength _ _ | scalarRange | recoveryIdRange | refusedSignature _ => .signature
  | publicKeyLength _ _ | refusedPublicKey _ | keyOffCurve => .publicKey
  | unsupportedCurve _ | unsupportedType _ | wrongKey _ | otherCurve _ _ | closed => .value
  | untyped _ => .member
  | bufferLength => .assertion
  | notOctets _ | unmeasured _ => .kind
  | curve cause => cause.category

/-- Restates a curve fault about a value in the terms of `restated`. -/
def refusing {α : Type} (restated : CurveFault → KeyFault) :
    Except CurveFault α → Except KeyFault α
  | .ok value => .ok value
  | .error cause =>
    .error (if cause.category.isA .value then restated cause else .curve cause)

/-- Lets curve faults through. -/
def passing {α : Type} : Except CurveFault α → Except KeyFault α
  | .ok value => .ok value
  | .error cause => .error (.curve cause)

end KeyFault

end WalletKeys
