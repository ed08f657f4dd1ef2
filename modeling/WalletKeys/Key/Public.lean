import WalletKeys.Key.Secp256k1
import WalletKeys.Key.Stark

/-! # Public keys of any curve

    A public key carries its type, which fixes the octets it is written on: 33
    for a compressed code, 65 for an uncompressed one, 32 for an abscissa. The
    type and the key cannot disagree, and `PublicKey.ofKey` is the one place
    where they are brought together.
-/

namespace WalletKeys

open KeyFault (refusing passing)

/-- A key of one of the curves, without a type. -/
inductive CurveKey where
  | secp256k1 (key : Secp256k1.PublicKey)
  | starkex (key : Stark.PublicKey)
  deriving DecidableEq, Repr

/-- A key of a certain type. -/
inductive PublicKey where
  | secp256k1 (key : Secp256k1.PublicKey)
  | secp256k1Extended (key : Secp256k1.PublicKey)
  | starkex (key : Stark.PublicKey)
  deriving DecidableEq, Repr

namespace PublicKey

/-! ## Section 1: Type and key -/

/-- The type of a key. -/
def type : PublicKey → KeyType
  | secp256k1 _ => .secp256k1
  | secp256k1Extended _ => .secp256k1Extended
  | starkex _ => .starkex

/-- The key without its type. -/
def key : PublicKey → CurveKey
  | secp256k1 key | secp256k1Extended key => .secp256k1 key
  | starkex key => .starkex key

/-- Gives a type to a key of the type's curve. -/
def ofKey : KeyType → CurveKey → Except KeyFault PublicKey
  | .secp256k1, .secp256k1 key => .ok (.secp256k1 key)
  | .secp256k1Extended, .secp256k1 key => .ok (.secp256k1Extended key)
  | .starkex, .starkex key => .ok (.starkex key)
  | type, _ => .error (.wrongKey type)

/-- Gives another type to a key. What is no type is taken to have no curve either. -/
def retag (key : PublicKey) : Selector KeyType → Except KeyFault PublicKey
  | .unknown given => .error (.untyped given)
  | .known type => ofKey type key.key

/-- The point behind a key of secp256k1. -/
def asSecp256k1 (key : PublicKey) : Except KeyFault Secp256k1.PublicKey :=
  match key with
  | secp256k1 inner | secp256k1Extended inner => .ok inner
  | starkex _ => .error (.otherCurve .secp256k1 key.type)

/-- The abscissa behind a key of the STARK curve. -/
def asStarkex (key : PublicKey) : Except KeyFault Stark.PublicKey :=
  match key with
  | starkex inner => .ok inner
  | _ => .error (.otherCurve .starkex key.type)

/-! ## Section 2: Octets -/

/-- The octets of a key, in the form of its type. -/
def toOctets : PublicKey → Except CurveFault Octets
  | secp256k1 key => key.code .compressed
  | secp256k1Extended key => key.code .uncompressed
  | starkex key => key.toOctets

/-- The point code of a given length. -/
def pointOfOctets (type : KeyType) (octets : Octets) : Except KeyFault Secp256k1.PublicKey :=
  if octets.length ≠ type.length then .error (.publicKeyLength type octets.length)
  else Secp256k1.PublicKey.ofOctets octets

/-- The key of a type that is written on some octets. -/
def ofOctets (octets : Octets) : Selector KeyType → Except KeyFault PublicKey
  | .unknown given => .error (.unsupportedType given)
  | .known .secp256k1 => do
    let key ← pointOfOctets .secp256k1 octets
    return .secp256k1 key
  | .known .secp256k1Extended => do
    let key ← pointOfOctets .secp256k1Extended octets
    return .secp256k1Extended key
  | .known .starkex => do
    let key ← Stark.PublicKey.ofOctets octets
    return .starkex key

/-! ## Section 3: Verification -/

/-- Verification that reports malformed signatures and digests. -/
def check (key : PublicKey) (signature digest : Octets) : Except KeyFault Bool :=
  match key with
  | secp256k1 key | secp256k1Extended key => do
    let σ ← Secp256k1.Signature.ofOctets signature
    let hash ← Secp256k1.SecretKey.signingHash digest
    passing (key.verify σ hash)
  | starkex key => do
    let σ ← Stark.Signature.ofOctets signature
    let hash ← Stark.SecretKey.signingHash digest
    return key.verify σ hash

/-- Whether a signature over a digest is by this key. What is malformed was
    signed by nobody. -/
def verify (key : PublicKey) (signature digest : Octets) : Except KeyFault Bool :=
  match key.check signature digest with
  | .ok answer => .ok answer
  | .error fault => if fault.category.isA .keypair then .ok false else .error fault

end PublicKey

end WalletKeys
