import WalletKeys.Key.Public

/-! # Private keys of any curve

    A private key owns a buffer of 32 octets, not all zero, for as long as it is
    open. Closing overwrites the buffer with zeros and cannot be undone. Each use
    reads the buffer anew and makes the secret key of a curve from it, so nothing
    of the secret is kept elsewhere.

    A secret is offered as octets, or by mistake as something else. Making a key
    refuses the latter outright. Judging it (`looksValid`, `isValidOffer`) comes
    as far as the length and the items of the thing allow.
-/

namespace WalletKeys

open KeyFault (refusing passing)
open WalletKeys.Nonce (Derivation)

/-- Something offered as a secret. -/
inductive Offer where
  | octets (contents : Octets)
  /-- Something of another kind. A sequence tells which of its items are set. -/
  | foreign (kind : String) (items : Option (List Bool))
  deriving Repr

/-- A private key. -/
structure PrivateKey where
  /-- The octets of the secret, zeros once the key is closed. -/
  buffer : Octets
  isOpen : Bool
  deriving DecidableEq, Repr

namespace PrivateKey

/-! ## Section 1: Life -/

/-- The number of octets of a secret. -/
def size : Nat := 32

/-- Whether some octets can be a secret: 32 of them, not all zero. -/
def isValidGeneral (octets : Octets) : Bool :=
  octets.length = size && octets.any (· ≠ 0)

/-- An open key with a copy of the given octets. -/
def ofOctets (octets : Octets) : Except KeyFault PrivateKey :=
  if isValidGeneral octets then .ok ⟨octets, true⟩ else .error .secretShape

theorem isValidGeneral_iff {contents : Octets} :
    isValidGeneral contents = true ↔ contents.length = size ∧ ∃ octet ∈ contents, octet ≠ 0 := by
  simp [isValidGeneral]

theorem ofOctets_eq_ok_iff {contents : Octets} {key : PrivateKey} :
    ofOctets contents = .ok key ↔ isValidGeneral contents = true ∧ key = ⟨contents, true⟩ := by
  unfold ofOctets
  split
  · rename_i h
    rw [Except.ok.injEq]
    exact ⟨fun hkey => ⟨h, hkey.symm⟩, fun hkey => hkey.2.symm⟩
  · rename_i h
    exact ⟨nofun, fun hkey => absurd hkey.1 h⟩

/-- The octets of an offer. -/
def taken : Offer → Except KeyFault Octets
  | .octets contents => .ok contents
  | .foreign kind _ => .error (.notOctets kind)

/-- An open key with a copy of what is offered. -/
def ofOffer (offer : Offer) : Except KeyFault PrivateKey := taken offer >>= ofOctets

/-- Overwrites octets with zeros. -/
def wiped (octets : Octets) : Octets := Octets.zeros octets.length

/-- The key after closing it. A closed key stays as it is. -/
def close (key : PrivateKey) : PrivateKey :=
  if key.isOpen then ⟨wiped key.buffer, false⟩ else key

/-- The octets of the secret, while the key is open. That there are enough of them is an
    assertion. -/
def window (key : PrivateKey) : Except KeyFault Octets :=
  if ¬key.isOpen then .error .closed
  else if key.buffer.length < size then .error .bufferLength
  else .ok (key.buffer.take size)

/-- With all octets of a secret the assertion holds, and only closed keys are refused. -/
theorem window_of_length {key : PrivateKey}
    (hlength : key.isOpen = true → key.buffer.length = size) :
    key.window = if key.isOpen then .ok key.buffer else .error .closed := by
  unfold window
  by_cases hopen : key.isOpen = true
  · have hwhole : ¬key.buffer.length < size := Nat.not_lt.mpr (Nat.le_of_eq (hlength hopen).symm)
    rw [if_neg (not_not_intro hopen), if_neg hwhole, if_pos hopen,
      List.take_of_length_le (Nat.le_of_eq (hlength hopen))]
  · rw [if_pos hopen, if_neg hopen]

/-- What is shown of a key. -/
def description (key : PrivateKey) : String :=
  "PrivateKey(<" ++ (if key.isOpen then "hidden" else "closed") ++ ">)"

/-! ## Section 2: Use -/

/-- The secret key of secp256k1. -/
def secp256k1 (key : PrivateKey) : Except KeyFault Secp256k1.SecretKey := do
  let secret ← key.window
  Secp256k1.SecretKey.ofOctets secret

/-- The secret key of the STARK curve. -/
def starkex (key : PrivateKey) : Except KeyFault Stark.SecretKey := do
  let secret ← key.window
  Stark.SecretKey.ofOctets secret

/-- The octets of a signature over a digest on one of the curves. -/
def signOn (derivation : Derivation) (key : PrivateKey) (digest : Octets) :
    Curve → Outcome Octets
  | .secp256k1 => do
    let secret ← key.secp256k1
    let σ ← secret.signDigest derivation digest
    passing σ.toOctets
  | .starkex => do
    let secret ← key.starkex
    let σ ← secret.signDigest derivation digest
    passing σ.toOctets

/-- The signature over a digest on a chosen curve. -/
def sign (derivation : Derivation) (key : PrivateKey) (digest : Octets) :
    Selector Curve → Outcome Octets
  | .unknown given => .ofResult (.error (.unsupportedCurve given))
  | .known curve => do
    let signature ← key.signOn derivation digest curve
    Outcome.note (.signed curve signature.length)
    return signature

/-- The public key of a certain type. -/
def publicKeyOf (key : PrivateKey) : KeyType → Except KeyFault PublicKey
  | .secp256k1 => do
    let secret ← key.secp256k1
    let inner ← secret.publicKey
    return .secp256k1 inner
  | .secp256k1Extended => do
    let secret ← key.secp256k1
    let inner ← secret.publicKey
    return .secp256k1Extended inner
  | .starkex => do
    let secret ← key.starkex
    let inner ← secret.publicKey
    return .starkex inner

/-- The public key of a chosen type. -/
def publicKey (key : PrivateKey) : Selector KeyType → Outcome PublicKey
  | .unknown given => .ofResult (.error (.unsupportedType given))
  | .known type => do
    let derived ← key.publicKeyOf type
    Outcome.note (.derived type)
    return derived

/-- Whether a curve accepts some octets as a secret. -/
def accepts (octets : Octets) : Curve → Except KeyFault Unit
  | .secp256k1 => do
    let _ ← Secp256k1.SecretKey.ofOctets octets
  | .starkex => do
    let _ ← Stark.SecretKey.ofOctets octets

/-- Whether some octets can be a secret on a chosen curve. Octets that cannot be
    a secret at all are turned down before the choice is looked at. -/
def isValid (octets : Octets) (choice : Selector Curve) : Except KeyFault Bool :=
  if ¬isValidGeneral octets then .ok false
  else
    match choice with
    | .unknown given => .error (.unsupportedCurve given)
    | .known curve =>
      match accepts octets curve with
      | .ok _ => .ok true
      -- Only a refusal of the secret means no. Any other fault is not an answer.
      | .error fault => if fault.category.isA .secretKey then .ok false else .error fault

/-! ## Section 3: Offers -/

/-- Whether an offer looks like a secret. Kinds that are not octets are judged
    by their items. -/
def looksValid : Offer → Except KeyFault Bool
  | .octets contents => .ok (isValidGeneral contents)
  | .foreign kind none => .error (.unmeasured kind)
  | .foreign _ (some items) => .ok (items.length = size && items.any id)

/-- Whether an offer can be a secret on a chosen curve. -/
def isValidOffer (choice : Selector Curve) : Offer → Except KeyFault Bool
  | .octets contents => isValid contents choice
  | .foreign kind items => do
    if ← looksValid (.foreign kind items) then .error (.notOctets kind) else return false

end PrivateKey

/-! ## Section 4: Release -/

/-- The version that the library reports. -/
def version : String := "0.1.0"

end WalletKeys
