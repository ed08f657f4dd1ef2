import WalletKeys.Session.Vault

/-! # Actions on the vault

    An action is what a caller can do in one go. It answers with a value or a
    fault and may write log events. After a fault the vault is as before, except
    that a buffer offered as a secret is overwritten in any case.
-/

namespace WalletKeys.Session

open KeyFault (passing)
open WalletKeys.Nonce (Derivation)

/-! ## Section 1: Actions and answers -/

/-- Where the octets of a secret come from. -/
inductive Input where
  /-- Something that nobody can change. -/
  | given (offer : Offer)
  /-- A buffer of the caller, which gives its contents away. -/
  | buffer (name : String)
  /-- A look at a buffer of the caller, which stays as it is. -/
  | bufferView (name : String)
  /-- A view of a private key. -/
  | view (name : String)
  deriving Repr

/-- What a caller can do in one go. -/
inductive Action where
  /-- Makes a buffer. -/
  | newBuffer (name : String) (contents : Octets)
  /-- Sets one octet of a buffer; a negative index counts from the end. -/
  | setOctet (name : String) (index value : Int)
  /-- Replaces all contents of a buffer. -/
  | assign (name : String) (contents : Octets)
  /-- Makes a private key. -/
  | newKey (name : String) (input : Input)
  /-- Gives up a private key. -/
  | dropKey (name : String)
  /-- Keeps a view of a private key. -/
  | view (key target : String)
  /-- Tries to write through a view. -/
  | writeView (name : String)
  /-- Closes a private key. -/
  | close (key : String)
  /-- Asks whether a private key is closed. -/
  | isClosed (key : String)
  /-- Asks what is shown of a private key. -/
  | describe (key : String)
  /-- Asks whether some octets can be a secret. -/
  | isValidGeneral (input : Input)
  /-- Asks whether some octets can be a secret on a curve. -/
  | isValid (input : Input) (curve : Selector Curve)
  /-- Signs a digest. -/
  | sign (key : String) (digest : Octets) (curve : Selector Curve)
  /-- Derives a public key and keeps it. -/
  | derive (key : String) (type : Selector KeyType) (target : String)
  /-- Reads a public key and keeps it. -/
  | readPublic (target : String) (contents : Octets) (type : Selector KeyType)
  /-- Gives another type to a public key and keeps the result. -/
  | retag (source : String) (type : Selector KeyType) (target : String)
  /-- Asks for the octets of a public key. -/
  | publicOctets (name : String)
  /-- Verifies a signature. -/
  | verify (name : String) (signature digest : Octets)
  /-- Asks for the key of a curve behind a public key. -/
  | publicAs (name : String) (curve : Selector Curve)
  /-- Compares two public keys. -/
  | publicEq (left right : String)
  deriving Repr

/-- What an action answers. -/
inductive Value where
  | nothing
  | flag (value : Bool)
  | text (value : String)
  | octets (value : Octets)
  /-- The octets that a new view shows. -/
  | window (value : Octets)
  | key (value : CurveKey)
  deriving Repr

/-- What becomes of an action. -/
structure Transition where
  log : List LogEvent
  answer : Except Fault Value
  after : Vault

/-! ## Section 2: Helpers of actions -/

/-- What an input offers. -/
def Input.read (vault : Vault) : Input → Except Fault Offer
  | .given offer => .ok offer
  | .buffer name | .bufferView name => do
    let contents ← Vault.named vault.buffers name
    return .octets contents
  | .view name => do
    let i ← Vault.named vault.views name
    return .octets (vault.shown i)

/-- The vault after an input was taken: a buffer is overwritten with zeros and
    keeps its length. -/
def Input.spend (vault : Vault) : Input → Vault
  | .buffer name =>
    match vault.buffers.get? name with
    | some contents =>
      { vault with buffers := vault.buffers.set name (PrivateKey.wiped contents) }
    | none => vault
  | _ => vault

/-- Octets with one of them replaced. The value is looked at before the index is
    compared with the length, but after the index by itself. -/
def withOctet (octets : Octets) (index value : Int) : Except Fault Octets :=
  let position := if index < 0 then index + octets.length else index
  if ¬IsMachineSize index then .error .positionSize
  else if ¬(0 ≤ value ∧ value < 256) then .error .octet
  else if ¬(0 ≤ position ∧ position < octets.length) then .error .position
  else .ok (octets.set position.toNat (UInt8.ofNat value.toNat))

/-- A fault of the key layer as a fault of a step. -/
def lifted {α : Type} : Except KeyFault α → Except Fault α
  | .ok value => .ok value
  | .error cause => .error (.key cause)

/-- An action that only answers. -/
def answered (vault : Vault) (answer : Except Fault Value) : Transition := ⟨[], answer, vault⟩

/-- An action that computes a change and an answer, and changes nothing on a
    fault. -/
def changed (vault : Vault) : Except Fault (Vault × Value) → Transition
  | .ok (after, value) => ⟨[], .ok value, after⟩
  | .error fault => ⟨[], .error fault, vault⟩

/-- The private key of a name. -/
def privateKey (vault : Vault) (name : String) : Except Fault PrivateKey := do
  let i ← Vault.named vault.keys name
  return vault.cell i

/-- The vault with a public key kept under a name, and the octets of the key. -/
def keepPublic (vault : Vault) (target : String) (key : PublicKey) :
    Except Fault (Vault × Value) := do
  let octets ← lifted (passing key.toOctets)
  return ({ vault with publics := vault.publics.set target key }, .octets octets)

/-! ## Section 3: Performing an action -/

/-- Makes a private key. The input is taken before it is looked at. -/
def makeKey (held : List Nat) (vault : Vault) (name : String) (input : Input) : Transition :=
  match input.read vault with
  | .error fault => ⟨[], .error fault, vault⟩
  | .ok offer =>
    -- From here on the buffer is gone, whether or not its contents make a key.
    let vault := input.spend vault
    match PrivateKey.ofOffer offer with
    | .error cause => ⟨[], .error (.key cause), vault⟩
    | .ok key => ⟨[], .ok .nothing, vault.store held name key⟩

/-- One action, while the blocks around it hold the cells `held`. -/
def Action.perform (derivation : Derivation) (held : List Nat) (vault : Vault) :
    Action → Transition
  | .newBuffer name contents =>
    ⟨[], .ok .nothing, { vault with buffers := vault.buffers.set name contents }⟩
  | .setOctet name index value => changed vault do
    let old ← Vault.named vault.buffers name
    let new ← withOctet old index value
    return ({ vault with buffers := vault.buffers.set name new }, .nothing)
  | .assign name contents => changed vault do
    let _ ← Vault.named vault.buffers name
    return ({ vault with buffers := vault.buffers.set name contents }, .nothing)
  | .newKey name input => makeKey held vault name input
  | .dropKey name => changed vault do
    let _ ← Vault.named vault.keys name
    return (vault.drop held name, .nothing)
  | .view key target => changed vault do
    let i ← Vault.named vault.keys key
    let octets ← lifted (vault.cell i).window
    return ({ vault with views := vault.views.set target i }, .window octets)
  | .writeView name => answered vault do
    let _ ← Vault.named vault.views name
    .error .readOnly
  | .close key => changed vault do
    let i ← Vault.named vault.keys key
    return (vault.close i, .nothing)
  | .isClosed key => answered vault do
    let inner ← privateKey vault key
    return .flag !inner.isOpen
  | .describe key => answered vault do
    let inner ← privateKey vault key
    return .text inner.description
  | .isValidGeneral input => answered vault do
    let offer ← input.read vault
    let valid ← lifted (PrivateKey.looksValid offer)
    return .flag valid
  | .isValid input curve => answered vault do
    let offer ← input.read vault
    let valid ← lifted (PrivateKey.isValidOffer curve offer)
    return .flag valid
  | .sign key digest curve =>
    match privateKey vault key with
    | .error fault => ⟨[], .error fault, vault⟩
    | .ok inner =>
      let outcome := inner.sign derivation digest curve
      ⟨outcome.log, (lifted outcome.result).map Value.octets, vault⟩
  | .derive key type target =>
    match privateKey vault key with
    | .error fault => ⟨[], .error fault, vault⟩
    | .ok inner =>
      let outcome := inner.publicKey type
      let kept := changed vault ((lifted outcome.result).bind (keepPublic vault target))
      { kept with log := outcome.log }
  | .readPublic target contents type => changed vault do
    let key ← lifted (PublicKey.ofOctets contents type)
    keepPublic vault target key
  | .retag source type target => changed vault do
    let old ← Vault.named vault.publics source
    let new ← lifted (old.retag type)
    keepPublic vault target new
  | .publicOctets name => answered vault do
    let key ← Vault.named vault.publics name
    let octets ← lifted (passing key.toOctets)
    return .octets octets
  | .verify name signature digest => answered vault do
    let key ← Vault.named vault.publics name
    let valid ← lifted (key.verify signature digest)
    return .flag valid
  | .publicAs name curve => answered vault do
    let key ← Vault.named vault.publics name
    match curve with
    | .unknown given => .error (.key (.unsupportedCurve given))
    | .known .secp256k1 =>
      let inner ← lifted key.asSecp256k1
      return .key (.secp256k1 inner)
    | .known .starkex =>
      let inner ← lifted key.asStarkex
      return .key (.starkex inner)
  | .publicEq left right => answered vault do
    let a ← Vault.named vault.publics left
    let b ← Vault.named vault.publics right
    return .flag (a = b)

end WalletKeys.Session
