import WalletKeys.Text.Quoted

/-! # Curves and public key types

    The choices that a user of a wallet makes: which curve signs, and in which
    form a public key is given out. Both are chosen by label. Anything else may
    be given for a choice by mistake, be it a label that names nothing or a member
    of the other choice, and is kept as far as a fault repeats it.
-/

namespace WalletKeys

/-! ## Section 1: Curves -/

/-- The curves that a private key can be used with. -/
inductive Curve where
  | secp256k1
  | starkex
  deriving DecidableEq, Repr

namespace Curve

/-- The curves in order of definition. -/
def all : List Curve := [.secp256k1, .starkex]

/-- The name under which a curve is reported. -/
def name : Curve → String
  | .secp256k1 => "secp256k1"
  | .starkex => "starkex"

/-- The label by which a curve is chosen. -/
def label : Curve → String
  | .secp256k1 => "SECP256K1"
  | .starkex => "STARKEX"

end Curve

/-! ## Section 2: Public key types -/

/-- The types of public keys: a curve and a form. -/
inductive KeyType where
  /-- A compressed point code. -/
  | secp256k1
  /-- An uncompressed point code. -/
  | secp256k1Extended
  /-- An abscissa on the STARK curve. -/
  | starkex
  deriving DecidableEq, Repr

namespace KeyType

/-- The types in order of definition. -/
def all : List KeyType := [.secp256k1, .secp256k1Extended, .starkex]

/-- The name under which a type is reported. -/
def name : KeyType → String
  | .secp256k1 => "secp256k1"
  | .secp256k1Extended => "secp256k1Extended"
  | .starkex => "starkex"

/-- The label by which a type is chosen. -/
def label : KeyType → String
  | .secp256k1 => "SECP256K1"
  | .secp256k1Extended => "SECP256K1_EXTENDED"
  | .starkex => "STARKEX"

/-- How a fault repeats a type. -/
def shown (type : KeyType) : String :=
  "<PublicKeyType." ++ type.label ++ ": " ++ Text.quoted type.name ++ ">"

/-- The curve of a type. -/
def curve : KeyType → Curve
  | .secp256k1 | .secp256k1Extended => .secp256k1
  | .starkex => .starkex

/-- The number of octets of a key of this type. -/
def length : KeyType → Nat
  | .secp256k1 => 33
  | .secp256k1Extended => 65
  | .starkex => 32

end KeyType

/-! ## Section 3: Choosing -/

/-- Something given for a choice that is none of its members. -/
structure Stray where
  /-- What kind of thing it is. -/
  kind : String
  /-- How a fault repeats it. -/
  shown : String
  deriving DecidableEq, Repr

/-- A label that names no member, or none at all. -/
def Stray.ofLabel : Option String → Stray
  | none => ⟨"NoneType", "None"⟩
  | some label => ⟨"str", Text.quoted label⟩

/-- The outcome of a choice. -/
inductive Selector (α : Type) where
  | known (value : α)
  | unknown (given : Stray)
  deriving DecidableEq, Repr

/-- The member of `all` with a given label. A missing label is a choice of nothing. -/
def Selector.ofLabel {α : Type} (labelOf : α → String) (all : List α)
    (label : Option String) : Selector α :=
  match label.bind fun text => all.find? fun value => labelOf value = text with
  | some value => .known value
  | none => .unknown (.ofLabel label)

/-- The curve with a given label. -/
def Curve.select (label : Option String) : Selector Curve :=
  Selector.ofLabel Curve.label Curve.all label

/-- The key type with a given label. -/
def KeyType.select (label : Option String) : Selector KeyType :=
  Selector.ofLabel KeyType.label KeyType.all label

end WalletKeys
