/-! # Faults of the number and curve layer

    Every way in which arithmetic, point codes, nonces and signatures can be
    refused is one constructor of `CurveFault`. A fault has two readings: its
    `message`, the sentence a user sees, and its `category`, the branch of the
    taxonomy it belongs to. The taxonomy is a tree: `Category.parent` climbs it
    and `Category.isA` asks whether one branch lies below another, which is how
    the key layer decides what to report in its own terms.
-/

namespace WalletKeys

/-! ## Section 1: The taxonomy -/

/-- The branches of the fault taxonomy. -/
inductive Category where
  /-- A value of the right kind with unacceptable contents. -/
  | value
  /-- A key, message or signature that is not acceptable. -/
  | keypair
  /-- A secret that is malformed or that a curve refuses. -/
  | secretKey
  /-- A digest that a curve cannot sign. -/
  | signMessage
  /-- A signature that is malformed or out of range. -/
  | signature
  /-- A public key that does not name a curve point. -/
  | publicKey
  /-- A number that does not fit the octets it is written on. -/
  | overflow
  /-- A reduction modulo zero. -/
  | zeroDivision
  /-- A state that correct nonces and correct buffers never lead to. -/
  | assertion
  /-- A value of the wrong kind. -/
  | kind
  /-- Something asked of a value that it does not have. -/
  | member
  /-- A position outside of a buffer. -/
  | position
  /-- A name that stands for nothing. -/
  | name
  /-- More octets than any memory holds. -/
  | memory
  /-- A search that was given up before it was decided. -/
  | undecided
  deriving DecidableEq, Repr

namespace Category

/-- The branch directly above, if there is one. -/
def parent : Category → Option Category
  | .secretKey | .signMessage | .signature | .publicKey => some .keypair
  | .keypair => some .value
  | _ => none

/-- The branches above a category, nearest first. -/
def ancestors (c : Category) : List Category :=
  match c.parent with
  | none => []
  | some up => up :: up.parent.toList

/-- Whether `c` is `top` or lies below it. -/
def isA (c top : Category) : Bool := c = top || c.ancestors.contains top

end Category

/-! ## Section 2: The faults -/

/-- Why a computation on numbers, points or signatures was refused. -/
inductive CurveFault where
  /-- A number of octets that is no machine size. -/
  | widthSize
  /-- A negative number of octets was asked for. -/
  | negativeWidth
  /-- A number of octets beyond the longest string. -/
  | stringTooLong
  /-- A number of octets beyond any memory. -/
  | outOfMemory
  /-- A negative number has no octet string. -/
  | negativeNumber
  /-- The number needs more octets than it is given. -/
  | numberTooWide
  /-- The number is not the value of one octet. -/
  | octetRange
  /-- Reduction modulo zero. -/
  | zeroModulus
  /-- The number shares a factor with the modulus. -/
  | noInverse
  /-- A power modulo zero. -/
  | zeroPowerModulus
  /-- A negative power of a number that shares a factor with the modulus. -/
  | noReciprocal
  /-- An abscissa outside of the field's range. -/
  | abscissaRange
  /-- An abscissa of no curve point. -/
  | abscissaOffCurve
  /-- Coordinates that are out of range or violate the curve equation. -/
  | pointOffCurve
  /-- A point code of neither length, or with an unknown leading octet. -/
  | pointCodeShape
  /-- A secret that is not 32 octets long. -/
  | secretLength
  /-- A secret scalar outside of the group order's range. -/
  | secretRange
  /-- A message hash that is not 32 octets long. -/
  | hashLength
  /-- Signature numbers or a recovery id out of range. -/
  | invalidSignature
  /-- The recovery id asks for an abscissa beyond the field. -/
  | recoveryOverflow
  /-- The equation of recovery is solved by the neutral element. -/
  | recoveredIdentity
  /-- A field element that is not 32 octets long. -/
  | elementLength
  /-- A field element that is not reduced. -/
  | elementRange
  /-- A message hash that needs more than 251 bits. -/
  | hashRange
  /-- A secret that the group order divides. -/
  | secretMultiple
  /-- A nonce that the group order divides. -/
  | nonceMultiple
  /-- A list of nonces without a usable one. -/
  | noncesExhausted
  /-- The bound on nonce candidates was reached without a decision. -/
  | undecided
  deriving DecidableEq, Repr

namespace CurveFault

/-- The sentence that reports a fault. -/
def message : CurveFault → String
  | widthSize => "Python int too large to convert to C ssize_t"
  | negativeWidth => "length argument must be non-negative"
  | stringTooLong => "byte string is too large"
  | outOfMemory => ""
  | negativeNumber => "can't convert negative int to unsigned"
  | numberTooWide => "int too big to convert"
  | octetRange => "bytes must be in range(0, 256)"
  | zeroModulus => "integer modulo by zero"
  | noInverse => "no inverse"
  | zeroPowerModulus => "pow() 3rd argument cannot be 0"
  | noReciprocal => "base is not invertible for the given modulus"
  | abscissaRange => "x out of range"
  | abscissaOffCurve => "x is not on the curve"
  | pointOffCurve => "point is not on the curve"
  | pointCodeShape => "pubkey must be 33 bytes (compressed) or 65 bytes (uncompressed)"
  | secretLength => "privkey must be 32 bytes"
  | secretRange => "invalid privkey"
  | hashLength => "msg_hash must be 32 bytes"
  | invalidSignature => "invalid signature"
  | recoveryOverflow => "recid 2/3 but r+n >= p"
  | recoveredIdentity => "recovered point at infinity"
  | elementLength => "field element must be 32 bytes"
  | elementRange => "field element out of range"
  | hashRange => "msg_hash must be below 2^251"
  | secretMultiple => "private key is a multiple of the curve order"
  | nonceMultiple => ""
  | noncesExhausted => "unreachable: iter_k is infinite"
  | undecided => "no usable nonce within the bound"

/-- The branch of the taxonomy that a fault belongs to. -/
def category : CurveFault → Category
  | widthSize | stringTooLong | negativeNumber | numberTooWide => .overflow
  | outOfMemory => .memory
  | zeroModulus => .zeroDivision
  | nonceMultiple | noncesExhausted => .assertion
  | undecided => .undecided
  | _ => .value

end CurveFault

end WalletKeys
