import WalletKeys.FixedWidth

/-! # What a nonce is derived from

    A deterministic nonce depends on the group order, the secret, the hash to be
    signed and optional extra octets, and on nothing else. They reach the bit
    generator as one seed string: the secret and the reduced hash on the width of
    the order, then the extra octets.

    The hash is cut to the bit length of the order before it is reduced, so one
    subtraction of the order is enough.
-/

namespace WalletKeys.Nonce

/-- The number formed by the first `bits` bits of a string, or by all of them
    when the string is not longer than that. -/
def leftmost (bits : Int) (octets : Octets) : Nat :=
  octets.toNat >>> (8 * (octets.length : Int) - bits).toNat

/-- A hash as a residue for `order`: its leftmost bits, less the order if
    they reach it. -/
def hashResidue (order : Int) (hash : Octets) : Int :=
  let value : Int := leftmost (bitLength order) hash
  if value - order < 0 then value else value - order

/-- The octets of a hash residue on a given width. -/
def hashOctets (order : Int) (width : Nat) (hash : Octets) : Except CurveFault Octets :=
  FixedWidth.write width (hashResidue order hash)

/-- As `hashOctets`, for a width that may be impossible. -/
def hashOctetsAt (order : Int) (width : Int) (hash : Octets) : Except CurveFault Octets :=
  FixedWidth.writeAt width (hashResidue order hash)

/-- A request for nonces. -/
structure Problem where
  /-- The group order; nonces lie in `[1, order)`. -/
  order : Int
  /-- The secret scalar. -/
  secret : Int
  /-- The hash to be signed, of any length. -/
  hash : Octets
  /-- Octets that set otherwise equal requests apart. -/
  extra : Octets

/-- The octets on which secret and hash are written. -/
def Problem.width (problem : Problem) : Nat := octetLength problem.order

/-- The seed of a request. It is refused when the secret does not fit the
    width of the order, before the hash is looked at. -/
def Problem.seed (problem : Problem) : Except CurveFault Octets := do
  let secret ← FixedWidth.write problem.width problem.secret
  let hash ← hashOctets problem.order problem.width problem.hash
  return secret ++ hash ++ problem.extra

end WalletKeys.Nonce
