import WalletKeys.Nonce.Search
import WalletKeys.Stark.Group

/-! # Nonces of the STARK curve

    Message hashes are numbers here, and the order has 252 bits. A hash is put
    on whole octets in such a way that cutting it to 252 bits gives back every
    bit: one that stops a nibble short of 32 octets is shifted up by a nibble.

    A retry is a request of its own, told apart by a seed: none at first, then
    1, 2, 3, ….
-/

namespace WalletKeys.Stark

open WalletKeys.Nonce

/-- The octets of a message hash. -/
def hashOctets (hash : Int) : Except CurveFault Octets :=
  let bits := bitLength hash
  -- The first octet then holds a nibble at most. Unshifted, the cut of 32 octets to 252
  -- bits would lose the last nibble.
  let short := 248 ≤ bits ∧ 1 ≤ bits % 8 ∧ bits % 8 ≤ 4
  FixedWidth.writeShortest (if short then 16 * hash else hash)

/-- The extra octets of a seed. -/
def seedOctets : Option Int → Except CurveFault Octets
  | none => .ok []
  | some seed => FixedWidth.writeShortest seed

/-- The nonce request of a secret, a hash and a seed. -/
def problem (secret hash : Int) (seed : Option Int) : Except CurveFault Problem := do
  let extra ← seedOctets seed
  let octets ← hashOctets hash
  return ⟨order, secret, octets, extra⟩

/-- The nonce for a secret, a hash and a seed. -/
def nonce (derivation : Derivation) (secret hash : Int) (seed : Option Int) :
    Except CurveFault Nat := do
  let request ← problem secret hash seed
  request.nonce derivation 0

/-- The seed of the attempt at a position. -/
def seedAt : Nat → Option Int
  | 0 => none
  | i + 1 => some (i + 1 : Nat)

/-- The nonces of the successive attempts. -/
def nonces (derivation : Derivation) (secret hash : Int) : Source where
  nonce i := (nonce derivation secret hash (seedAt i)).map Int.ofNat
  limit := derivation.limit

end WalletKeys.Stark
