import WalletKeys.Hash.Block

/-! # Message authentication codes

    A code is a function of a key and a message with tags of one positive
    length. Nonce derivation asks for nothing more, so whatever is said about it
    holds for every `Mac`, not only for the keyed hash built here.
-/

namespace WalletKeys.Hash

/-- A keyed function with tags of one length. -/
structure Mac where
  /-- Octets of a tag. -/
  size : Nat
  size_pos : 0 < size
  /-- The tag of a message under a key. -/
  tag : (key message : Octets) → Octets
  length_tag : ∀ key message, (tag key message).length = size

/-! ## Section 1: HMAC -/

/-- The key of a keyed hash, brought to one block: a longer key is hashed
    first, and a shorter one is followed by zeros. -/
def HashFunction.blockKey (hash : HashFunction) (key : Octets) : Octets :=
  let short := if hash.blockSize < key.length then hash.digest key else key
  short ++ Octets.zeros (hash.blockSize - short.length)

/-- The keyed hash: the message is hashed behind the key mixed with one pad,
    and that digest again behind the key mixed with another. -/
def HashFunction.keyed (hash : HashFunction) (key message : Octets) : Octets :=
  let blockKey := hash.blockKey key
  hash.digest (blockKey.map (· ^^^ 0x5c) ++ hash.digest (blockKey.map (· ^^^ 0x36) ++ message))

/-- The code that a hash function gives. -/
def HashFunction.hmac (hash : HashFunction) : Mac where
  size := hash.digestSize
  size_pos := hash.digestSize_pos
  tag := hash.keyed
  length_tag _ _ := hash.length_digest _

end WalletKeys.Hash
