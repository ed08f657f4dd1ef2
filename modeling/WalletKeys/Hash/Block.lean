import WalletKeys.Octets

/-! # Block-wise hashing

    What the hash functions of this library share: a message is padded to whole
    blocks, each block is read as sixteen words, the words are expanded to one
    word per round, and the blocks are absorbed one after another.

    `HashFunction` is the shape of the result: a digest of a fixed length, with
    the block size that keyed use needs.
-/

namespace WalletKeys.Hash

/-- A function from messages of any length to digests of one length. -/
structure HashFunction where
  /-- Octets absorbed at a time. -/
  blockSize : Nat
  /-- Octets of a digest. -/
  digestSize : Nat
  digestSize_pos : 0 < digestSize
  /-- The digest of a message. -/
  digest : Octets → Octets
  length_digest : ∀ message, (digest message).length = digestSize

/-! ## Section 1: Padding -/

/-- The padding of a message of `length` octets: one bit set, then as few
    zeros as bring it to whole blocks, then the number of bits on
    `lengthWidth` octets. -/
def padding (blockSize lengthWidth length : Nat) : Octets :=
  let used := (length + 1 + lengthWidth) % blockSize
  [0x80] ++ Octets.zeros ((blockSize - used) % blockSize) ++
    Octets.ofNat lengthWidth (8 * length)

/-- A message followed by its padding. -/
def padded (blockSize lengthWidth : Nat) (message : Octets) : Octets :=
  message ++ padding blockSize lengthWidth message.length

/-! ## Section 2: Words and rounds -/

/-- Consecutive pieces of `size` octets; a shorter rest is left out. -/
def pieces (size : Nat) (octets : Octets) : List Octets :=
  (List.range (octets.length / size)).map fun i => (octets.drop (i * size)).take size

/-- The `w`-bit words of a block, first word first. -/
def words (w : Nat) (block : Octets) : List (BitVec w) :=
  (pieces (w / 8) block).map fun octets => BitVec.ofNat w octets.toNat

/-- The octets of a word. -/
def octetsOfWord {w : Nat} (word : BitVec w) : Octets := Octets.ofNat (w / 8) word.toNat

/-- The first `count` words of the sequence that begins with `window` and in
    which `next` computes the word after any such window. -/
def expand {w : Nat} (next : List (BitVec w) → BitVec w) :
    (count : Nat) → (window : List (BitVec w)) → List (BitVec w)
  | 0, _ => []
  | _ + 1, [] => []
  | count + 1, word :: rest =>
    word :: expand next count (rest ++ [next (word :: rest)])

/-! ## Section 3: Round functions shared by the families -/

/-- Each bit of `x` chooses between the bits of `y` and `z`. -/
def choose {w : Nat} (x y z : BitVec w) : BitVec w := (x &&& y) ^^^ (~~~x &&& z)

/-- The bit that at least two of the three words hold. -/
def majority {w : Nat} (x y z : BitVec w) : BitVec w :=
  (x &&& y) ^^^ (x &&& z) ^^^ (y &&& z)

end WalletKeys.Hash
