import WalletKeys.Hash.Block

/-! # SHA-1

    The 160-bit member of the family, kept for nonce derivation over hashes
    and curves that were specified with it.
-/

namespace WalletKeys.Hash.Sha1

/-- The five chaining words. -/
structure Chain where
  a : BitVec 32
  b : BitVec 32
  c : BitVec 32
  d : BitVec 32
  e : BitVec 32

/-- The chaining words before the first block. -/
def Chain.initial : Chain :=
  ⟨0x67452301, 0xefcdab89, 0x98badcfe, 0x10325476, 0xc3d2e1f0⟩

/-- The eighty rounds come in four groups of twenty, each with its own mixing
    function and constant. -/
def roundFunction (round : Nat) (b c d : BitVec 32) : BitVec 32 × BitVec 32 :=
  if round < 20 then (choose b c d, 0x5a827999)
  else if round < 40 then (b ^^^ c ^^^ d, 0x6ed9eba1)
  else if round < 60 then (majority b c d, 0x8f1bbcdc)
  else (b ^^^ c ^^^ d, 0xca62c1d6)

/-- One round on the message word of its turn. -/
def round (v : Chain) (turn : BitVec 32 × Nat) : Chain :=
  let (mixed, constant) := roundFunction turn.2 v.b v.c v.d
  ⟨v.a.rotateLeft 5 + mixed + v.e + constant + turn.1, v.a, v.b.rotateLeft 30, v.c, v.d⟩

/-- The word after a window of sixteen. -/
def nextWord (window : List (BitVec 32)) : BitVec 32 :=
  (window.getD 0 0 ^^^ window.getD 2 0 ^^^ window.getD 8 0 ^^^ window.getD 13 0).rotateLeft 1

/-- Absorbs one block into the chaining words. -/
def absorb (v : Chain) (block : Octets) : Chain :=
  let turns := (expand nextWord 80 (words 32 block)).zipIdx
  let r := turns.foldl round v
  ⟨v.a + r.a, v.b + r.b, v.c + r.c, v.d + r.d, v.e + r.e⟩

/-- The octets of the chaining words. -/
def Chain.octets (v : Chain) : Octets :=
  octetsOfWord v.a ++ octetsOfWord v.b ++ octetsOfWord v.c ++ octetsOfWord v.d ++ octetsOfWord v.e

/-- SHA-1 as a hash function of 64-octet blocks. -/
def sha1 : HashFunction where
  blockSize := 64
  digestSize := 20
  digestSize_pos := by decide
  digest message := ((pieces 64 (padded 64 8 message)).foldl absorb Chain.initial).octets
  length_digest message := by simp [Chain.octets, octetsOfWord]

end WalletKeys.Hash.Sha1
