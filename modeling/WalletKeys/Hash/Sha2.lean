import WalletKeys.Hash.Block

/-! # SHA-256 and SHA-512

    Both functions are one algorithm on words of two widths. `Params` holds
    what differs: rotation amounts, round constants and first chaining words.
    The constants are leading bits of the fractional parts of cube roots and
    square roots of primes, so the 32-bit ones are the upper halves of the
    64-bit ones and a single table serves both.
-/

namespace WalletKeys.Hash.Sha2

/-! ## Section 1: Parameters and state -/

/-- The eight chaining words. -/
structure Chain (w : Nat) where
  a : BitVec w
  b : BitVec w
  c : BitVec w
  d : BitVec w
  e : BitVec w
  f : BitVec w
  g : BitVec w
  h : BitVec w

/-- What tells one width from the other. -/
structure Params (w : Nat) where
  /-- One constant per round. -/
  constants : List (BitVec w)
  /-- The chaining words before the first block. -/
  initial : Chain w
  /-- The three rotations mixed into the upper half of a round. -/
  upperSum : Nat × Nat × Nat
  /-- The three rotations mixed into the lower half of a round. -/
  lowerSum : Nat × Nat × Nat
  /-- Two rotations and a shift of the word fifteen places back. -/
  farSum : Nat × Nat × Nat
  /-- Two rotations and a shift of the word two places back. -/
  nearSum : Nat × Nat × Nat

/-! ## Section 2: One block -/

/-- The sum of three rotations. -/
def rotations {w : Nat} (turns : Nat × Nat × Nat) (x : BitVec w) : BitVec w :=
  x.rotateRight turns.1 ^^^ x.rotateRight turns.2.1 ^^^ x.rotateRight turns.2.2

/-- The sum of two rotations and a shift. -/
def rotationsShift {w : Nat} (turns : Nat × Nat × Nat) (x : BitVec w) : BitVec w :=
  x.rotateRight turns.1 ^^^ x.rotateRight turns.2.1 ^^^ (x >>> turns.2.2)

/-- The word after a window of sixteen. -/
def nextWord {w : Nat} (p : Params w) (window : List (BitVec w)) : BitVec w :=
  window.getD 0 0 + rotationsShift p.farSum (window.getD 1 0) + window.getD 9 0 +
    rotationsShift p.nearSum (window.getD 14 0)

/-- One round on its constant and message word. -/
def round {w : Nat} (p : Params w) (v : Chain w) (turn : BitVec w × BitVec w) : Chain w :=
  let lower := v.h + rotations p.lowerSum v.e + choose v.e v.f v.g + turn.1 + turn.2
  let upper := rotations p.upperSum v.a + majority v.a v.b v.c
  ⟨lower + upper, v.a, v.b, v.c, v.d + lower, v.e, v.f, v.g⟩

/-- Absorbs one block into the chaining words. -/
def absorb {w : Nat} (p : Params w) (v : Chain w) (block : Octets) : Chain w :=
  let schedule := expand (nextWord p) p.constants.length (words w block)
  let r := (p.constants.zip schedule).foldl (round p) v
  ⟨v.a + r.a, v.b + r.b, v.c + r.c, v.d + r.d, v.e + r.e, v.f + r.f, v.g + r.g, v.h + r.h⟩

/-- The octets of the chaining words. -/
def Chain.octets {w : Nat} (v : Chain w) : Octets :=
  octetsOfWord v.a ++ octetsOfWord v.b ++ octetsOfWord v.c ++ octetsOfWord v.d ++
    octetsOfWord v.e ++ octetsOfWord v.f ++ octetsOfWord v.g ++ octetsOfWord v.h

/-! ## Section 3: Constants -/

/-- The first 64 fractional bits of the cube roots of the first 80 primes. -/
def cubeRoots : List Nat :=
   [0x428a2f98d728ae22, 0x7137449123ef65cd, 0xb5c0fbcfec4d3b2f, 0xe9b5dba58189dbbc,
    0x3956c25bf348b538, 0x59f111f1b605d019, 0x923f82a4af194f9b, 0xab1c5ed5da6d8118,
    0xd807aa98a3030242, 0x12835b0145706fbe, 0x243185be4ee4b28c, 0x550c7dc3d5ffb4e2,
    0x72be5d74f27b896f, 0x80deb1fe3b1696b1, 0x9bdc06a725c71235, 0xc19bf174cf692694,
    0xe49b69c19ef14ad2, 0xefbe4786384f25e3, 0x0fc19dc68b8cd5b5, 0x240ca1cc77ac9c65,
    0x2de92c6f592b0275, 0x4a7484aa6ea6e483, 0x5cb0a9dcbd41fbd4, 0x76f988da831153b5,
    0x983e5152ee66dfab, 0xa831c66d2db43210, 0xb00327c898fb213f, 0xbf597fc7beef0ee4,
    0xc6e00bf33da88fc2, 0xd5a79147930aa725, 0x06ca6351e003826f, 0x142929670a0e6e70,
    0x27b70a8546d22ffc, 0x2e1b21385c26c926, 0x4d2c6dfc5ac42aed, 0x53380d139d95b3df,
    0x650a73548baf63de, 0x766a0abb3c77b2a8, 0x81c2c92e47edaee6, 0x92722c851482353b,
    0xa2bfe8a14cf10364, 0xa81a664bbc423001, 0xc24b8b70d0f89791, 0xc76c51a30654be30,
    0xd192e819d6ef5218, 0xd69906245565a910, 0xf40e35855771202a, 0x106aa07032bbd1b8,
    0x19a4c116b8d2d0c8, 0x1e376c085141ab53, 0x2748774cdf8eeb99, 0x34b0bcb5e19b48a8,
    0x391c0cb3c5c95a63, 0x4ed8aa4ae3418acb, 0x5b9cca4f7763e373, 0x682e6ff3d6b2b8a3,
    0x748f82ee5defb2fc, 0x78a5636f43172f60, 0x84c87814a1f0ab72, 0x8cc702081a6439ec,
    0x90befffa23631e28, 0xa4506cebde82bde9, 0xbef9a3f7b2c67915, 0xc67178f2e372532b,
    0xca273eceea26619c, 0xd186b8c721c0c207, 0xeada7dd6cde0eb1e, 0xf57d4f7fee6ed178,
    0x06f067aa72176fba, 0x0a637dc5a2c898a6, 0x113f9804bef90dae, 0x1b710b35131c471b,
    0x28db77f523047d84, 0x32caab7b40c72493, 0x3c9ebe0a15c9bebc, 0x431d67c49c100d4c,
    0x4cc5d4becb3e42b6, 0x597f299cfc657e2a, 0x5fcb6fab3ad6faec, 0x6c44198c4a475817]

/-- The chaining words in which `keep` rounds the first 64 fractional bits of
    the square roots of the first eight primes. -/
def squareRoots {w : Nat} (keep : Nat → BitVec w) : Chain w :=
  ⟨keep 0x6a09e667f3bcc908, keep 0xbb67ae8584caa73b, keep 0x3c6ef372fe94f82b,
    keep 0xa54ff53a5f1d36f1, keep 0x510e527fade682d1, keep 0x9b05688c2b3e6c1f,
    keep 0x1f83d9abfb41bd6b, keep 0x5be0cd19137e2179⟩

/-- The upper half of 64 bits. -/
def upperHalf (n : Nat) : BitVec 32 := BitVec.ofNat 32 (n >>> 32)

/-- The 32-bit parameters, of 64 rounds. -/
def narrow : Params 32 where
  constants := (cubeRoots.take 64).map upperHalf
  initial := squareRoots upperHalf
  upperSum := (2, 13, 22)
  lowerSum := (6, 11, 25)
  farSum := (7, 18, 3)
  nearSum := (17, 19, 10)

/-- The 64-bit parameters, of 80 rounds. -/
def wide : Params 64 where
  constants := cubeRoots.map (BitVec.ofNat 64)
  initial := squareRoots (BitVec.ofNat 64)
  upperSum := (28, 34, 39)
  lowerSum := (14, 18, 41)
  farSum := (1, 8, 7)
  nearSum := (19, 61, 6)

/-! ## Section 4: The two functions -/

/-- SHA-256, of 64-octet blocks. -/
def sha256 : HashFunction where
  blockSize := 64
  digestSize := 32
  digestSize_pos := by decide
  digest message :=
    ((pieces 64 (padded 64 8 message)).foldl (absorb narrow) narrow.initial).octets
  length_digest message := by simp [Chain.octets, octetsOfWord]

/-- SHA-512, of 128-octet blocks. -/
def sha512 : HashFunction where
  blockSize := 128
  digestSize := 64
  digestSize_pos := by decide
  digest message :=
    ((pieces 128 (padded 128 16 message)).foldl (absorb wide) wide.initial).octets
  length_digest message := by simp [Chain.octets, octetsOfWord]

end WalletKeys.Hash.Sha2
