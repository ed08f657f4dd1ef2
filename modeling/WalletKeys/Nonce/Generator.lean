import WalletKeys.Hash.Mac
import WalletKeys.Hash.Sha2
import WalletKeys.Nonce.Problem

/-! # The bit generator of deterministic nonces

    A generator holds a key and a chaining value, both tags of a `Mac`. It is
    seeded in two passes, and each candidate is cut from as many chained tags
    as the width of the order takes. Candidates outside of `[1, order)` are
    passed over.

    How long a generator has to be asked is a matter of chance, so every request
    carries a limit. Reaching it is reported as `CurveFault.undecided` and never
    mistaken for an answer.
-/

namespace WalletKeys.Nonce

open WalletKeys.Hash

/-- How nonces are derived: the code that drives the generator and the number
    of candidates after which a request is given up. -/
structure Derivation where
  mac : Mac
  limit : Nat

/-- HMAC with SHA-256. At most three candidates in four are out of range, so
    the limit is out of reach. -/
def Derivation.standard : Derivation := ⟨Sha2.sha256.hmac, 4096⟩

/-- The state of a generator. -/
structure Generator where
  /-- The key of the code. -/
  key : Octets
  /-- The last chained tag. -/
  chain : Octets

namespace Generator

/-! ## Section 1: One candidate -/

/-- A generator fed with `seed`: the key is renewed from the seed twice, under
    separator octets 0 and 1. -/
def ofSeed (mac : Mac) (seed : Octets) : Generator :=
  let chain := List.replicate mac.size 1
  let key := mac.tag (Octets.zeros mac.size) (chain ++ [0] ++ seed)
  let chain := mac.tag key chain
  let key := mac.tag key (chain ++ [1] ++ seed)
  ⟨key, mac.tag key chain⟩

/-- Chains `count` tags and collects them. -/
def chained (mac : Mac) (key : Octets) : (count : Nat) → (chain : Octets) → Octets × Octets
  | 0, chain => ([], chain)
  | count + 1, chain =>
    let chain := mac.tag key chain
    let (rest, last) := chained mac key count chain
    (chain ++ rest, last)

/-- The number of tags that hold `width` octets. -/
def blocks (mac : Mac) (width : Nat) : Nat := (width + mac.size - 1) / mac.size

/-- The collected octets for one candidate, and the generator after it: its
    key is renewed under separator octet 0. -/
def draw (mac : Mac) (width : Nat) (g : Generator) : Octets × Generator :=
  let (octets, chain) := chained mac g.key (blocks mac width) g.chain
  let key := mac.tag g.key (chain ++ [0])
  (octets, ⟨key, mac.tag key chain⟩)

/-- The next candidate: the leftmost bits of the collected octets, as many as
    the order has. -/
def candidate (mac : Mac) (order : Int) (g : Generator) : Nat × Generator :=
  let (octets, g) := g.draw mac (octetLength order)
  (leftmost (bitLength order) octets, g)

/-! ## Section 2: Nonces -/

/-- The first candidate in `[1, order)` among the next `limit`. -/
def next (mac : Mac) (order : Int) :
    (limit : Nat) → Generator → Except CurveFault (Nat × Generator)
  | 0, _ => .error .undecided
  | limit + 1, g =>
    let (value, g) := g.candidate mac order
    if 1 ≤ value ∧ (value : Int) < order then .ok (value, g) else next mac order limit g

/-- The first `count` nonces. -/
def take (d : Derivation) (order : Int) :
    (count : Nat) → Generator → Except CurveFault (List Nat)
  | 0, _ => .ok []
  | count + 1, g => do
    let (value, g) ← g.next d.mac order d.limit
    let rest ← take d order count g
    return value :: rest

/-- The nonce after `skipped` others. -/
def nth (d : Derivation) (order : Int) : (skipped : Nat) → Generator → Except CurveFault Nat
  | 0, g => do
    let (value, _) ← g.next d.mac order d.limit
    return value
  | skipped + 1, g => do
    let (_, g) ← g.next d.mac order d.limit
    nth d order skipped g

end Generator

namespace Problem

/-- The first `count` nonces of a request. No nonce, no check: the seed is
    made when the first nonce is asked for. -/
def nonces (d : Derivation) (problem : Problem) : Nat → Except CurveFault (List Nat)
  | 0 => .ok []
  | count + 1 => do
    let seed ← problem.seed
    (Generator.ofSeed d.mac seed).take d problem.order (count + 1)

/-- The nonce of a request after `skipped` others. -/
def nonce (d : Derivation) (problem : Problem) (skipped : Nat) : Except CurveFault Nat := do
  let seed ← problem.seed
  (Generator.ofSeed d.mac seed).nth d problem.order skipped

end Problem

end WalletKeys.Nonce
