import WalletKeys.Nonce.Generator

/-! # The search for a usable nonce

    A signer tries nonces in order and keeps the first that leads to a usable
    signature. `Source` is where nonces come from: a derivation, or any list.
    `search` runs a judgement over a source and reports both the outcome and the
    reasons for which earlier nonces were turned down, so the number of nonces
    used is one more than the number of reasons.
-/

namespace WalletKeys.Nonce

/-- A supply of nonces by position. -/
structure Source where
  /-- The nonce at a position, or why there is none. -/
  nonce : Nat → Except CurveFault Int
  /-- The number of positions that a search looks at. -/
  limit : Nat

/-- The nonces of a list, which is exhausted at its end. -/
def Source.ofList (nonces : List Int) : Source where
  nonce i := match nonces[i]? with
    | some k => .ok k
    | none => .error .noncesExhausted
  limit := nonces.length + 1

/-- The nonces derived from a request, one after another. -/
def Source.derived (d : Derivation) (problem : Problem) : Source where
  nonce i := (problem.nonce d i).map Int.ofNat
  limit := d.limit

/-- What a signer makes of a nonce. -/
inductive Verdict (ρ α : Type) where
  /-- The nonce is usable and leads to this. -/
  | accepted (value : α)
  /-- The nonce is not usable, for this reason. -/
  | rejected (reason : ρ)

/-- The course of a search. -/
structure Run (ρ α : Type) where
  /-- Why nonces were turned down, in order. -/
  rejections : List ρ
  /-- What the search ended with. -/
  result : Except CurveFault α

/-- The number of nonces that a successful search has used. -/
def Run.used {ρ α : Type} (run : Run ρ α) : Nat := run.rejections.length + 1

/-- Judges the nonces at positions `i`, `i + 1`, … until one is accepted or a
    fault ends the search. -/
def searchFrom {ρ α : Type} (nonce : Nat → Except CurveFault Int)
    (judge : Int → Except CurveFault (Verdict ρ α)) : (limit i : Nat) → Run ρ α
  | 0, _ => ⟨[], .error .undecided⟩
  | limit + 1, i =>
    match nonce i >>= judge with
    | .error fault => ⟨[], .error fault⟩
    | .ok (.accepted value) => ⟨[], .ok value⟩
    | .ok (.rejected reason) =>
      let run := searchFrom nonce judge limit (i + 1)
      ⟨reason :: run.rejections, run.result⟩

/-- The search over a whole source. -/
def Source.search {ρ α : Type} (source : Source)
    (judge : Int → Except CurveFault (Verdict ρ α)) : Run ρ α :=
  searchFrom source.nonce judge source.limit 0

end WalletKeys.Nonce
