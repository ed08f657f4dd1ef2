import WalletKeys.Modular.Inverse

/-! # Square roots modulo a prime

    The method of Tonelli and Shanks for a prime `odd <<< twos + 1`. A guess
    `x` for the root of `a` comes with an error `t`, where `x * x = a * t`. The
    error is a root of unity of 2-power order, and each round multiplies it by
    another one so that its order drops. `refine` recurses on a bound of that
    order, and the search for the order itself returns a number below the bound,
    so every round shifts by a non-negative amount.
-/

namespace WalletKeys.Modular

/-- A prime modulus split for taking square roots. -/
structure RootField where
  prime : Nat
  /-- The exponent of two in `prime - 1`. -/
  twos : Nat
  /-- The odd part of `prime - 1`. -/
  odd : Nat
  prime_eq : prime = odd <<< twos + 1
  /-- A number that is not a square modulo the prime. -/
  nonSquare : Nat

namespace RootField

/-- The least number of squarings below `bound` that takes `t` to one. -/
def squarings? (field : RootField) : (bound : Nat) → (t : Int) → Option (Fin bound)
  | 0, _ => none
  | bound + 1, t =>
    if t = 1 then some 0
    else (field.squarings? bound (t * t % field.prime)).map Fin.succ

/-- Improves the guess `x` until its error `t` is one, given that fewer than
    `bound` squarings take `t` to one and that `bound` squarings, not fewer, take `c`
    to one. -/
def refine (field : RootField) (bound : Nat) (x t c : Int) : Option Int :=
  if t = 1 then some x
  else
    match field.squarings? bound t with
    | none => none
    | some i =>
      -- `b * b` has the order of `t`, so that the order of `t * b * b` is smaller.
      let b := power c (1 <<< (bound - i - 1)) field.prime
      let c := b * b % field.prime
      field.refine i (x * b % field.prime) (t * c % field.prime) c
termination_by bound
decreasing_by exact i.isLt

/-- A root of `a`, or `none` if `a` is not a square. -/
def sqrt? (field : RootField) (a : Int) : Option Int :=
  let a := a % field.prime
  if a = 0 then some 0
  else if power a ((field.prime - 1) / 2) field.prime ≠ 1 then none
  else
    field.refine field.twos (power a ((field.odd + 1) / 2) field.prime)
      (power a field.odd field.prime) (power field.nonSquare field.odd field.prime)

end RootField

end WalletKeys.Modular
