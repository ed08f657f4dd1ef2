import WalletKeys.Fault

/-! # Inverses and powers modulo a number

    Two ways to divide modulo a number live here. `inverse` runs the extended
    Euclidean algorithm and works for every modulus, refusing what shares a
    factor with it. `fermat` raises to the power `m - 2`, which is the inverse
    when `m` is a prime, and never refuses.
-/

namespace WalletKeys.Modular

/-! ## Section 1: The extended Euclidean algorithm -/

/-- Runs Euclid's algorithm on `r` and `s`. The numbers `t` and `u` follow the
    same combinations, so that with `t ≡ 0 * a` and `u ≡ 1 * a` at the start, the
    second component of the result times `a` stays congruent to the first. -/
def bezout (r s : Nat) (t u : Int) : Nat × Int :=
  if _h : s = 0 then (r, t) else bezout s (r % s) u (t - (r / s : Nat) * u)
termination_by s
decreasing_by exact Nat.mod_lt _ (by omega)

/-- The inverse of `a` in `[0, n)`. Only a positive modulus has any, and only
    numbers without a common factor with it. -/
def inverse (a n : Int) : Except CurveFault Int :=
  if n = 0 then .error .zeroModulus
  else if n < 0 then .error .noInverse
  else
    let (gcd, factor) := bezout n.toNat (a % n).toNat 0 1
    if gcd = 1 then .ok (factor % n) else .error .noInverse

/-! ## Section 2: Powers -/

/-- The power of a base reduced modulo `m`, by squaring. -/
def power (base : Int) (exponent : Nat) (m : Int) : Int :=
  if _h : exponent = 0 then 1 % m
  else
    -- The square of the base carries all of the exponent but its last binary digit.
    let root := power (base * base % m) (exponent / 2) m
    if exponent % 2 = 1 then base * root % m else root
termination_by exponent
decreasing_by omega

/-- The power with exponent `m - 2`, the inverse of `x` if `m` is a prime that
    does not divide it. -/
def fermat (x : Int) (m : Nat) : Int := power x (m - 2) m

/-- The power for any exponent and modulus: a negative exponent asks for an
    inverse, and the result takes the sign of the modulus. -/
def signedPower (base exponent m : Int) : Except CurveFault Int :=
  if m = 0 then .error .zeroPowerModulus
  else if m.natAbs = 1 then .ok 0
  else if 0 ≤ exponent then .ok ((power base exponent.toNat m.natAbs).fmod m)
  else
    match inverse base m.natAbs with
    | .error _ => .error .noReciprocal
    | .ok inverted => .ok ((power inverted exponent.natAbs m.natAbs).fmod m)

end WalletKeys.Modular
