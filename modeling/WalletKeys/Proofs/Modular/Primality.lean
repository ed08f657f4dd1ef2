import Mathlib.GroupTheory.OrderOfElement
import Mathlib.Tactic.NormNum.Prime
import WalletKeys.Proofs.Modular.Residues
import WalletKeys.Secp256k1.Group
import WalletKeys.Stark.Group

/-! # The field primes and the group orders are primes

    Every division of this library is a division modulo one of four numbers, and
    is one only because they are primes. Each is shown to be a prime by a part of
    `number - 1` that is factored: if a power of `base` has that part as its order
    modulo every prime factor of `number`, no prime factor can be small.

    The powers are those of `power`, so a certificate is checked by the library's
    own arithmetic. The larger primes in a certificate have certificates of their
    own, the small ones are left to trial division.
-/

namespace WalletKeys.Modular

/-! ## Section 1: Certificates -/

/-- The reason why a number is prime. -/
structure Certificate where
  number : Nat
  base : Int
  /-- Primes with their exponents, whose product divides `number - 1`. -/
  factors : List (Nat × Nat)

namespace Certificate

/-- The part of `number - 1` that is factored. -/
def covered (c : Certificate) : Nat := (c.factors.map fun f => f.1 ^ f.2).prod

/-- The conditions that can be computed: the factored part is large enough, the
    base has a power of order dividing it, and no smaller order will do modulo
    any factor of `number`. -/
def Passes (c : Certificate) : Prop :=
  2 ≤ c.number ∧ c.covered ∣ c.number - 1 ∧ c.number ≤ c.covered ^ 2 ∧
    power c.base (c.number - 1) c.number = 1 ∧
      ∀ f ∈ c.factors, Int.gcd (power c.base ((c.number - 1) / f.1) c.number - 1) c.number = 1

instance (c : Certificate) : Decidable c.Passes := by
  unfold Passes
  infer_instance

/-- A power modulo `m`, read modulo a divisor of `m`. -/
theorem power_cast_of_dvd {r m : Nat} (h : r ∣ m) (base : Int) (e : Nat) :
    (power base e m : ZMod r) = (base : ZMod r) ^ e := by
  have hm : (power base e m : ZMod m) = ((base ^ e : Int) : ZMod m) := by
    rw [power_cast, Int.cast_pow]
  rw [ZMod.intCast_eq_intCast_iff] at hm
  have hr := hm.of_dvd (Int.natCast_dvd_natCast.mpr h)
  rw [← ZMod.intCast_eq_intCast_iff] at hr
  rw [hr, Int.cast_pow]

/-- Modulo a prime factor of `number`, a power of the base has order `covered`. -/
theorem orderOf_eq_covered {c : Certificate} (h : c.Passes)
    (hprimes : ∀ f ∈ c.factors, f.1.Prime) {r : Nat} (hr : r.Prime) (hdvd : r ∣ c.number) :
    orderOf ((c.base : ZMod r) ^ ((c.number - 1) / c.covered)) = c.covered := by
  obtain ⟨hnumber, hcovered, _, hone, hgcd⟩ := h
  have : Fact r.Prime := ⟨hr⟩
  have hpos : 0 < c.covered := Nat.pos_of_dvd_of_pos hcovered (by omega)
  apply orderOf_eq_of_pow_and_pow_div_prime hpos
  · rw [← pow_mul, Nat.div_mul_cancel hcovered, ← power_cast_of_dvd hdvd, hone, Int.cast_one]
  · intro q hq hqc hpow
    obtain ⟨x, hx, hqx⟩ := (Prime.dvd_prod_iff hq.prime).mp hqc
    obtain ⟨f, hf, rfl⟩ := List.mem_map.mp hx
    have hqf : q = f.1 :=
      (Nat.prime_dvd_prime_iff_eq hq (hprimes f hf)).mp (hq.dvd_of_dvd_pow hqx)
    rw [← pow_mul, Nat.div_mul_div_comm hcovered hqc, mul_comm c.covered q,
      Nat.mul_div_mul_right _ _ hpos, hqf, ← power_cast_of_dvd hdvd] at hpow
    -- Then `r` is a common factor of two numbers that have none.
    have hsub : ((power c.base ((c.number - 1) / f.1) c.number - 1 : Int) : ZMod r) = 0 := by
      rw [Int.cast_sub, hpow, Int.cast_one, sub_self]
    have hcommon := Int.dvd_coe_gcd ((ZMod.intCast_zmod_eq_zero_iff_dvd _ r).mp hsub)
      (Int.natCast_dvd_natCast.mpr hdvd)
    rw [hgcd f hf, Nat.cast_one, Int.natCast_dvd, Int.natAbs_one] at hcommon
    exact hr.one_lt.ne' (Nat.dvd_one.mp hcommon)

/-- A number with a certificate is prime. -/
theorem prime {c : Certificate} (h : c.Passes) (hprimes : ∀ f ∈ c.factors, f.1.Prime) :
    c.number.Prime := by
  have ⟨hnumber, _, hsize, hone, _⟩ := h
  by_contra hnot
  have hr : c.number.minFac.Prime := Nat.minFac_prime (by omega)
  have hdvd := Nat.minFac_dvd c.number
  have hsquare := Nat.minFac_sq_le_self (by omega) hnot
  generalize c.number.minFac = r at hr hdvd hsquare
  have : Fact r.Prime := ⟨hr⟩
  have hbase : (c.base : ZMod r) ≠ 0 := by
    intro hzero
    have hpow := power_cast_of_dvd hdvd c.base (c.number - 1)
    rw [hone, hzero, zero_pow (by omega), Int.cast_one] at hpow
    exact one_ne_zero hpow
  have horder := orderOf_dvd_of_pow_eq_one (ZMod.pow_card_sub_one_eq_one
    (pow_ne_zero ((c.number - 1) / c.covered) hbase))
  rw [orderOf_eq_covered h hprimes hr hdvd] at horder
  have hle : c.covered < r := by
    have := Nat.le_of_dvd (Nat.sub_pos_of_lt hr.one_lt) horder
    have := hr.pos
    omega
  have := Nat.pow_lt_pow_left hle two_ne_zero
  omega

end Certificate

/-! ## Section 2: The parameters of secp256k1 -/

private theorem prime_factor_of_fieldPrime :
    Nat.Prime 205115282021455665897114700593932402728804164701536103180137503955397371 := by
  have hinner : Nat.Prime 255515944373312847190720520512484175977 :=
    Certificate.prime (c := ⟨_, 2, [(107590001, 1), (7240687, 1), (96557, 1)]⟩)
      (by decide +kernel) (by norm_num)
  exact Certificate.prime (c := ⟨_, 2, [(255515944373312847190720520512484175977, 1)]⟩)
    (by decide +kernel) (by simpa using hinner)

private theorem prime_factor_of_order :
    Nat.Prime 341948486974166000522343609283189 := by
  have hinnermost : Nat.Prime 297159362677 :=
    Certificate.prime (c := ⟨_, 2, [(1627771, 1)]⟩) (by decide +kernel) (by norm_num)
  have hinner : Nat.Prime 29047611873442575647497758179 :=
    Certificate.prime (c := ⟨_, 2, [(297159362677, 1), (305873, 1)]⟩)
      (by decide +kernel) (by simpa using ⟨hinnermost, by norm_num⟩)
  exact Certificate.prime (c := ⟨_, 2, [(29047611873442575647497758179, 1)]⟩)
    (by decide +kernel) (by simpa using hinner)

private theorem prime_cofactor_of_order : Nat.Prime 174723607534414371449 :=
  Certificate.prime (c := ⟨_, 2, [(44706919, 1), (120233, 1)]⟩) (by decide +kernel) (by norm_num)

instance fact_secp256k1_fieldPrime : Fact Secp256k1.fieldPrime.Prime where
  out := Certificate.prime (c := ⟨Secp256k1.fieldPrime, 2,
      [(205115282021455665897114700593932402728804164701536103180137503955397371, 1)]⟩)
    (by decide +kernel) (by simpa using prime_factor_of_fieldPrime)

instance fact_secp256k1_order : Fact Secp256k1.order.Prime where
  out := Certificate.prime (c := ⟨Secp256k1.order, 2,
      [(341948486974166000522343609283189, 1), (174723607534414371449, 1)]⟩)
    (by decide +kernel) (by simpa using ⟨prime_factor_of_order, prime_cofactor_of_order⟩)

/-! ## Section 3: The parameters of the STARK curve -/

private theorem prime_factor_of_starkOrder :
    Nat.Prime 5470365079085120887157193270902448565659295524958143968059153 := by
  have hinnermost : Nat.Prime 11753132899 :=
    Certificate.prime (c := ⟨_, 2, [(2887, 1), (67, 1)]⟩) (by decide +kernel) (by norm_num)
  have hmiddle : Nat.Prime 12904939923103 :=
    Certificate.prime (c := ⟨_, 2, [(11753132899, 1)]⟩)
      (by decide +kernel) (by simpa using hinnermost)
  have hinner : Nat.Prime 1803099112058626586861 :=
    Certificate.prime (c := ⟨_, 2, [(12904939923103, 1)]⟩)
      (by decide +kernel) (by simpa using hmiddle)
  exact Certificate.prime
    (c := ⟨_, 2, [(1803099112058626586861, 1), (74837449, 1), (22206313, 1)]⟩)
    (by decide +kernel) (by simpa using ⟨hinner, by norm_num, by norm_num⟩)

instance fact_stark_fieldPrime : Fact Stark.fieldPrime.Prime where
  out := Certificate.prime (c := ⟨Stark.fieldPrime, 3, [(2, 192)]⟩)
    (by decide +kernel) (by simpa using Nat.prime_two)

instance fact_stark_order : Fact Stark.order.Prime where
  out := Certificate.prime (c := ⟨Stark.order, 2,
      [(5470365079085120887157193270902448565659295524958143968059153, 1)]⟩)
    (by decide +kernel) (by simpa using prime_factor_of_starkOrder)

end WalletKeys.Modular
