import Mathlib.NumberTheory.LegendreSymbol.Basic
import WalletKeys.Modular.SquareRoot
import WalletKeys.Proofs.Modular.Residues

/-! # Square roots are found

    The refinement of a guess is followed by one invariant, `Guess`: the square of
    the guess is `a` times its error, the error is a root of unity of an order that
    divides half of `2 ^ bound`, and `c` is one of the order `2 ^ bound`. A round
    keeps the invariant for the smaller bound that the search for the order of the
    error returns (`Guess.round`), so the refinement ends with an error of one and
    never comes to a search without a result.

    Together with Euler's criterion this decides squares: `sqrt?` returns a root of
    each square, and nothing for other residues.
-/

namespace WalletKeys.Modular.RootField

variable {field : RootField} [hp : Fact field.prime.Prime]

/-! ## Section 1: The order of the error -/

/-- A reduced number is one if its residue is. -/
theorem eq_one_iff {t : Int} (ht : 0 ≤ t ∧ t < field.prime) :
    t = 1 ↔ (t : ZMod field.prime) = 1 := by
  constructor
  · rintro rfl
    exact Int.cast_one
  · intro h
    have hone : (1 : Int) < field.prime := by exact_mod_cast hp.out.one_lt
    rw [← Int.cast_one, ZMod.intCast_eq_intCast_iff', Int.emod_eq_of_lt ht.1 ht.2,
      Int.emod_eq_of_lt (by decide) hone] at h
    exact h

theorem emod_range (t : Int) : 0 ≤ t % field.prime ∧ t % field.prime < field.prime := by
  have hpos : (0 : Int) < field.prime := by exact_mod_cast hp.out.pos
  exact ⟨Int.emod_nonneg t hpos.ne', Int.emod_lt_of_pos t hpos⟩

/-- The square of a square, as the search takes it. -/
theorem square_pow (t : Int) (j : Nat) :
    ((t * t % field.prime : Int) : ZMod field.prime) ^ 2 ^ j =
      (t : ZMod field.prime) ^ 2 ^ (j + 1) := by
  rw [ZMod.intCast_mod, Int.cast_mul, ← pow_two, ← pow_mul, ← pow_succ']

/-- If fewer than `bound` squarings take `t` to one, the least number is found. -/
theorem exists_squarings {bound j : Nat} {t : Int} (ht : 0 ≤ t ∧ t < field.prime) (hj : j < bound)
    (hone : (t : ZMod field.prime) ^ 2 ^ j = 1) :
    ∃ i, field.squarings? bound t = some i ∧ (t : ZMod field.prime) ^ 2 ^ (i : Nat) = 1 ∧
      ∀ l < (i : Nat), (t : ZMod field.prime) ^ 2 ^ l ≠ 1 := by
  -- The induction is on the bound, and each squaring takes one off the exponent as well.
  induction bound generalizing j t with
  | zero => exact absurd hj (Nat.not_lt_zero j)
  | succ bound ih =>
    rw [squarings?]
    by_cases hend : t = 1
    · rw [if_pos hend]
      refine ⟨0, rfl, ?_, fun l hl => absurd hl (Nat.not_lt_zero l)⟩
      rw [hend, Int.cast_one, one_pow]
    · rw [if_neg hend]
      have hj0 : j ≠ 0 := by
        rintro rfl
        rw [pow_zero, pow_one] at hone
        exact hend ((eq_one_iff ht).mpr hone)
      obtain ⟨j, rfl⟩ := Nat.exists_eq_succ_of_ne_zero hj0
      rw [← square_pow] at hone
      obtain ⟨i, hi, hpow, hleast⟩ := ih (emod_range _) (Nat.lt_of_succ_lt_succ hj) hone
      rw [square_pow] at hpow
      refine ⟨i.succ, by rw [hi, Option.map_some], hpow, ?_⟩
      intro l hl
      cases l with
      | zero =>
        rw [pow_zero, pow_one]
        exact mt (eq_one_iff ht).mpr hend
      | succ l =>
        rw [← square_pow]
        exact hleast l (Nat.lt_of_succ_lt_succ hl)

/-! ## Section 2: The invariant -/

/-- The guess `x` for a root of `a` with the error `t`, where `c` is a root of unity
    of the order `2 ^ bound` and the error is one of a smaller order. -/
structure Guess (field : RootField) (a : ZMod field.prime) (bound : Nat) (x t c : Int) : Prop where
  guessRange : 0 ≤ x ∧ x < field.prime
  errorRange : 0 ≤ t ∧ t < field.prime
  square : (x : ZMod field.prime) ^ 2 = a * t
  error : (t : ZMod field.prime) ^ 2 ^ (bound - 1) = 1
  unity : (c : ZMod field.prime) ^ 2 ^ (bound - 1) = -1

variable {a : ZMod field.prime} {bound : Nat} {x t c : Int}

/-- An error other than one is taken to one by some squarings, and to minus one by
    one squaring less. -/
theorem Guess.exists_squarings (h : Guess field a bound x t c) (ht : t ≠ 1) :
    ∃ i : Fin bound, field.squarings? bound t = some i ∧ 0 < (i : Nat) ∧
      (t : ZMod field.prime) ^ 2 ^ ((i : Nat) - 1) = -1 := by
  have hbound : 0 < bound := by
    by_contra hzero
    have herror := h.error
    rw [show bound - 1 = 0 by omega, pow_zero, pow_one] at herror
    exact ht ((eq_one_iff h.errorRange).mpr herror)
  obtain ⟨i, hi, hpow, hleast⟩ :=
    RootField.exists_squarings h.errorRange (Nat.sub_lt hbound Nat.one_pos) h.error
  have hpos : 0 < (i : Nat) := by
    by_contra hzero
    rw [show (i : Nat) = 0 by omega, pow_zero, pow_one] at hpow
    exact ht ((eq_one_iff h.errorRange).mpr hpow)
  refine ⟨i, hi, hpos, ?_⟩
  -- One squaring earlier there is a square root of one that is not one.
  have hsq : ((t : ZMod field.prime) ^ 2 ^ ((i : Nat) - 1)) ^ 2 = 1 := by
    rw [← pow_mul, ← pow_succ, Nat.sub_add_cancel hpos, hpow]
  exact (sq_eq_one_iff.mp hsq).resolve_left (hleast _ (Nat.sub_lt hpos Nat.one_pos))

/-- A round turns a guess into one with a smaller bound. -/
theorem Guess.round (h : Guess field a bound x t c) {i : Nat} (hi : i < bound) (hpos : 0 < i)
    (hneg : (t : ZMod field.prime) ^ 2 ^ (i - 1) = -1) :
    let b := power c (1 <<< (bound - i - 1)) field.prime
    let c' := b * b % field.prime
    Guess field a i (x * b % field.prime) (t * c' % field.prime) c' := by
  intro b c'
  have hb : (b : ZMod field.prime) ^ 2 = (c : ZMod field.prime) ^ 2 ^ (bound - i) := by
    rw [power_cast, Nat.one_shiftLeft, ← pow_mul, ← pow_succ, Nat.sub_add_cancel (by omega)]
  have hc' : (c' : ZMod field.prime) = (b : ZMod field.prime) ^ 2 := by
    rw [ZMod.intCast_mod, Int.cast_mul, pow_two]
  -- The new root of unity and the error are taken to minus one by the same squarings, so
  -- their product is taken to one.
  have hunity : (c' : ZMod field.prime) ^ 2 ^ (i - 1) = -1 := by
    rw [hc', hb, ← pow_mul, ← pow_add, show bound - i + (i - 1) = bound - 1 by omega, h.unity]
  refine ⟨emod_range _, emod_range _, ?_, ?_, hunity⟩
  · rw [ZMod.intCast_mod, ZMod.intCast_mod, Int.cast_mul, Int.cast_mul, mul_pow, h.square, hc']
    ring
  · rw [ZMod.intCast_mod, Int.cast_mul, mul_pow, hneg, hunity, neg_mul_neg, one_mul]

/-- From a guess the refinement comes to a root. -/
theorem Guess.refine_eq_some (h : Guess field a bound x t c) :
    ∃ y, field.refine bound x t c = some y ∧ (0 ≤ y ∧ y < field.prime) ∧
      (y : ZMod field.prime) ^ 2 = a := by
  induction bound using Nat.strongRecOn generalizing x t c with
  | ind bound ih =>
    rw [refine]
    by_cases ht : t = 1
    · rw [if_pos ht]
      refine ⟨x, rfl, h.guessRange, ?_⟩
      rw [h.square, ht, Int.cast_one, mul_one]
    · -- The search succeeds, and what it returns is a smaller bound.
      obtain ⟨i, hi, hpos, hneg⟩ := h.exists_squarings ht
      rw [if_neg ht, hi]
      exact ih i i.isLt (h.round i.isLt hpos hneg)

/-! ## Section 3: Roots -/

/-- The data of a field are right: the prime leaves an odd part, and the number that
    is said to be no square is none. -/
structure Valid (field : RootField) : Prop where
  twos_pos : 0 < field.twos
  odd_mod_two : field.odd % 2 = 1
  nonSquare_pow : power field.nonSquare ((field.prime - 1) / 2) field.prime = field.prime - 1

omit hp in
theorem Valid.prime_eq_half (h : field.Valid) :
    field.prime = field.odd * 2 ^ (field.twos - 1) * 2 + 1 := by
  rw [mul_assoc, ← pow_succ, Nat.sub_add_cancel h.twos_pos, ← Nat.shiftLeft_eq, ← field.prime_eq]

omit hp in
theorem Valid.half_eq (h : field.Valid) :
    (field.prime - 1) / 2 = field.odd * 2 ^ (field.twos - 1) := by
  have hprime := h.prime_eq_half
  omega

/-- The first guess for the root of a number that passes Euler's criterion. -/
theorem Valid.guess (h : field.Valid) {n : Int}
    (hn : (n : ZMod field.prime) ^ ((field.prime - 1) / 2) = 1) :
    Guess field n field.twos (power n ((field.odd + 1) / 2) field.prime)
      (power n field.odd field.prime) (power field.nonSquare field.odd field.prime) where
  guessRange := power_range _ _ (by exact_mod_cast hp.out.pos)
  errorRange := power_range _ _ (by exact_mod_cast hp.out.pos)
  square := by
    have hodd := h.odd_mod_two
    rw [power_cast, power_cast, ← pow_mul, ← pow_succ']
    congr 1
    omega
  error := by rw [power_cast, ← pow_mul, ← h.half_eq, hn]
  unity := by
    rw [power_cast, ← pow_mul, ← h.half_eq, ← power_cast, h.nonSquare_pow]
    simp

/-- A root of each square is found, and none of any other number. -/
theorem Valid.sqrt?_eq (h : field.Valid) (n : Int) :
    (∃ y, field.sqrt? n = some y ∧ (0 ≤ y ∧ y < field.prime) ∧
        (y : ZMod field.prime) ^ 2 = n) ∨
      field.sqrt? n = none ∧ ¬IsSquare (n : ZMod field.prime) := by
  have hpos : (0 : Int) < field.prime := by exact_mod_cast hp.out.pos
  unfold sqrt?
  by_cases hzero : n % field.prime = 0
  · rw [if_pos hzero]
    refine .inl ⟨0, rfl, ⟨le_rfl, hpos⟩, ?_⟩
    rw [← ZMod.intCast_mod n, hzero, Int.cast_zero, zero_pow two_ne_zero]
  rw [if_neg hzero]
  have hne : (n : ZMod field.prime) ≠ 0 := by
    rw [Ne, ZMod.intCast_zmod_eq_zero_iff_dvd]
    exact mt Int.emod_eq_zero_of_dvd hzero
  have hone : power (n % field.prime) ((field.prime - 1) / 2) field.prime = 1 ↔
      (n : ZMod field.prime) ^ ((field.prime - 1) / 2) = 1 := by
    rw [eq_one_iff (power_range _ _ hpos), power_cast, ZMod.intCast_mod]
  by_cases heuler : power (n % field.prime) ((field.prime - 1) / 2) field.prime = 1
  · rw [if_neg (not_not_intro heuler)]
    have hn := hone.mp heuler
    rw [← ZMod.intCast_mod] at hn
    obtain ⟨y, hy, hrange, hsq⟩ := (h.guess hn).refine_eq_some
    refine .inl ⟨y, hy, hrange, ?_⟩
    rw [hsq, ZMod.intCast_mod]
  · rw [if_pos heuler]
    refine .inr ⟨rfl, ?_⟩
    have hhalf : field.prime / 2 = (field.prime - 1) / 2 := by
      have hprime := h.prime_eq_half
      omega
    rw [ZMod.euler_criterion field.prime hne, hhalf]
    exact mt hone.mpr heuler

end WalletKeys.Modular.RootField
