import WalletKeys.Proofs.Modular.SquareRoot

/-! # Square roots by loops without bounds

    The search for a root is a matter of nested loops, none of which knows in advance
    when it ends: halving until a number is odd, counting until a number is no square,
    and rounds until the error is one, each with squarings until one is reached. They are
    put down here as relations between where a loop starts and what it ends with, so
    that a loop which does not end relates to nothing (`RootCourse`).

    A round shifts by a difference of integers. The relations keep what it shifts by, and
    nothing in them says that it is not negative.

    `sqrt?` bounds its rounds and takes the split of the prime as data. It has a result
    only where the loops end with the same one, and no round of theirs shifts by a
    negative amount (`Valid.exists_course`).
-/

namespace WalletKeys.Modular

/-! ## Section 1: The loops -/

/-- Halving `n` until it is odd, counted from `m`. -/
inductive Halving : (n m odd twos : Nat) → Prop where
  | done {n m : Nat} (odd : n % 2 ≠ 0) : Halving n m n m
  | halve {n m odd twos : Nat} (even : n % 2 = 0) (rest : Halving (n / 2) (m + 1) odd twos) :
      Halving n m odd twos

/-- Going up from `z` until Euler's criterion says that a number is no square. -/
inductive NonSquareSearch (p : Nat) : (z found : Nat) → Prop where
  | done {z : Nat} (nonSquare : power z ((p - 1) / 2) p = p - 1) : NonSquareSearch p z z
  | next {z found : Nat} (square : power z ((p - 1) / 2) p ≠ p - 1)
      (rest : NonSquareSearch p (z + 1) found) : NonSquareSearch p z found

/-- Squaring `t` until it is one takes `i` squarings. -/
inductive OrderSearch (p : Nat) : (t : Int) → (i : Nat) → Prop where
  | done : OrderSearch p 1 0
  | square {t : Int} {i : Nat} (ne : t ≠ 1) (rest : OrderSearch p (t * t % p) i) :
      OrderSearch p t (i + 1)

/-- The root of unity that a guess is multiplied with, for a shift by some amount. -/
def correction (p : Nat) (c shift : Int) : Int := power c (1 <<< shift.toNat) p

/-- Rounds that improve the guess `x` until its error `t` is one. They shift by the
    amounts `shifts` and end with the guess `root`. -/
inductive Rounds (p : Nat) : (m x t c : Int) → (shifts : List Int) → (root : Int) → Prop where
  | done {m x c : Int} : Rounds p m x 1 c [] x
  | round {m x t c b root : Int} {i : Nat} {shifts : List Int} (ne : t ≠ 1)
      (search : OrderSearch p t i) (factor : b = correction p c (m - i - 1))
      (rest : Rounds p i (x * b % p) (t * (b * b % p) % p) (b * b % p) shifts root) :
      Rounds p m x t c ((m - i - 1) :: shifts) root

/-- The whole search for a root of `a` modulo `p`: what it shifts by, and its result. -/
inductive RootCourse (p : Nat) (a : Int) : (shifts : List Int) → (result : Option Int) → Prop where
  | zero (h : a % p = 0) : RootCourse p a [] (some 0)
  | refused (h : a % p ≠ 0) (euler : power (a % p) ((p - 1) / 2) p ≠ 1) : RootCourse p a [] none
  | found {odd twos z : Nat} {shifts : List Int} {root : Int} (h : a % p ≠ 0)
      (euler : power (a % p) ((p - 1) / 2) p = 1) (halving : Halving (p - 1) 0 odd twos)
      (nonSquare : NonSquareSearch p 2 z)
      (rounds : Rounds p twos (power (a % p) ((odd + 1) / 2) p) (power (a % p) odd p)
        (power z odd p) shifts root) :
      RootCourse p a shifts (some root)

/-! ## Section 2: The loops have one course -/

variable {p : Nat}

theorem Halving.unique {n m odd odd' twos twos' : Nat} (h : Halving n m odd twos)
    (h' : Halving n m odd' twos') : odd = odd' ∧ twos = twos' := by
  induction h with
  | done hodd =>
    cases h' with
    | done => exact ⟨rfl, rfl⟩
    | halve heven => exact absurd heven hodd
  | halve heven _ ih =>
    cases h' with
    | done hodd => exact absurd heven hodd
    | halve _ hrest => exact ih hrest

theorem NonSquareSearch.unique {z found found' : Nat} (h : NonSquareSearch p z found)
    (h' : NonSquareSearch p z found') : found = found' := by
  induction h with
  | done hend =>
    cases h' with
    | done => rfl
    | next hne => exact absurd hend hne
  | next hne _ ih =>
    cases h' with
    | done hend => exact absurd hend hne
    | next _ hrest => exact ih hrest

theorem OrderSearch.unique {t : Int} {i j : Nat} (h : OrderSearch p t i)
    (h' : OrderSearch p t j) : i = j := by
  induction h generalizing j with
  | done =>
    cases h' with
    | done => rfl
    | square hne => exact absurd rfl hne
  | square hne _ ih =>
    cases h' with
    | done => exact absurd rfl hne
    | square _ hrest => rw [ih hrest]

theorem Rounds.unique {m x t c root root' : Int} {shifts shifts' : List Int}
    (h : Rounds p m x t c shifts root) (h' : Rounds p m x t c shifts' root') :
    shifts = shifts' ∧ root = root' := by
  induction h generalizing shifts' with
  | done =>
    cases h' with
    | done => exact ⟨rfl, rfl⟩
    | round hne => exact absurd rfl hne
  | round hne hsearch hfactor _ ih =>
    cases h' with
    | done => exact absurd rfl hne
    | round _ hsearch' hfactor' hrest =>
      obtain rfl := hsearch.unique hsearch'
      subst hfactor hfactor'
      obtain ⟨rfl, rfl⟩ := ih hrest
      exact ⟨rfl, rfl⟩

/-- The conditions of the loops exclude each other, so there is one course at most. -/
theorem RootCourse.unique {a : Int} {shifts shifts' : List Int} {result result' : Option Int}
    (h : RootCourse p a shifts result) (h' : RootCourse p a shifts' result') :
    shifts = shifts' ∧ result = result' := by
  cases h with
  | zero hzero =>
    cases h' with
    | zero => exact ⟨rfl, rfl⟩
    | refused hne => exact absurd hzero hne
    | found hne => exact absurd hzero hne
  | refused hne heuler =>
    cases h' with
    | zero hzero => exact absurd hzero hne
    | refused => exact ⟨rfl, rfl⟩
    | found _ heuler' => exact absurd heuler' heuler
  | found hne heuler hhalving hsearch hrounds =>
    cases h' with
    | zero hzero => exact absurd hzero hne
    | refused _ heuler' => exact absurd heuler heuler'
    | found _ _ hhalving' hsearch' hrounds' =>
      obtain ⟨rfl, rfl⟩ := hhalving.unique hhalving'
      obtain rfl := hsearch.unique hsearch'
      obtain ⟨rfl, rfl⟩ := hrounds.unique hrounds'
      exact ⟨rfl, rfl⟩

/-! ## Section 3: The loops end -/

/-- Halving takes off the powers of two and counts them. -/
theorem halving_mul_two_pow {odd : Nat} (hodd : odd % 2 = 1) (twos m : Nat) :
    Halving (odd * 2 ^ twos) m odd (m + twos) := by
  induction twos generalizing m with
  | zero =>
    rw [pow_zero, mul_one]
    exact .done (by omega)
  | succ twos ih =>
    have hhalf : odd * 2 ^ (twos + 1) / 2 = odd * 2 ^ twos := by
      rw [pow_succ, ← mul_assoc, Nat.mul_div_cancel _ two_pos]
    have heven : odd * 2 ^ (twos + 1) % 2 = 0 := by
      rw [pow_succ, ← mul_assoc, Nat.mul_mod_left]
    have hrest := ih (m + 1)
    rw [← hhalf, show m + 1 + twos = m + (twos + 1) by omega] at hrest
    exact .halve heven hrest

namespace RootField

variable {field : RootField}

/-- A bounded search that finds a number of squarings is the end of the unbounded one. -/
theorem orderSearch_of_squarings {bound : Nat} {t : Int} {i : Fin bound}
    (h : field.squarings? bound t = some i) : OrderSearch field.prime t i := by
  induction bound generalizing t with
  | zero => exact i.elim0
  | succ bound ih =>
    rw [squarings?] at h
    by_cases ht : t = 1
    · rw [if_pos ht] at h
      cases h
      rw [ht]
      exact .done
    · rw [if_neg ht] at h
      obtain ⟨j, hj, hi⟩ := Option.map_eq_some_iff.mp h
      rw [← hi]
      exact .square ht (ih hj)

/-- A bounded refinement that has a result takes the rounds of the unbounded one, and the
    bound that it falls below in each round keeps the shifts from being negative. -/
theorem exists_rounds_of_refine {bound : Nat} {x t c root : Int}
    (h : field.refine bound x t c = some root) :
    ∃ shifts, Rounds field.prime bound x t c shifts root ∧ ∀ shift ∈ shifts, 0 ≤ shift := by
  induction bound using Nat.strongRecOn generalizing x t c with
  | ind bound ih =>
    rw [refine] at h
    by_cases ht : t = 1
    · rw [if_pos ht] at h
      cases h
      rw [ht]
      exact ⟨[], .done, by simp⟩
    · rw [if_neg ht] at h
      cases hsearch : field.squarings? bound t with
      | none =>
        rw [hsearch] at h
        cases h
      | some i =>
        rw [hsearch] at h
        have hi : (i : Nat) < bound := i.isLt
        obtain ⟨shifts, hrounds, hshifts⟩ := ih i hi h
        have hshift : ((bound : Int) - (i : Nat) - 1).toNat = bound - i - 1 := by omega
        refine ⟨(bound - (i : Nat) - 1) :: shifts, ?_, ?_⟩
        · apply Rounds.round ht (orderSearch_of_squarings hsearch) (b := _) ?_ hrounds
          rw [correction, hshift]
        · simp only [List.mem_cons, forall_eq_or_imp]
          exact ⟨by omega, hshifts⟩

/-- The loops end for every number, without negative shifts, with the result of the search
    for a root, if the number that is said to be no square is the first one. -/
theorem Valid.exists_course [hp : Fact field.prime.Prime] (h : field.Valid)
    (hfirst : NonSquareSearch field.prime 2 field.nonSquare) (a : Int) :
    ∃ shifts, RootCourse field.prime a shifts (field.sqrt? a) ∧ ∀ shift ∈ shifts, 0 ≤ shift := by
  have hhalving : Halving (field.prime - 1) 0 field.odd field.twos := by
    have hsplit : field.prime - 1 = field.odd * 2 ^ field.twos := by
      rw [field.prime_eq, Nat.add_sub_cancel, Nat.shiftLeft_eq]
    have hends := halving_mul_two_pow h.odd_mod_two field.twos 0
    rwa [← hsplit, Nat.zero_add] at hends
  unfold sqrt?
  by_cases hzero : a % field.prime = 0
  · rw [if_pos hzero]
    exact ⟨[], .zero hzero, by simp⟩
  rw [if_neg hzero]
  by_cases heuler : power (a % field.prime) ((field.prime - 1) / 2) field.prime = 1
  · rw [if_neg (not_not_intro heuler)]
    -- By Euler's criterion the first guess is one, from which the refinement has a result.
    have hcriterion :
        ((a % field.prime : Int) : ZMod field.prime) ^ ((field.prime - 1) / 2) = 1 := by
      rw [← power_cast, heuler, Int.cast_one]
    obtain ⟨root, hroot, _⟩ := (h.guess hcriterion).refine_eq_some
    obtain ⟨shifts, hrounds, hshifts⟩ := exists_rounds_of_refine hroot
    rw [hroot]
    exact ⟨shifts, .found hzero heuler hhalving hfirst hrounds, hshifts⟩
  · rw [if_pos heuler]
    exact ⟨[], .refused hzero heuler, by simp⟩

end RootField

end WalletKeys.Modular
