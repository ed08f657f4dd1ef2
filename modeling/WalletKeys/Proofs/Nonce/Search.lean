import WalletKeys.Proofs.Results
import WalletKeys.Nonce.Search

/-! # What a search ends with

    A search that has a result has it from the nonce that comes right after those
    it has turned down. So whatever a judgement guarantees of the values that it
    accepts holds for the result of a search, wherever its nonces come from.

    A search that has none was given up at its limit, or met a nonce that is refused
    or judged with a fault. Derived nonces are refused for the limit of the
    derivation only, once the request has a seed, and they depend on nothing but
    that seed and the order.
-/

namespace WalletKeys.Nonce

/-! ## Section 1: Searches -/

section Search

variable {ρ α : Type} {nonce : Nat → Except CurveFault Int}
  {judge : Int → Except CurveFault (Verdict ρ α)} {value : α}

theorem searchFrom_eq_ok {limit i : Nat}
    (h : (searchFrom nonce judge limit i).result = .ok value) :
    ∃ k, nonce (i + (searchFrom nonce judge limit i).rejections.length) = .ok k ∧
      judge k = .ok (.accepted value) := by
  induction limit generalizing i with
  | zero => cases h
  | succ limit ih =>
    rw [searchFrom] at h ⊢
    cases hverdict : nonce i >>= judge with
    | error fault =>
      rw [hverdict] at h
      cases h
    | ok verdict =>
      rw [hverdict] at h
      cases verdict with
      | accepted accepted =>
        obtain rfl := Except.ok.inj h
        exact bind_eq_ok_iff.mp hverdict
      | rejected reason =>
        -- The rest of the search is one position further on and has one rejection less.
        obtain ⟨k, hnonce, hjudge⟩ := ih h
        refine ⟨k, ?_, hjudge⟩
        rw [← hnonce]
        dsimp only
        rw [List.length_cons]
        congr 1
        omega

theorem Source.search_eq_ok {source : Source} (h : (source.search judge).result = .ok value) :
    ∃ k, source.nonce (source.search judge).rejections.length = .ok k ∧
      judge k = .ok (.accepted value) := by
  have hfrom := searchFrom_eq_ok h
  rwa [Nat.zero_add] at hfrom

theorem searchFrom_eq_error {limit i : Nat} {fault : CurveFault}
    (h : (searchFrom nonce judge limit i).result = .error fault) :
    fault = .undecided ∨ ∃ j, nonce j >>= judge = .error fault := by
  induction limit generalizing i with
  | zero =>
    cases h
    exact .inl rfl
  | succ limit ih =>
    rw [searchFrom] at h
    cases hverdict : nonce i >>= judge with
    | error fault' =>
      rw [hverdict] at h
      cases h
      exact .inr ⟨i, hverdict⟩
    | ok verdict =>
      rw [hverdict] at h
      cases verdict with
      | accepted accepted => cases h
      | rejected reason => exact ih h

/-- A search whose nonces are all judged, as far as there are any within the limits, ends
    with a value or is given up. -/
theorem Source.search_cases {source : Source}
    (h : ∀ i, (∃ k verdict, source.nonce i = .ok k ∧ judge k = .ok verdict) ∨
      source.nonce i = .error .undecided) :
    (∃ value, (source.search judge).result = .ok value) ∨
      (source.search judge).result = .error .undecided := by
  cases hresult : (source.search judge).result with
  | ok value => exact .inl ⟨value, rfl⟩
  | error fault =>
    right
    rcases searchFrom_eq_error hresult with rfl | ⟨i, hfault⟩
    · rfl
    · rcases h i with ⟨k, verdict, hnonce, hjudge⟩ | hnonce
      · rw [hnonce, ok_bind, hjudge] at hfault
        cases hfault
      · rw [hnonce, error_bind] at hfault
        cases hfault
        rfl

/-! ### Steps of a search -/

theorem searchFrom_of_error {limit i : Nat} {fault : CurveFault}
    (h : nonce i >>= judge = .error fault) :
    searchFrom nonce judge (limit + 1) i = ⟨[], .error fault⟩ := by
  rw [searchFrom, h]

theorem searchFrom_of_accepted {limit i : Nat} (h : nonce i >>= judge = .ok (.accepted value)) :
    searchFrom nonce judge (limit + 1) i = ⟨[], .ok value⟩ := by
  rw [searchFrom, h]

/-- The rest of a search, after nonces that were turned down for some reasons. -/
def Run.after (reasons : List ρ) (rest : Run ρ α) : Run ρ α :=
  ⟨reasons ++ rest.rejections, rest.result⟩

theorem searchFrom_of_rejected {limit i : Nat} {reason : ρ}
    (h : nonce i >>= judge = .ok (.rejected reason)) :
    searchFrom nonce judge (limit + 1) i =
      Run.after [reason] (searchFrom nonce judge limit (i + 1)) := by
  rw [searchFrom, h]
  rfl

/-- A search passes over the next nonces if they are turned down. -/
theorem searchFrom_pass {reason : Nat → ρ} {count i : Nat}
    (h : ∀ j < count, nonce (i + j) >>= judge = .ok (.rejected (reason (i + j)))) (limit : Nat) :
    searchFrom nonce judge (count + limit) i =
      Run.after ((List.range' i count).map reason) (searchFrom nonce judge limit (i + count)) := by
  induction count generalizing i with
  | zero =>
    rw [Nat.zero_add]
    rfl
  | succ count ih =>
    have hfirst : nonce i >>= judge = .ok (.rejected (reason i)) := h 0 (Nat.succ_pos count)
    have hrest : ∀ j < count,
        nonce (i + 1 + j) >>= judge = .ok (.rejected (reason (i + 1 + j))) := by
      intro j hj
      rw [show i + 1 + j = i + (j + 1) by omega]
      exact h (j + 1) (by omega)
    rw [show count + 1 + limit = count + limit + 1 by omega, searchFrom_of_rejected hfirst,
      ih hrest, show i + 1 + count = i + (count + 1) by omega]
    rfl

/-- Nonces that are looked up one position further on are found one position earlier. -/
theorem searchFrom_shift (limit i : Nat) :
    searchFrom (fun j => nonce (j + 1)) judge limit i = searchFrom nonce judge limit (i + 1) := by
  induction limit generalizing i with
  | zero => rfl
  | succ limit ih => rw [searchFrom, searchFrom, ih]

/-- Of a nonce nothing matters but how it is judged. -/
theorem searchFrom_congr {nonce' : Nat → Except CurveFault Int}
    (h : ∀ j, nonce j >>= judge = nonce' j >>= judge) (limit i : Nat) :
    searchFrom nonce judge limit i = searchFrom nonce' judge limit i := by
  induction limit generalizing i with
  | zero => rfl
  | succ limit ih => rw [searchFrom, searchFrom, h, ih]

/-! ### Searches through a list -/

theorem Source.search_ofList_nil :
    (Source.ofList []).search judge = ⟨[], .error .noncesExhausted⟩ := rfl

theorem Source.search_ofList_of_accepted {k : Int} (h : judge k = .ok (.accepted value))
    (nonces : List Int) : (Source.ofList (k :: nonces)).search judge = ⟨[], .ok value⟩ :=
  searchFrom_of_accepted h

theorem Source.search_ofList_of_rejected {k : Int} {reason : ρ}
    (h : judge k = .ok (.rejected reason)) (nonces : List Int) :
    (Source.ofList (k :: nonces)).search judge =
      Run.after [reason] ((Source.ofList nonces).search judge) := by
  calc (Source.ofList (k :: nonces)).search judge
      = Run.after [reason]
          (searchFrom (Source.ofList (k :: nonces)).nonce judge (nonces.length + 1) 1) :=
        searchFrom_of_rejected h
    _ = Run.after [reason] ((Source.ofList nonces).search judge) := by
        rw [← searchFrom_shift]
        rfl

/-- Nonces may be replaced by others that are judged alike. -/
theorem Source.search_ofList_map {f : Int → Int} (h : ∀ k, judge (f k) = judge k)
    (nonces : List Int) :
    (Source.ofList (nonces.map f)).search judge = (Source.ofList nonces).search judge := by
  have hlimit : (Source.ofList (nonces.map f)).limit = (Source.ofList nonces).limit :=
    congrArg (· + 1) (List.length_map f)
  rw [Source.search, Source.search, hlimit]
  apply searchFrom_congr
  intro j
  dsimp only [Source.ofList]
  rw [List.getElem?_map]
  cases nonces[j]? with
  | none => rfl
  | some k => exact h k

/-- A search passes over the nonces at the front of a list that are turned down. -/
theorem Source.search_ofList_append {reason : Int → ρ} {before : List Int}
    (h : ∀ k ∈ before, judge k = .ok (.rejected (reason k))) (rest : List Int) :
    (Source.ofList (before ++ rest)).search judge =
      Run.after (before.map reason) ((Source.ofList rest).search judge) := by
  induction before with
  | nil => rfl
  | cons k before ih =>
    simp only [List.mem_cons, forall_eq_or_imp] at h
    rw [List.cons_append, search_ofList_of_rejected h.1, ih h.2]
    rfl

end Search

/-! ## Section 2: Derived nonces -/

section Derived

variable {d : Derivation} {problem problem' : Problem}

theorem Generator.next_eq_error {mac : Hash.Mac} {order : Int} {limit : Nat} {g : Generator}
    {fault : CurveFault} (h : g.next mac order limit = .error fault) : fault = .undecided := by
  induction limit generalizing g with
  | zero =>
    cases h
    rfl
  | succ limit ih =>
    rw [next] at h
    dsimp only at h
    split at h
    · cases h
    · exact ih h

/-- A nonce lies in `[1, order)`. -/
theorem Generator.next_range {mac : Hash.Mac} {order : Int} {limit : Nat} {g g' : Generator}
    {value : Nat} (h : g.next mac order limit = .ok (value, g')) :
    1 ≤ value ∧ (value : Int) < order := by
  induction limit generalizing g with
  | zero => cases h
  | succ limit ih =>
    rw [next] at h
    dsimp only at h
    split at h
    · rename_i hrange
      cases h
      exact hrange
    · exact ih h

theorem Generator.nth_range {order : Int} {skipped : Nat} {g : Generator} {value : Nat}
    (h : g.nth d order skipped = .ok value) : 1 ≤ value ∧ (value : Int) < order := by
  induction skipped generalizing g with
  | zero =>
    obtain ⟨_, hnext, hvalue⟩ := bind_eq_ok_iff.mp h
    cases hvalue
    exact next_range hnext
  | succ skipped ih =>
    obtain ⟨_, _, hrest⟩ := bind_eq_ok_iff.mp h
    exact ih hrest

theorem Generator.nth_eq_error {order : Int} {skipped : Nat} {g : Generator}
    {fault : CurveFault} (h : g.nth d order skipped = .error fault) : fault = .undecided := by
  induction skipped generalizing g with
  | zero =>
    rcases bind_eq_error_iff.mp h with hnext | ⟨_, _, hvalue⟩
    · exact next_eq_error hnext
    · cases hvalue
  | succ skipped ih =>
    rcases bind_eq_error_iff.mp h with hnext | ⟨_, _, hrest⟩
    · exact next_eq_error hnext
    · exact ih hrest

/-- A generator has its nonces in `[1, order)`, and is out of them for the limit only. -/
theorem Generator.nth_cases (order : Int) (skipped : Nat) (g : Generator) :
    (∃ k : Nat, g.nth d order skipped = .ok k ∧ 1 ≤ k ∧ (k : Int) < order) ∨
      g.nth d order skipped = .error .undecided := by
  cases hnth : g.nth d order skipped with
  | ok value => exact .inl ⟨value, rfl, nth_range hnth⟩
  | error fault =>
    rw [nth_eq_error hnth]
    exact .inr rfl

/-- The same of a request that has a seed. -/
theorem Problem.nonce_cases {seed : Octets} (hseed : problem.seed = .ok seed) (i : Nat) :
    (∃ k : Nat, problem.nonce d i = .ok k ∧ 1 ≤ k ∧ (k : Int) < problem.order) ∨
      problem.nonce d i = .error .undecided := by
  rw [Problem.nonce, hseed, ok_bind]
  exact Generator.nth_cases problem.order i _

/-- Requests to one order with one seed have the same nonces. -/
theorem Source.derived_congr (horder : problem.order = problem'.order)
    (hseed : problem.seed = problem'.seed) :
    Source.derived d problem = Source.derived d problem' := by
  simp only [Source.derived, Problem.nonce, horder, hseed]

end Derived

end WalletKeys.Nonce
