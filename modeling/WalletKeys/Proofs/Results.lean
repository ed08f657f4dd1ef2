import WalletKeys.Key.Outcome

/-! # Results of computations that can be refused

    How a composed computation comes to an end: it has a value if its first part
    has one and its second part has one for that, and a fault of the first part
    is a fault of the whole. The same for outcomes, which carry a log along, and what
    becomes of a fault that the key layer reports in its own terms.
-/

namespace WalletKeys

/-! ## Section 1: Values and faults -/

section Except

variable {ε α β : Type}

theorem bind_eq_ok_iff {x : Except ε α} {f : α → Except ε β} {b : β} :
    x >>= f = .ok b ↔ ∃ a, x = .ok a ∧ f a = .ok b := by
  cases x with
  | error e =>
    constructor
    · intro h
      cases h
    · intro h
      obtain ⟨a, ha, _⟩ := h
      cases ha
  | ok a =>
    constructor
    · intro h
      exact ⟨a, rfl, h⟩
    · intro hall
      obtain ⟨a', ha, h⟩ := hall
      cases ha
      exact h

theorem bind_eq_error_iff {x : Except ε α} {f : α → Except ε β} {e : ε} :
    x >>= f = .error e ↔ x = .error e ∨ ∃ a, x = .ok a ∧ f a = .error e := by
  cases x with
  | error e' =>
    constructor
    · intro h
      cases h
      exact .inl rfl
    · intro h
      rcases h with h | ⟨a, ha, _⟩
      · cases h
        rfl
      · cases ha
  | ok a =>
    constructor
    · intro h
      exact .inr ⟨a, rfl, h⟩
    · intro h
      rcases h with h | ⟨a', ha, h⟩
      · cases h
      · cases ha
        exact h

@[simp] theorem ok_bind (a : α) (f : α → Except ε β) : (Except.ok a >>= f) = f a := rfl

@[simp] theorem error_bind (e : ε) (f : α → Except ε β) :
    ((Except.error e : Except ε α) >>= f) = .error e := rfl

@[simp] theorem pure_eq_ok (a : α) : (pure a : Except ε α) = .ok a := rfl

end Except

/-! ## Section 2: Faults restated -/

namespace KeyFault

variable {α : Type}

@[simp] theorem refusing_ok (restated : CurveFault → KeyFault) (a : α) :
    refusing restated (.ok a) = .ok a := rfl

@[simp] theorem passing_ok (a : α) : passing (.ok a) = .ok a := rfl

/-- A fault about a value is restated. -/
theorem refusing_of_value (restated : CurveFault → KeyFault) {cause : CurveFault}
    (h : cause.category = .value) :
    refusing restated (.error cause : Except CurveFault α) = .error (restated cause) := by
  have hvalue : cause.category.isA .value = true := by
    rw [h]
    decide
  rw [refusing, if_pos hvalue]

/-- If all faults are about values, each one is restated. -/
theorem exists_of_refusing_eq_error {restated : CurveFault → KeyFault} {x : Except CurveFault α}
    {fault : KeyFault} (hx : ∀ cause, x = .error cause → cause.category = .value)
    (h : refusing restated x = .error fault) : ∃ cause, fault = restated cause := by
  cases x with
  | ok a => cases h
  | error cause =>
    rw [refusing_of_value restated (hx cause rfl)] at h
    exact ⟨cause, (Except.error.inj h).symm⟩

/-- A value passes unchanged, and nothing else becomes a value. -/
theorem refusing_eq_ok_iff {restated : CurveFault → KeyFault} {x : Except CurveFault α} {a : α} :
    refusing restated x = .ok a ↔ x = .ok a := by
  cases x with
  | ok a' => rw [refusing_ok, Except.ok.injEq, Except.ok.injEq]
  | error cause =>
    constructor
    · intro h
      cases h
    · intro h
      cases h

/-- To let faults through is to restate none. -/
theorem passing_eq_refusing (x : Except CurveFault α) : passing x = refusing .curve x := by
  cases x with
  | ok a => rfl
  | error cause => rw [passing, refusing, ite_self]

theorem passing_eq_ok_iff {x : Except CurveFault α} {a : α} : passing x = .ok a ↔ x = .ok a := by
  rw [passing_eq_refusing, refusing_eq_ok_iff]

end KeyFault

/-! ## Section 3: Outcomes -/

namespace Outcome

variable {α β : Type}

/-- Of the results alone, outcomes follow each other as computations do. -/
theorem result_bind (x : Outcome α) (f : α → Outcome β) :
    (x >>= f).result = x.result >>= fun a => (f a).result := by
  show (x.andThen f).result = _
  unfold andThen
  cases x.result <;> rfl

theorem result_bind_eq_ok_iff {x : Outcome α} {f : α → Outcome β} {b : β} :
    (x >>= f).result = .ok b ↔ ∃ a, x.result = .ok a ∧ (f a).result = .ok b := by
  rw [result_bind, bind_eq_ok_iff]

@[simp] theorem result_pure (a : α) : (pure a : Outcome α).result = .ok a := rfl

@[simp] theorem result_note (event : LogEvent) : (note event).result = .ok () := rfl

@[simp] theorem result_liftM (x : Except KeyFault α) : (liftM x : Outcome α).result = x := rfl

/-- An outcome after which an event is noted, if it has a value. -/
def noting (event : α → LogEvent) (x : Outcome α) : Outcome α :=
  x >>= fun value => note (event value) >>= fun _ => pure value

/-- An event that is noted in the end makes no difference to the result. -/
@[simp] theorem result_noting (event : α → LogEvent) (x : Outcome α) :
    (x.noting event).result = x.result := by
  unfold noting
  simp only [result_bind, result_note, result_pure, ok_bind]
  exact bind_pure _

end Outcome

end WalletKeys
