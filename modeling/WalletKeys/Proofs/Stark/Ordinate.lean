import WalletKeys.Proofs.Modular.Loops
import WalletKeys.Proofs.Stark.Group

/-! # Square roots and ordinates of the STARK curve

    The field of this curve leaves 1 modulo 4, so roots are searched for by loops
    (`Proofs.Modular.Loops`). The loops end for every number, with a root if there is one
    and with nothing if there is none (`roots_found_by_loops`).

    An ordinate above an abscissa is such a root. The points there are the one that is
    found and its reflection, and where none is found there are none.
-/

namespace WalletKeys.Stark

open WalletKeys.Geometry WalletKeys.Modular

/-! ## Section 1: Roots -/

/-- Two is a square modulo the prime and three is none. -/
theorem nonSquareSearch_three : NonSquareSearch fieldPrime 2 rootField.nonSquare :=
  .next (by decide +kernel) (.done (by decide +kernel))

/-- Squares of the field are the squares of numbers modulo the prime. -/
theorem isSquare_cast_iff (a : Int) :
    IsSquare (a : ZMod fieldPrime) ↔ ∃ y : Int, y * y ≡ a [ZMOD fieldPrime] := by
  constructor
  · intro h
    obtain ⟨r, hr⟩ := h
    obtain ⟨y, rfl⟩ := ZMod.intCast_surjective r
    refine ⟨y, (ZMod.intCast_eq_intCast_iff _ _ fieldPrime).mp ?_⟩
    rw [hr, Int.cast_mul]
  · intro h
    obtain ⟨y, hy⟩ := h
    refine ⟨y, ?_⟩
    rw [← Int.cast_mul, (ZMod.intCast_eq_intCast_iff _ _ fieldPrime).mpr hy]

/-- A reduced root is found, or there is no root at all. -/
theorem sqrt?_cases (a : Int) :
    (∃ x, rootField.sqrt? a = some x ∧ (0 ≤ x ∧ x < fieldPrime) ∧ x * x ≡ a [ZMOD fieldPrime]) ∨
      rootField.sqrt? a = none ∧ ¬∃ y : Int, y * y ≡ a [ZMOD fieldPrime] := by
  rcases rootField_valid.sqrt?_eq a with ⟨x, hx, hrange, hsq⟩ | ⟨hnone, hsq⟩
  · left
    refine ⟨x, hx, hrange, (ZMod.intCast_eq_intCast_iff _ _ fieldPrime).mp ?_⟩
    rw [Int.cast_mul, ← pow_two]
    exact hsq
  · right
    exact ⟨hnone, mt (isSquare_cast_iff a).mpr hsq⟩

/-- A root is found where there is one. -/
theorem sqrt?_eq_none_iff (a : Int) :
    rootField.sqrt? a = none ↔ ¬∃ y : Int, y * y ≡ a [ZMOD fieldPrime] := by
  rcases sqrt?_cases a with ⟨x, hx, _, hsq⟩ | ⟨hnone, hempty⟩
  · rw [hx]
    simp only [reduceCtorEq, false_iff, not_not]
    exact ⟨x, hsq⟩
  · exact iff_of_true hnone hempty

/-- The loops have one course, which has no negative shift. -/
theorem rootCourse_sqrt? (a : Int) :
    (∃ shifts, RootCourse fieldPrime a shifts (rootField.sqrt? a)) ∧
      ∀ shifts result, RootCourse fieldPrime a shifts result →
        result = rootField.sqrt? a ∧ ∀ shift ∈ shifts, 0 ≤ shift := by
  obtain ⟨shifts, hcourse, hshifts⟩ := rootField_valid.exists_course nonSquareSearch_three a
  constructor
  · exact ⟨shifts, hcourse⟩
  · intro shifts' result h
    obtain ⟨rfl, rfl⟩ := hcourse.unique h
    exact ⟨rfl, hshifts⟩

/-! ## Section 2: Ordinates -/

/-- Above an abscissa there are an ordinate and its opposite, and no others. -/
theorem onCurve_iff_of_onCurve {x y root : Int} (h : OnCurve ⟨x, root⟩) :
    OnCurve ⟨x, y⟩ ↔ y = root ∨ y = -root % fieldPrime := by
  obtain ⟨Q, hQ⟩ := onCurve_iff.mp h
  have hneg : coordinates? (-Q) = some ⟨x, -root % fieldPrime⟩ := coordinates?_neg hQ
  constructor
  · intro hy
    obtain ⟨P, hP⟩ := onCurve_iff.mp hy
    rcases eq_or_eq_neg_of_coordinates hP hQ rfl with rfl | rfl
    · left
      simpa using hP.symm.trans hQ
    · right
      simpa using hP.symm.trans hneg
  · intro hy
    rcases hy with rfl | rfl
    · exact h
    · exact onCurve_iff.mpr ⟨_, hneg⟩

/-- No ordinate is found exactly where there is no point. -/
theorem ordinate?_eq_none_iff (x : Int) : ordinate? x = none ↔ ∀ y, ¬OnCurve ⟨x, y⟩ := by
  rcases ordinate?_cases x with ⟨y, hy, hcurve⟩ | ⟨hnone, hempty⟩
  · rw [hy]
    simp only [reduceCtorEq, false_iff]
    intro hempty
    exact hempty y hcurve
  · exact iff_of_true hnone hempty

/-- The points above an abscissa are the one that is found and its reflection. -/
theorem onCurve_iff_of_ordinate? {x y root : Int} (h : ordinate? x = some root) :
    OnCurve ⟨x, y⟩ ↔ y = root ∨ y = -root % fieldPrime := by
  rcases ordinate?_cases x with ⟨y', hy, hcurve⟩ | ⟨hnone, _⟩
  · rw [h] at hy
    cases hy
    exact onCurve_iff_of_onCurve hcurve
  · rw [h] at hnone
    cases hnone

/-! ## Section 3: What is found -/

/-- The loops that search for a square root end for every number, in one way only and
    without a negative shift, and they end with a root of each square and with nothing
    for other numbers. So an ordinate is found at an abscissa unless no point lies above
    it, and the points above it are the one that is found and its reflection. -/
theorem roots_found_by_loops :
    (∀ a : Int,
      (∃ shifts, RootCourse fieldPrime a shifts (rootField.sqrt? a)) ∧
      (∀ shifts result, RootCourse fieldPrime a shifts result →
        result = rootField.sqrt? a ∧ ∀ shift ∈ shifts, 0 ≤ shift) ∧
      ((∃ y : Int, y * y ≡ a [ZMOD fieldPrime]) → ∃ x, rootField.sqrt? a = some x ∧
        (0 ≤ x ∧ x < fieldPrime) ∧ x * x ≡ a [ZMOD fieldPrime]) ∧
      (rootField.sqrt? a = none ↔ ¬∃ y : Int, y * y ≡ a [ZMOD fieldPrime])) ∧
    ∀ x : Int, (ordinate? x = none ↔ ∀ y, ¬OnCurve ⟨x, y⟩) ∧
      ∀ root, ordinate? x = some root →
        ∀ y, OnCurve ⟨x, y⟩ ↔ y = root ∨ y = -root % fieldPrime := by
  constructor
  · intro a
    obtain ⟨hends, hcourse⟩ := rootCourse_sqrt? a
    refine ⟨hends, hcourse, ?_, sqrt?_eq_none_iff a⟩
    intro hsquare
    rcases sqrt?_cases a with hfound | ⟨_, hempty⟩
    · exact hfound
    · exact absurd hsquare hempty
  · intro x
    refine ⟨ordinate?_eq_none_iff x, ?_⟩
    intro root hroot y
    exact onCurve_iff_of_ordinate? hroot

/-- The number 3 has no root and -1 has one. The root that is found above the abscissa of
    the generator is not the ordinate of the generator, which is the opposite one. -/
theorem roots_found_by_loops_minus_one :
    (¬∃ y : Int, y * y ≡ 3 [ZMOD fieldPrime]) ∧
    (∃ shifts root, RootCourse fieldPrime (-1) shifts (some root) ∧
      (∀ shift ∈ shifts, 0 ≤ shift) ∧ root * root ≡ -1 [ZMOD fieldPrime]) ∧
    ∃ point root, generator = some point ∧ ordinate? point.x = some root ∧
      root ≠ point.y ∧ point.y = -root % fieldPrime := by
  obtain ⟨hroots, hordinates⟩ := roots_found_by_loops
  have hthree : rootField.sqrt? 3 = none := by decide +kernel
  have hsquare : ∃ y : Int, y * y ≡ -1 [ZMOD fieldPrime] :=
    ⟨0x1dafdc6d65d66b5accedf99bcd607383ad971a9537cdf25d59e99d90becc81e, by decide +kernel⟩
  obtain ⟨⟨shifts, hcourse⟩, hcourses, hfound, _⟩ := hroots (-1)
  obtain ⟨root, hroot, _, hsq⟩ := hfound hsquare
  have hshifts : ∀ shift ∈ shifts, 0 ≤ shift := (hcourses shifts _ hcourse).2
  rw [hroot] at hcourse
  have hordinate : ordinate? 0x01ef15c18599971b7beced415a40f0c7deacfd9b0d1819e03d723d8bc943cfca =
      some 0x7a997f9f55b68e04841b7fe20b9139d21ac132ee541bc5cd78cfff3c91723e2 := by
    decide +kernel
  refine ⟨(hroots 3).2.2.2.mp hthree, ⟨shifts, root, hcourse, hshifts, hsq⟩, _, _, rfl,
    hordinate, by decide, ?_⟩
  -- The generator lies above its abscissa, and so is one of two points.
  have hpoint : OnCurve (generator.get rfl) := by decide
  rcases ((hordinates _).2 _ hordinate _).mp hpoint with hsame | hopposite
  · exact absurd hsame (by decide)
  · exact hopposite

end WalletKeys.Stark
