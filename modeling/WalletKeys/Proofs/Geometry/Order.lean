import Mathlib.GroupTheory.Perm.Cycle.Type
import WalletKeys.Proofs.Geometry.Ladder

/-! # The number of points of a curve

    A point of prime order `n` leaves a curve over the residues modulo `p` no
    choice but to have a multiple of `n` points. There are at most `2 * p + 1` of
    them, since an abscissa and a parity determine a point, and that leaves `n` or
    `2 * n` if `n` is close to `p`. The second would need a point of order two,
    whose abscissa is a root of `X³ + a * X + b`.

    That there is no such root is checked by a computation: a root is a fixed
    point of the `p`-th power, and modulo the cubic `X ^ p - X` has an inverse.
-/

namespace WalletKeys.Geometry

open WeierstrassCurve.Affine

/-! ## Section 1: Cubics without roots -/

/-- The polynomial `c₀ + c₁ * X + c₂ * X²`. -/
structure Quadratic where
  c₀ : Int
  c₁ : Int
  c₂ : Int
  deriving DecidableEq

namespace Quadratic

/-- The product modulo `X³ + a * X + b`, with reduced coefficients. -/
def mul (p : Nat) (a b : Int) (f g : Quadratic) : Quadratic :=
  let cube := f.c₁ * g.c₂ + f.c₂ * g.c₁
  let fourth := f.c₂ * g.c₂
  ⟨(f.c₀ * g.c₀ - b * cube) % p,
    (f.c₀ * g.c₁ + f.c₁ * g.c₀ - a * cube - b * fourth) % p,
    (f.c₀ * g.c₂ + f.c₁ * g.c₁ + f.c₂ * g.c₀ - a * fourth) % p⟩

/-- The power `X ^ k` modulo `X³ + a * X + b`, for `k` of at most `digits` binary
    digits. -/
def monomial (p : Nat) (a b : Int) : (digits k : Nat) → Quadratic
  | 0, _ => ⟨1, 0, 0⟩
  | digits + 1, k =>
    let half := monomial p a b digits (k / 2)
    let square := mul p a b half half
    if k % 2 = 1 then mul p a b ⟨0, 1, 0⟩ square else square

/-- The value at a residue. -/
def eval {p : Nat} (f : Quadratic) (x : ZMod p) : ZMod p := f.c₀ + f.c₁ * x + f.c₂ * x ^ 2

variable {p : Nat} {a b : Int} {x : ZMod p}

theorem eval_mul (hx : x ^ 3 + a * x + b = 0) (f g : Quadratic) :
    (mul p a b f g).eval x = f.eval x * g.eval x := by
  simp only [eval, mul, ZMod.intCast_mod]
  push_cast
  linear_combination (-(f.c₁ * g.c₂ + f.c₂ * g.c₁ : ZMod p) - f.c₂ * g.c₂ * x) * hx

theorem eval_monomial (hx : x ^ 3 + a * x + b = 0) (digits k : Nat) (hk : k < 2 ^ digits) :
    (monomial p a b digits k).eval x = x ^ k := by
  induction digits generalizing k with
  | zero =>
    obtain rfl : k = 0 := by simpa using hk
    simp [monomial, eval]
  | succ digits ih =>
    have hsquare := eval_mul hx (monomial p a b digits (k / 2)) (monomial p a b digits (k / 2))
    rw [ih (k / 2) (by rw [pow_succ] at hk; omega), ← pow_add] at hsquare
    unfold monomial
    by_cases hodd : k % 2 = 1
    · have hX : (Quadratic.mk 0 1 0).eval x = x := by simp [eval]
      rw [if_pos hodd, eval_mul hx, hsquare, hX, ← pow_succ']
      congr 1
      omega
    · rw [if_neg hodd, hsquare]
      congr 1
      omega

/-- A cubic has no root modulo a prime `p`, if some `inverse` shows that it has no
    common root with `X ^ p - X`. -/
theorem cubic_ne_zero [Fact p.Prime] (digits : Nat) (hp : p < 2 ^ digits) (inverse : Quadratic)
    (hinv : let power := monomial p a b digits p
      mul p a b ⟨power.c₀, power.c₁ - 1, power.c₂⟩ inverse = ⟨1, 0, 0⟩) (x : ZMod p) :
    x ^ 3 + a * x + b ≠ 0 := by
  intro hx
  have hpower := eval_monomial hx digits p hp
  rw [ZMod.pow_card] at hpower
  have hone := congrArg (fun f => eval f x) hinv
  simp only [eval_mul hx] at hone
  have hzero : (Quadratic.mk (monomial p a b digits p).c₀ ((monomial p a b digits p).c₁ - 1)
      (monomial p a b digits p).c₂).eval x = 0 := by
    simp only [eval] at hpower ⊢
    push_cast
    linear_combination hpower
  rw [hzero, zero_mul] at hone
  simp [eval] at hone

end Quadratic

/-! ## Section 2: Abscissa and parity -/

variable {p : Nat} [hp : Fact p.Prime] {a b : Int}

omit hp in
/-- The opposite of a reduced number other than zero. Modulo an odd number it has the
    other parity. -/
theorem neg_emod_eq {y : Int} (hy : 0 ≤ y ∧ y < p) (hne : y ≠ 0) : -y % p = p - y := by
  rw [← Int.add_emod_left, ← sub_eq_add_neg, Int.emod_eq_of_lt (by omega) (by omega)]

/-- Points with one abscissa and ordinates of one parity are equal. -/
theorem eq_of_abscissa_of_parity (hodd : p % 2 = 1) {P Q : (residueCurve p a b).Point}
    {u v : Affine} (hu : coordinates? P = some u) (hv : coordinates? Q = some v)
    (hx : u.x = v.x) (hy : u.y % 2 = v.y % 2) : P = Q := by
  rcases eq_or_eq_neg_of_coordinates hu hv hx with rfl | rfl
  · rfl
  · obtain ⟨_, hrange⟩ := coordinates?_range hv
    rw [coordinates?_neg hv, Option.some_inj] at hu
    subst hu
    -- On the axis a point is its own opposite. Elsewhere the parities differ.
    by_cases hzero : v.y = 0
    · apply coordinates?_injective
      rw [coordinates?_neg hv, hv, hzero, neg_zero, Int.zero_emod, ← hzero]
    · dsimp only at hy
      rw [neg_emod_eq hrange hzero] at hy
      omega

/-- The abscissa of a point and whether its ordinate is odd. -/
def compressed (P : (residueCurve p a b).Point) : Option (ZMod p × Bool) :=
  (coordinates? P).map fun q => ((q.x : ZMod p), decide (q.y % 2 = 1))

theorem compressed_injective (hodd : p % 2 = 1) :
    Function.Injective (compressed : (residueCurve p a b).Point → Option (ZMod p × Bool)) := by
  intro P Q h
  cases hu : coordinates? P with
  | none =>
    cases hv : coordinates? Q with
    | none => rw [coordinates?_eq_none_iff.mp hu, coordinates?_eq_none_iff.mp hv]
    | some v => simp [compressed, hu, hv] at h
  | some u =>
    cases hv : coordinates? Q with
    | none => simp [compressed, hu, hv] at h
    | some v =>
      simp only [compressed, hu, hv, Option.map_some, Option.some_inj, Prod.mk.injEq,
        decide_eq_decide] at h
      obtain ⟨⟨hux, hup⟩, _⟩ := coordinates?_range hu
      obtain ⟨⟨hvx, hvp⟩, _⟩ := coordinates?_range hv
      have hx : u.x = v.x := by
        have hmod := (ZMod.intCast_eq_intCast_iff' _ _ p).mp h.1
        rwa [Int.emod_eq_of_lt hux hup, Int.emod_eq_of_lt hvx hvp] at hmod
      exact eq_of_abscissa_of_parity hodd hu hv hx (by omega)

/-! ## Section 3: Counting -/

/-- A curve has at most two points above each abscissa, and the neutral element. -/
theorem card_le (hodd : p % 2 = 1) : Nat.card (residueCurve p a b).Point ≤ 2 * p + 1 := by
  calc Nat.card (residueCurve p a b).Point
      ≤ Nat.card (Option (ZMod p × Bool)) :=
        Nat.card_le_card_of_injective _ (compressed_injective hodd)
    _ = 2 * p + 1 := by
        rw [Finite.card_option, Nat.card_prod, Nat.card_zmod, Nat.card_eq_fintype_card,
          Fintype.card_bool, mul_comm]

/-- A point that is its own opposite lies on the axis, where a curve without roots
    has none. -/
theorem eq_zero_of_add_self [hell : (residueCurve p a b).IsElliptic]
    (hroot : ∀ x : ZMod p, x ^ 3 + a * x + b ≠ 0) {P : (residueCurve p a b).Point}
    (hP : P + P = 0) : P = 0 := by
  cases P with
  | zero => rfl
  | some x y h =>
    by_cases hy : y = 0
    · have heq := residueCurve_equation_iff.mp h.1
      rw [hy, zero_pow two_ne_zero] at heq
      exact absurd heq.symm (hroot x)
    · obtain ⟨ℓ, _, _, hsum⟩ := add_self_eq hell h hy
      exact absurd (hsum.symm.trans hP) (Point.some_ne_zero _)

theorem not_two_dvd_card [Finite (residueCurve p a b).Point] [(residueCurve p a b).IsElliptic]
    (hroot : ∀ x : ZMod p, x ^ 3 + a * x + b ≠ 0) :
    ¬2 ∣ Nat.card (residueCurve p a b).Point := by
  intro htwo
  obtain ⟨P, hP⟩ := exists_prime_addOrderOf_dvd_card' (G := (residueCurve p a b).Point) 2 htwo
  have hzero : P = 0 := by
    apply eq_zero_of_add_self hroot
    rw [← two_nsmul, ← hP]
    exact addOrderOf_nsmul_eq_zero P
  rw [hzero, addOrderOf_zero] at hP
  exact absurd hP (by decide)

/-- A curve without roots that has a point of prime order `n` close to `p` has
    exactly `n` points. -/
theorem card_eq {n : Nat} [hn : Fact n.Prime] [hell : (residueCurve p a b).IsElliptic]
    (hroot : ∀ x : ZMod p, x ^ 3 + a * x + b ≠ 0) (hsize : 2 * p + 1 < 3 * n)
    {B : (residueCurve p a b).Point} (hB : B ≠ 0) (hnB : n • B = 0) :
    Nat.card (residueCurve p a b).Point = n := by
  have hodd : p % 2 = 1 := hp.out.eq_two_or_odd.resolve_left fun htwo =>
    two_ne_zero_of_elliptic hell (by subst htwo; rfl)
  have : Finite (residueCurve p a b).Point := Finite.of_injective _ (compressed_injective hodd)
  have hdvd : n ∣ Nat.card (residueCurve p a b).Point := by
    rw [← addOrderOf_eq_prime hnB hB]
    exact addOrderOf_dvd_natCard B
  -- The number of points is `c * n`. The bound leaves one and two for `c`, and two is even.
  obtain ⟨c, hc⟩ := hdvd
  have hle : n * c ≤ 2 * p + 1 := hc ▸ card_le hodd
  have hpos : 0 < n * c := hc ▸ Nat.card_pos
  have hc3 : c < 3 := by
    by_contra hge
    have := Nat.mul_le_mul_left n (Nat.le_of_not_lt hge)
    omega
  have hc2 : c ≠ 2 := by
    intro htwo
    apply not_two_dvd_card hroot
    rw [hc, htwo]
    exact dvd_mul_left 2 n
  have hc1 : c = 1 := by
    rcases Nat.eq_zero_or_pos c with rfl | hcpos
    · simp at hpos
    · omega
  rw [hc, hc1, mul_one]

/-- On such a curve every point has the order of the base point. -/
theorem nsmul_eq_zero_of_base {n : Nat} [Fact n.Prime] [(residueCurve p a b).IsElliptic]
    (hroot : ∀ x : ZMod p, x ^ 3 + a * x + b ≠ 0) (hsize : 2 * p + 1 < 3 * n)
    {B : (residueCurve p a b).Point} (hB : B ≠ 0) (hnB : n • B = 0)
    (P : (residueCurve p a b).Point) : n • P = 0 := by
  rw [← card_eq hroot hsize hB hnB]
  exact card_nsmul_eq_zero'

/-! ## Section 4: Scalars -/

section Scalars

variable {G : Type} [AddCommGroup G] {n : Nat}

/-- A multiple depends on its scalar modulo the order only. -/
theorem zsmul_congr {P : G} (hP : n • P = 0) {k l : Int} (h : k ≡ l [ZMOD n]) : k • P = l • P := by
  obtain ⟨c, hc⟩ := h.dvd
  obtain rfl : l = k + c * n := by linarith
  rw [add_zsmul, mul_zsmul, natCast_zsmul, hP, zsmul_zero, add_zero]

/-- The multiples that vanish are those by multiples of the order. -/
theorem zsmul_eq_zero_iff [hn : Fact n.Prime] {P : G} (hP : n • P = 0) (hne : P ≠ 0) (k : Int) :
    k • P = 0 ↔ (n : Int) ∣ k := by
  rw [← addOrderOf_eq_prime hP hne, addOrderOf_dvd_iff_zsmul_eq_zero]

theorem zsmul_ne_zero_of_emod [Fact n.Prime] {P : G} (hP : n • P = 0) (hne : P ≠ 0) {k : Int}
    (hk : k % n ≠ 0) : k • P ≠ 0 := by
  rw [Ne, zsmul_eq_zero_iff hP hne]
  exact mt Int.emod_eq_zero_of_dvd hk

/-- Multiples of an element other than zero are equal for congruent scalars only. -/
theorem zsmul_eq_zsmul_iff [Fact n.Prime] {P : G} (hP : n • P = 0) (hne : P ≠ 0) {k l : Int} :
    k • P = l • P ↔ k ≡ l [ZMOD n] := by
  rw [zsmul_eq_zsmul_iff_modEq, addOrderOf_eq_prime hP hne]

/-- Scalars that are inverse to each other undo each other. -/
theorem zsmul_eq_iff_of_inverse {P Q : G} (hP : n • P = 0) (hQ : n • Q = 0) {k l : Int}
    (h : k * l ≡ 1 [ZMOD n]) : k • P = Q ↔ P = l • Q := by
  constructor
  · rintro rfl
    rw [← mul_zsmul', zsmul_congr hP h, one_zsmul]
  · rintro rfl
    rw [← mul_zsmul, zsmul_congr hQ h, one_zsmul]

/-- A scalar may be reduced. -/
theorem emod_zsmul {P : G} (hP : n • P = 0) (k : Int) : (k % n) • P = k • P :=
  zsmul_congr hP (Int.mod_modEq k n)

/-- The opposite scalar makes the opposite multiple. -/
theorem order_sub_zsmul {P : G} (hP : n • P = 0) (k : Int) : (n - k : Int) • P = -(k • P) := by
  rw [sub_zsmul, natCast_zsmul, hP, zero_add]

/-- A combination is divided by a scalar by multiplying its scalars with the inverse. -/
theorem zsmul_eq_combination_iff (hG : ∀ P : G, n • P = 0) {k t : Int} (h : k * t ≡ 1 [ZMOD n])
    {P A B : G} {a b : Int} : k • P = a • A + b • B ↔ P = (a * t) • A + (b * t) • B := by
  rw [zsmul_eq_iff_of_inverse (hG _) (hG _) h, zsmul_add, ← mul_zsmul', ← mul_zsmul']

/-- `P` divided by the scalar `s`: its multiple by the inverse of `s` modulo `n`. -/
def quotient (n : Nat) (s : Int) (P : G) : G := (s : ZMod n)⁻¹.val • P

/-- The quotient is the only element of which `P` is the multiple by `s`. -/
theorem zsmul_eq_iff_quotient [Fact n.Prime] (hG : ∀ P : G, n • P = 0) {s : Int}
    (hs : ¬(n : Int) ∣ s) {P R : G} : s • R = P ↔ R = quotient n s P := by
  have hne : (s : ZMod n) ≠ 0 := mt (ZMod.intCast_zmod_eq_zero_iff_dvd s n).mp hs
  have hinv : s * ((s : ZMod n)⁻¹.val : Int) ≡ 1 [ZMOD n] := by
    rw [← ZMod.intCast_eq_intCast_iff, Int.cast_mul, Int.cast_natCast, ZMod.natCast_zmod_val,
      mul_inv_cancel₀ hne, Int.cast_one]
  rw [zsmul_eq_iff_of_inverse (hG R) (hG P) hinv, natCast_zsmul, quotient]

/-- Scalars multiplied by any inverse make the quotient of a combination. -/
theorem combination_eq_quotient [Fact n.Prime] (hG : ∀ P : G, n • P = 0) {s t : Int}
    (hs : ¬(n : Int) ∣ s) (h : s * t ≡ 1 [ZMOD n]) {A B : G} {a b : Int} :
    (a * t) • A + (b * t) • B = quotient n s (a • A + b • B) := by
  rw [← zsmul_eq_iff_quotient hG hs, zsmul_eq_combination_iff hG h]

end Scalars

end WalletKeys.Geometry
