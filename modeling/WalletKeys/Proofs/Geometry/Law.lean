import Mathlib.Algebra.Group.Basic

/-! # The laws of a group, for operations on coordinates

    Addition of points is defined on any coordinates and may be refused on some
    of them. `GroupLaw` says that on a certain set of values it is never refused
    there and makes a commutative group of them.

    An operation has the laws if it is the addition of a group seen through a view
    that tells its elements apart (`groupLaw_of_view`). So for each curve it is
    enough to know what elements look like and that adding them is adding what
    they look like.
-/

namespace WalletKeys.Geometry

/-- On the values of `carrier` the operation `add` has a result and is the addition of
    a commutative group with the neutral element `zero` and the opposites `neg`. -/
structure GroupLaw {m : Type → Type} [Monad m] {α : Type} (carrier : α → Prop)
    (add : α → α → m α) (zero : α) (neg : α → α) : Prop where
  zero_mem : carrier zero
  neg_mem : ∀ {p}, carrier p → carrier (neg p)
  add_mem : ∀ {p q}, carrier p → carrier q → ∃ sum, add p q = pure sum ∧ carrier sum
  add_comm : ∀ {p q}, carrier p → carrier q → add p q = add q p
  add_assoc : ∀ {p q r}, carrier p → carrier q → carrier r →
    (do let sum ← add p q; add sum r) = (do let sum ← add q r; add p sum)
  zero_add : ∀ {p}, carrier p → add zero p = pure p
  add_zero : ∀ {p}, carrier p → add p zero = pure p
  add_neg : ∀ {p}, carrier p → add p (neg p) = pure zero
  /-- Only opposite values have the sum `zero`. -/
  add_eq_zero_iff : ∀ {p q}, carrier p → carrier q → (add p q = pure zero ↔ q = neg p)

/-- The addition of a group seen through an injective view has the laws of a group on
    the values in view. -/
theorem groupLaw_of_view {m : Type → Type} [Monad m] [LawfulMonad m] {α G : Type}
    [AddCommGroup G] {carrier : α → Prop} {add : α → α → m α} {zero : α} {neg : α → α}
    {view : G → α} (hview : Function.Injective view)
    (hpure : Function.Injective (pure : α → m α))
    (hcarrier : ∀ p, carrier p ↔ ∃ P, view P = p)
    (hadd : ∀ P Q, add (view P) (view Q) = pure (view (P + Q))) (hzero : view 0 = zero)
    (hneg : ∀ P, neg (view P) = view (-P)) : GroupLaw carrier add zero neg where
  zero_mem := (hcarrier _).mpr ⟨0, hzero⟩
  neg_mem := by
    intro p hp
    obtain ⟨P, rfl⟩ := (hcarrier p).mp hp
    exact (hcarrier _).mpr ⟨-P, (hneg P).symm⟩
  add_mem := by
    intro p q hp hq
    obtain ⟨P, rfl⟩ := (hcarrier p).mp hp
    obtain ⟨Q, rfl⟩ := (hcarrier q).mp hq
    exact ⟨view (P + Q), hadd P Q, (hcarrier _).mpr ⟨P + Q, rfl⟩⟩
  add_comm := by
    intro p q hp hq
    obtain ⟨P, rfl⟩ := (hcarrier p).mp hp
    obtain ⟨Q, rfl⟩ := (hcarrier q).mp hq
    rw [hadd, hadd, add_comm]
  add_assoc := by
    intro p q r hp hq hr
    obtain ⟨P, rfl⟩ := (hcarrier p).mp hp
    obtain ⟨Q, rfl⟩ := (hcarrier q).mp hq
    obtain ⟨R, rfl⟩ := (hcarrier r).mp hr
    rw [hadd, hadd, pure_bind, pure_bind, hadd, hadd, add_assoc]
  zero_add := by
    intro p hp
    obtain ⟨P, rfl⟩ := (hcarrier p).mp hp
    rw [← hzero, hadd, zero_add]
  add_zero := by
    intro p hp
    obtain ⟨P, rfl⟩ := (hcarrier p).mp hp
    rw [← hzero, hadd, add_zero]
  add_neg := by
    intro p hp
    obtain ⟨P, rfl⟩ := (hcarrier p).mp hp
    rw [hneg, hadd, add_neg_cancel, hzero]
  add_eq_zero_iff := by
    intro p q hp hq
    obtain ⟨P, rfl⟩ := (hcarrier p).mp hp
    obtain ⟨Q, rfl⟩ := (hcarrier q).mp hq
    rw [← hzero, hadd, hpure.eq_iff, hview.eq_iff, hneg, hview.eq_iff, add_eq_zero_iff_neg_eq,
      eq_comm]

end WalletKeys.Geometry
