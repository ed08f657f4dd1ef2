import WalletKeys.Proofs.Secp256k1.Group
import WalletKeys.Proofs.Stark.Group

/-! # Multiples are repeated sums

    Both curves multiply by doubling and adding, after reducing the scalar by the
    order. What a multiple should be is said here without either: copies of a point
    are added up one after the other (`sumOfCopies`), and a negative number of copies
    is that number of copies of the opposite (`repeated`). `MultipleLaw` says that an
    operation is that multiple, with the laws that follow for sums and products of
    scalars, and which multiples vanish.

    The reduction is what needs the curve to be known as a whole: it is right for a
    point only if the order annihilates that point, and the operations are used on
    points of unknown origin.
-/

namespace WalletKeys.Geometry

/-! ## Section 1: Repeated sums -/

section Repeated

variable {m : Type → Type} [Monad m] {α : Type}

/-- The sum of `k` copies of `p`, with one addition for each copy. -/
def sumOfCopies (add : α → α → m α) (zero p : α) : Nat → m α
  | 0 => pure zero
  | k + 1 => do
    let sum ← sumOfCopies add zero p k
    add sum p

/-- The sum of `d` copies of `p`, where a negative number counts copies of its
    opposite. -/
def repeated (add : α → α → m α) (zero : α) (neg : α → α) (p : α) : Int → m α
  | .ofNat k => sumOfCopies add zero p k
  | .negSucc k => sumOfCopies add zero (neg p) (k + 1)

variable [LawfulMonad m] {G : Type} [AddCommGroup G] {add : α → α → m α} {zero : α}
  {neg : α → α} {view : G → α}

/-- Adding up what is seen of an element shows a multiple of the element. -/
theorem sumOfCopies_view (hadd : ∀ P Q, add (view P) (view Q) = pure (view (P + Q)))
    (hzero : view 0 = zero) (P : G) (k : Nat) :
    sumOfCopies add zero (view P) k = pure (view (k • P)) := by
  induction k with
  | zero => rw [sumOfCopies, zero_nsmul, hzero]
  | succ k ih => rw [sumOfCopies, ih, pure_bind, hadd, succ_nsmul]

theorem repeated_view (hadd : ∀ P Q, add (view P) (view Q) = pure (view (P + Q)))
    (hzero : view 0 = zero) (hneg : ∀ P, neg (view P) = view (-P)) (P : G) (d : Int) :
    repeated add zero neg (view P) d = pure (view (d • P)) := by
  cases d with
  | ofNat k =>
    rw [repeated, sumOfCopies_view hadd hzero, Int.ofNat_eq_natCast, natCast_zsmul]
  | negSucc k =>
    rw [repeated, hneg, sumOfCopies_view hadd hzero, negSucc_zsmul, neg_nsmul]

end Repeated

/-! ## Section 2: The laws of multiples -/

/-- On the values of `carrier` the operation `multiple` is the multiple by an integer
    under `add`, where `order` tells which multiples vanish. -/
structure MultipleLaw {m : Type → Type} [Monad m] {α : Type} (carrier : α → Prop)
    (add : α → α → m α) (zero : α) (neg : α → α) (multiple : Int → α → m α)
    (order : Nat) : Prop where
  multiple_mem : ∀ d {p}, carrier p → ∃ q, multiple d p = pure q ∧ carrier q
  multiple_eq_repeated : ∀ d {p}, carrier p → multiple d p = repeated add zero neg p d
  add_multiple : ∀ a b {p}, carrier p →
    multiple (a + b) p = do let u ← multiple a p; let v ← multiple b p; add u v
  multiple_multiple : ∀ a b {p}, carrier p →
    (do let q ← multiple b p; multiple a q) = multiple (a * b) p
  /-- Only multiples of the order annihilate a value other than `zero`. -/
  multiple_eq_zero_iff : ∀ d {p}, carrier p →
    (multiple d p = pure zero ↔ (order : Int) ∣ d ∨ p = zero)

/-- The multiples of a group of prime exponent, seen through an injective view, obey
    the laws on the values in view. -/
theorem multipleLaw_of_view {m : Type → Type} [Monad m] [LawfulMonad m] {α G : Type}
    [AddCommGroup G] {carrier : α → Prop} {add : α → α → m α} {zero : α} {neg : α → α}
    {multiple : Int → α → m α} {order : Nat} [Fact order.Prime] {view : G → α}
    (hview : Function.Injective view) (hpure : Function.Injective (pure : α → m α))
    (hcarrier : ∀ p, carrier p ↔ ∃ P, view P = p)
    (hadd : ∀ P Q, add (view P) (view Q) = pure (view (P + Q))) (hzero : view 0 = zero)
    (hneg : ∀ P, neg (view P) = view (-P))
    (hmultiple : ∀ d P, multiple d (view P) = pure (view (d • P)))
    (horder : ∀ P : G, order • P = 0) :
    MultipleLaw carrier add zero neg multiple order where
  multiple_mem := by
    intro d p hp
    obtain ⟨P, rfl⟩ := (hcarrier p).mp hp
    exact ⟨view (d • P), hmultiple d P, (hcarrier _).mpr ⟨d • P, rfl⟩⟩
  multiple_eq_repeated := by
    intro d p hp
    obtain ⟨P, rfl⟩ := (hcarrier p).mp hp
    rw [hmultiple, repeated_view hadd hzero hneg]
  add_multiple := by
    intro a b p hp
    obtain ⟨P, rfl⟩ := (hcarrier p).mp hp
    rw [hmultiple, hmultiple, hmultiple, pure_bind, pure_bind, hadd, add_zsmul]
  multiple_multiple := by
    intro a b p hp
    obtain ⟨P, rfl⟩ := (hcarrier p).mp hp
    rw [hmultiple, pure_bind, hmultiple, hmultiple, mul_zsmul]
  multiple_eq_zero_iff := by
    intro d p hp
    obtain ⟨P, rfl⟩ := (hcarrier p).mp hp
    rw [← hzero, hmultiple, hpure.eq_iff, hview.eq_iff, hview.eq_iff]
    -- The order is a prime, so it is the exact order of every element but zero.
    by_cases hP : P = 0
    · rw [hP, zsmul_zero]
      exact iff_of_true rfl (.inr rfl)
    · rw [zsmul_eq_zero_iff (horder P) hP, or_iff_left hP]

end WalletKeys.Geometry

/-! ## Section 3: The two curves -/

namespace WalletKeys

open WalletKeys.Geometry

/-- On both curves `multiple` is the multiple by any integer on all of the curve: it is
    the sum of that many copies, it takes sums of scalars to sums and products of
    scalars to multiples of multiples, and it leads to the neutral element from there
    and by multiples of the order only. It is the multiple in the group of the curve. -/
theorem multipleLaw_on_curves :
    (MultipleLaw Secp256k1.StandsForElement Secp256k1.add Secp256k1.identity
        Secp256k1.opposite Secp256k1.multiple Secp256k1.order ∧
      ∀ (d : Int) (P : Secp256k1.Element),
        Secp256k1.multiple d (Secp256k1.coordinates P) = .ok (Secp256k1.coordinates (d • P))) ∧
    (MultipleLaw Stark.StandsForElement (fun p q => (pure (Stark.add p q) : Id Stark.Point))
        none Stark.neg (fun d p => (pure (Stark.multiple d p) : Id Stark.Point)) Stark.order ∧
      ∀ (d : Int) (P : Stark.Element),
        Stark.multiple d (coordinates? P) = coordinates? (d • P)) := by
  refine ⟨⟨?_, Secp256k1.multiple_coordinates⟩, ?_, Stark.multiple_coordinates⟩
  · exact multipleLaw_of_view Secp256k1.coordinates_injective (fun _ _ => Except.ok.inj)
      Secp256k1.standsForElement_iff Secp256k1.add_coordinates Secp256k1.coordinates_zero
      Secp256k1.opposite_coordinates Secp256k1.multiple_coordinates Secp256k1.order_nsmul
  -- On the STARK curve no operation can be refused, so its results stand in the trivial monad.
  · exact multipleLaw_of_view coordinates?_injective (fun _ _ h => h)
      Stark.standsForElement_iff Stark.add_coordinates coordinates?_zero
      Stark.neg_coordinates (fun d P => congrArg pure (Stark.multiple_coordinates d P))
      Stark.order_nsmul

end WalletKeys
