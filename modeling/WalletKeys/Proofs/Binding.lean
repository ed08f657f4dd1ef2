import Mathlib.Data.Set.Card
import WalletKeys.Proofs.Secp256k1.Verification
import WalletKeys.Proofs.Stark.Verification

/-! # What an accepted signature is bound to

    An accepted signature shows a nonce point `R` with `s * R = z * base + r * Q`. If
    all but one of the numbers in this equation are known, the points that are possible
    for `R` and `Q` leave few values for the last one: a hash is determined by its
    multiple of the base point, and the scalar `s` by its multiple of `R`, which is not
    the neutral element.

    So it is enough to count points. Above an abscissa lie two. The nonce point has the
    abscissa `r`, or on secp256k1 one that exceeds it by the order, if the field has
    room for that. The key's point is known on secp256k1, and one of two on the STARK
    curve.
-/

namespace WalletKeys

open WalletKeys.Geometry WalletKeys.Modular

/-! ## Section 1: Counting points -/

namespace Geometry

/-- A set is no larger than another one if each of its members is related to a member of
    the other, and no two to the same one. -/
theorem encard_le_of_related {α β : Type} {A : Set α} {B : Set β} (related : α → β → Prop)
    (hex : ∀ a ∈ A, ∃ b ∈ B, related a b)
    (hunique : ∀ a ∈ A, ∀ a' ∈ A, ∀ b, related a b → related a' b → a = a') :
    A.encard ≤ B.encard := by
  choose f hmem hrelated using hex
  have hinjective : Function.Injective fun a : A => (⟨f a a.2, hmem a a.2⟩ : B) := by
    intro a a' h
    have hsame : f a a.2 = f a' a'.2 := congrArg Subtype.val h
    have hrelated' := hrelated a' a'.2
    rw [← hsame] at hrelated'
    exact Subtype.ext (hunique a a.2 a' a'.2 _ (hrelated a a.2) hrelated')
  exact Function.Embedding.encard_le ⟨_, hinjective⟩

theorem encard_pair_le {α : Type} (a b : α) : ({a, b} : Set α).encard ≤ 2 := by
  have h := Set.encard_insert_le {b} a
  rwa [Set.encard_singleton, one_add_one_eq_two] at h

variable {p : Nat} [Fact p.Prime] {a b : Int}

/-- The points with a given abscissa. -/
def pointsAbove (x : Int) : Set (residueCurve p a b).Point :=
  {P | ∃ q, coordinates? P = some q ∧ q.x = x}

/-- Points above one abscissa are equal or opposite. -/
theorem eq_or_eq_neg_of_above {x : Int} {P Q : (residueCurve p a b).Point}
    (hP : P ∈ pointsAbove x) (hQ : Q ∈ pointsAbove x) : P = Q ∨ P = -Q := by
  obtain ⟨u, hu, hux⟩ := hP
  obtain ⟨v, hv, hvx⟩ := hQ
  exact eq_or_eq_neg_of_coordinates hu hv (hux.trans hvx.symm)

theorem encard_pointsAbove_le (x : Int) :
    (pointsAbove x : Set (residueCurve p a b).Point).encard ≤ 2 := by
  rcases (pointsAbove x).eq_empty_or_nonempty with hempty | ⟨Q, hQ⟩
  · rw [hempty, Set.encard_empty]
    exact zero_le
  · have hsubset : (pointsAbove x : Set (residueCurve p a b).Point) ⊆ {Q, -Q} := by
      intro P hP
      exact eq_or_eq_neg_of_above hP hQ
    exact (Set.encard_le_encard hsubset).trans (encard_pair_le Q (-Q))

end Geometry

/-! ## Section 2: secp256k1 -/

namespace Secp256k1

variable {code hash : Octets} {z z' r s s' : Int} {Q R : Element}

/-- The nonce point determines the number that was signed, up to multiples of the
    order. -/
theorem Fits.hash_modEq (h : Fits z r s Q R) (h' : Fits z' r s Q R) : z ≡ z' [ZMOD order] := by
  rw [← zsmul_eq_zsmul_iff order_nsmul_base base_ne_zero]
  exact add_right_cancel (h.equation.symm.trans h'.equation)

/-- The nonce point determines the second scalar. -/
theorem Fits.scalar_eq (hrange : InRange r s) (hrange' : InRange r s') (h : Fits z r s Q R)
    (h' : Fits z r s' Q R) : s = s' := by
  have hmod := (zsmul_eq_zsmul_iff (order_nsmul R) (h.ne_zero hrange.1.1)).mp
    (h.equation.trans h'.equation.symm)
  exact eq_of_modEq_of_range hmod ⟨hrange.2.1.le, hrange.2.2⟩ ⟨hrange'.2.1.le, hrange'.2.2⟩

/-- The nonce point of a signature that is accepted under a code. -/
structure Shows (code : Octets) (z r s : Int) (R : Element) : Prop where
  range : InRange r s
  fits : ∃ Q, decode code = .ok (coordinates Q) ∧ Fits z r s Q R

theorem verify_iff_exists_shows :
    verify hash r s code = .ok true ↔ hash.length = 32 ∧ ∃ R, Shows code hash.toNat r s R := by
  constructor
  · intro h
    obtain ⟨Q, hcode⟩ := exists_decode_of_verify h
    obtain ⟨hlength, hrange, R, hfits⟩ := (verify_eq_true_iff hcode).mp h
    exact ⟨hlength, R, hrange, Q, hcode, hfits⟩
  · rintro ⟨hlength, R, hrange, Q, hcode, hfits⟩
    exact (verify_eq_true_iff hcode).mpr ⟨hlength, hrange, R, hfits⟩

/-- The points that one code shows are those of one key. -/
theorem Shows.exists_fits (h : Shows code z r s R) {R' : Element} (h' : Shows code z' r s' R') :
    ∃ Q, Fits z r s Q R ∧ Fits z' r s' Q R' := by
  obtain ⟨Q, hcode, hfits⟩ := h.fits
  obtain ⟨Q', hcode', hfits'⟩ := h'.fits
  have hsame : coordinates Q = coordinates Q' := Except.ok.inj (hcode.symm.trans hcode')
  obtain rfl := coordinates_injective hsame
  exact ⟨Q, hfits, hfits'⟩

/-- The abscissa of a nonce point is the first scalar, or exceeds it by the order. -/
theorem Shows.mem_pointsAbove (h : Shows code z r s R) :
    R ∈ (pointsAbove r ∪ pointsAbove (r + order) : Set Element) := by
  obtain ⟨Q, _, hfits⟩ := h.fits
  have hR := hfits.ne_zero h.range.1.1
  have hsome := coordinates?_eq_some hR
  have habscissa := hfits.abscissa
  rw [abscissa_emod_order (onCurve_coordinates hR)] at habscissa
  split at habscissa
  · exact .inr ⟨_, hsome, by omega⟩
  · exact .inl ⟨_, hsome, habscissa⟩

/-- Without room for the order, the abscissa is the first scalar. -/
theorem Shows.mem_pointsAbove_of_le (h : Shows code z r s R)
    (hroom : (fieldPrime : Int) ≤ r + order) : R ∈ (pointsAbove r : Set Element) := by
  rcases h.mem_pointsAbove with habove | ⟨q, hq, hx⟩
  · exact habove
  · have hlt := (coordinates?_range hq).1.2
    omega

theorem encard_noncePoints_le (r : Int) :
    (pointsAbove r ∪ pointsAbove (r + order) : Set Element).encard ≤ 4 := by
  calc (pointsAbove r ∪ pointsAbove (r + order) : Set Element).encard
      ≤ (pointsAbove r : Set Element).encard + (pointsAbove (r + order) : Set Element).encard :=
        Set.encard_union_le _ _
    _ ≤ 2 + 2 := add_le_add (encard_pointsAbove_le r) (encard_pointsAbove_le (r + order))
    _ = 4 := by norm_num

/-- The hashes that are accepted with a signature leave at most four remainders. -/
theorem encard_acceptedResidues_le (code : Octets) (r s : Int) :
    {z : Int | ∃ hash : Octets, verify hash r s code = .ok true ∧
      (hash.toNat : Int) % order = z}.encard ≤ 4 := by
  refine (encard_le_of_related
    (fun z R => ∃ hash : Octets, (hash.toNat : Int) % order = z ∧ Shows code hash.toNat r s R)
    ?_ ?_).trans (encard_noncePoints_le r)
  · rintro z ⟨hash, hverify, hz⟩
    obtain ⟨_, R, hshows⟩ := verify_iff_exists_shows.mp hverify
    exact ⟨R, hshows.mem_pointsAbove, hash, hz, hshows⟩
  · rintro _ _ _ _ R ⟨hash, rfl, hshows⟩ ⟨hash', rfl, hshows'⟩
    obtain ⟨Q, hfits, hfits'⟩ := hshows.exists_fits hshows'
    exact hfits.hash_modEq hfits'

/-- No two second scalars show one nonce point. -/
theorem Shows.scalar_eq (h : Shows code z r s R) (h' : Shows code z r s' R) : s = s' := by
  obtain ⟨Q, hfits, hfits'⟩ := h.exists_fits h'
  exact hfits.scalar_eq h.range h'.range hfits'

/-- At most four second scalars are accepted for one hash. -/
theorem encard_acceptedScalars_le (code hash : Octets) (r : Int) :
    {s : Int | verify hash r s code = .ok true}.encard ≤ 4 := by
  refine (encard_le_of_related (fun s R => Shows code hash.toNat r s R) ?_ ?_).trans
    (encard_noncePoints_le r)
  · intro s hverify
    obtain ⟨_, R, hshows⟩ := verify_iff_exists_shows.mp hverify
    exact ⟨R, hshows.mem_pointsAbove, hshows⟩
  · intro s _ s' _ R hshows hshows'
    exact hshows.scalar_eq hshows'

/-- The opposite second scalar shows the opposite nonce point. -/
theorem Shows.neg (h : Shows code z r s R) : Shows code z r (order - s) (-R) where
  range := inRange_opposite_iff.mpr h.range
  fits := by
    obtain ⟨Q, hcode, hfits⟩ := h.fits
    exact ⟨Q, hcode, hfits.neg h.range.1.1⟩

/-- Without room for the order, an accepted scalar shares its hash with its opposite and
    with no other. -/
theorem acceptedScalars_eq (hroom : (fieldPrime : Int) ≤ r + order)
    (h : verify hash r s code = .ok true) :
    {s' : Int | verify hash r s' code = .ok true} = {s, order - s} := by
  obtain ⟨hlength, R, hshows⟩ := verify_iff_exists_shows.mp h
  ext s'
  constructor
  · intro h'
    obtain ⟨_, R', hshows'⟩ := verify_iff_exists_shows.mp h'
    rcases eq_or_eq_neg_of_above (hshows'.mem_pointsAbove_of_le hroom)
      (hshows.mem_pointsAbove_of_le hroom) with rfl | rfl
    · exact .inl (hshows'.scalar_eq hshows)
    · exact .inr (hshows'.scalar_eq hshows.neg)
  · rintro (rfl | rfl)
    · exact h
    · exact verify_iff_exists_shows.mpr ⟨hlength, -R, hshows.neg⟩

theorem encard_acceptedScalars_le_two (hroom : (fieldPrime : Int) ≤ r + order) :
    {s : Int | verify hash r s code = .ok true}.encard ≤ 2 := by
  rcases Set.eq_empty_or_nonempty {s : Int | verify hash r s code = .ok true} with
    hempty | ⟨s, h⟩
  · rw [hempty, Set.encard_empty]
    exact zero_le
  · rw [acceptedScalars_eq hroom h]
    exact encard_pair_le s (order - s)

end Secp256k1

/-! ## Section 3: The STARK curve -/

namespace Stark

variable {key hash hash' r s s' : Int}

/-- The points of the key and of the nonce of an accepted signature. -/
structure Shows (key hash r s : Int) (points : Element × Element) : Prop where
  hashRange : 0 ≤ hash ∧ hash < bound
  scalarRange : 1 ≤ s ∧ s < order
  above : points ∈ (pointsAbove key ×ˢ pointsAbove r : Set (Element × Element))
  fits : Fits hash r s points.1 points.2

theorem exists_shows_of_verify (h : verify key hash r s = true) :
    ∃ points, Shows key hash r s points := by
  have hsignature := (verifyBy_iff_isSignature ordinate?_cases).mp h
  obtain ⟨Q, q, hQ, hx, nonce, hnonce, hr⟩ := hsignature.equation
  obtain ⟨R, hfits⟩ := (exists_fits_iff hsignature.secondRange).mpr
    (hasAbscissa_iff.mpr ⟨nonce, hnonce, hr⟩)
  refine ⟨(Q, R), hsignature.hashRange, hsignature.secondRange, ?_, hfits⟩
  exact ⟨⟨q, hQ, hx⟩, hasAbscissa_iff.mp hfits.abscissa⟩

theorem encard_points_le (key r : Int) :
    (pointsAbove key ×ˢ pointsAbove r : Set (Element × Element)).encard ≤ 4 := by
  rw [Set.encard_prod]
  calc (pointsAbove key : Set Element).encard * (pointsAbove r : Set Element).encard
      ≤ 2 * 2 := mul_le_mul' (encard_pointsAbove_le key) (encard_pointsAbove_le r)
    _ = 4 := by norm_num

/-- The points determine the hash, which is below the order. -/
theorem Shows.hash_eq {points : Element × Element} (h : Shows key hash r s points)
    (h' : Shows key hash' r s points) : hash = hash' := by
  have hbound : (bound : Int) < order := by decide
  have hmod : hash ≡ hash' [ZMOD order] := by
    rw [← zsmul_eq_zsmul_iff order_nsmul_base base_ne_zero]
    exact add_right_cancel (h.fits.equation.symm.trans h'.fits.equation)
  exact eq_of_modEq_of_range hmod ⟨h.hashRange.1, h.hashRange.2.trans hbound⟩
    ⟨h'.hashRange.1, h'.hashRange.2.trans hbound⟩

/-- The points determine the second scalar. -/
theorem Shows.scalar_eq {points : Element × Element} (h : Shows key hash r s points)
    (h' : Shows key hash r s' points) : s = s' := by
  obtain ⟨q, hq, _⟩ := h.above.2
  have hmod := (zsmul_eq_zsmul_iff (order_nsmul points.2) (ne_zero_of_coordinates? hq)).mp
    (h.fits.equation.trans h'.fits.equation.symm)
  exact eq_of_modEq_of_range hmod ⟨by have := h.scalarRange.1; omega, h.scalarRange.2⟩
    ⟨by have := h'.scalarRange.1; omega, h'.scalarRange.2⟩

/-- At most four hashes are accepted with a signature. -/
theorem encard_acceptedHashes_le (key r s : Int) :
    {hash : Int | verify key hash r s = true}.encard ≤ 4 := by
  refine (encard_le_of_related (fun hash points => Shows key hash r s points) ?_ ?_).trans
    (encard_points_le key r)
  · intro hash hverify
    obtain ⟨points, hshows⟩ := exists_shows_of_verify hverify
    exact ⟨points, hshows.above, hshows⟩
  · intro hash _ hash' _ points hshows hshows'
    exact hshows.hash_eq hshows'

/-- At most four second scalars are accepted for one hash. -/
theorem encard_acceptedScalars_le (key hash r : Int) :
    {s : Int | verify key hash r s = true}.encard ≤ 4 := by
  refine (encard_le_of_related (fun s points => Shows key hash r s points) ?_ ?_).trans
    (encard_points_le key r)
  · intro s hverify
    obtain ⟨points, hshows⟩ := exists_shows_of_verify hverify
    exact ⟨points, hshows.above, hshows⟩
  · intro s _ s' _ points hshows hshows'
    exact hshows.scalar_eq hshows'

end Stark

/-! ## Section 4: Both curves -/

/-- A key and a signature leave at most four hashes to be accepted, on secp256k1 up to
    multiples of the order, and a key, a hash and the first scalar leave at most four
    second scalars. Where the field of secp256k1 has no room for the first scalar and
    the order, an accepted second scalar leaves its opposite only. -/
theorem verification_binds_hash_and_scalar :
    (∀ (code : Octets) (r s : Int),
        {z : Int | ∃ hash : Octets, Secp256k1.verify hash r s code = .ok true ∧
          (hash.toNat : Int) % Secp256k1.order = z}.encard ≤ 4) ∧
      (∀ key r s : Int, {hash : Int | Stark.verify key hash r s = true}.encard ≤ 4) ∧
      (∀ (code hash : Octets) (r : Int),
        {s : Int | Secp256k1.verify hash r s code = .ok true}.encard ≤ 4 ∧
          ((Secp256k1.fieldPrime : Int) ≤ r + Secp256k1.order →
            {s : Int | Secp256k1.verify hash r s code = .ok true}.encard ≤ 2 ∧
              ∀ s, Secp256k1.verify hash r s code = .ok true →
                {s' : Int | Secp256k1.verify hash r s' code = .ok true} =
                  {s, Secp256k1.order - s})) ∧
      ∀ key hash r : Int, {s : Int | Stark.verify key hash r s = true}.encard ≤ 4 := by
  refine ⟨Secp256k1.encard_acceptedResidues_le, Stark.encard_acceptedHashes_le, ?_,
    Stark.encard_acceptedScalars_le⟩
  intro code hash r
  refine ⟨Secp256k1.encard_acceptedScalars_le code hash r, fun hroom => ?_⟩
  exact ⟨Secp256k1.encard_acceptedScalars_le_two hroom,
    fun s h => Secp256k1.acceptedScalars_eq hroom h⟩

/-- A signature by the base point with equal scalars. The hash and the first scalar leave
    one other scalar, which is the smaller one of the two. -/
theorem verification_binds_equal_scalars :
    let r : Nat := 0xc6047f9441ed7d6d3045406e95c07cd85c778e4b8cef3ca7abac09b95c709ee5
    let hash := Octets.ofNat 32 r
    let code := 2 :: Octets.ofNat 32
      0x79be667ef9dcbbac55a06295ce870b07029bfcdb2dce28d959f2815b16f81798
    (Secp256k1.fieldPrime : Int) ≤ r + Secp256k1.order ∧
      Secp256k1.verify hash r r code = .ok true ∧
      {s : Int | Secp256k1.verify hash r s code = .ok true} =
        {(r : Int), (Secp256k1.order : Int) - r} ∧
      Secp256k1.order - r < r := by
  intro r hash code
  have hroom : (Secp256k1.fieldPrime : Int) ≤ r + Secp256k1.order := by decide
  have hverify : Secp256k1.verify hash r r code = .ok true := by decide +kernel
  obtain ⟨_, htwo⟩ := verification_binds_hash_and_scalar.2.2.1 code hash r
  exact ⟨hroom, hverify, (htwo hroom).2 r hverify, by decide⟩

end WalletKeys
