import WalletKeys.Proofs.Secp256k1.Ecdsa
import WalletKeys.Proofs.Stark.Ecdsa

/-! # Which secrets share a public key

    On secp256k1 no two scalars in `[1, order)` have one public point, in whichever
    form the point is given out. On the STARK curve a key is an abscissa, which a
    point shares with its opposite, so a secret shares its key with the opposite
    secret, and with nothing else modulo the order.

    Both rest on the base point having exactly the prime order of its group, which
    makes multiples of it equal for congruent scalars only.
-/

namespace WalletKeys

open WalletKeys.Geometry

/-! ## Section 1: Points of scalars -/

namespace Secp256k1

variable {d d' : Nat}

/-- The code of a secret is read as the public point of its scalar. -/
theorem exists_publicCodeOfSecret (form : Form) (hd : 0 < d ∧ d < order) :
    ∃ code, publicCodeOfSecret form (Octets.ofNat 32 d) = .ok code ∧
      decode code = .ok (coordinates ((d : Int) • base)) := by
  have hfit : order < 256 ^ 32 := by decide
  have hscalar : scalarOfOctets (Octets.ofNat 32 d) = .ok (d : Int) := by
    rw [scalarOfOctets_eq_ok_iff, Octets.length_ofNat, Octets.toNat_ofNat (hd.2.trans hfit)]
    exact ⟨rfl, by omega, rfl⟩
  have hreduced : (d : Int) % order ≠ 0 := Modular.emod_ne_zero_of_range (by omega)
  obtain ⟨code, hcode, hread⟩ := exists_publicCode form hreduced
  exact ⟨code, by rw [publicCodeOfSecret, hscalar, ok_bind, hcode], hread⟩

/-- Scalars below the order have points of their own. -/
theorem publicPoint_eq_iff (hd : d < order) (hd' : d' < order) :
    coordinates ((d : Int) • base) = coordinates ((d' : Int) • base) ↔ d = d' := by
  rw [coordinates_injective.eq_iff, zsmul_eq_zsmul_iff order_nsmul_base base_ne_zero,
    Int.natCast_modEq_iff]
  constructor
  · intro h
    exact h.eq_of_lt_of_lt hd hd'
  · rintro rfl
    rfl

end Secp256k1

namespace Stark

variable {a b : Int}

/-- Keys are equal for secrets that are equal or opposite modulo the order. -/
theorem exists_publicAbscissa_eq_iff (ha : ¬(order : Int) ∣ a) (hb : ¬(order : Int) ∣ b) :
    ∃ key key', publicAbscissa a = .ok key ∧ publicAbscissa b = .ok key' ∧
      (key = key' ↔ a ≡ b [ZMOD order] ∨ a ≡ -b [ZMOD order]) := by
  obtain ⟨u, hu, hkey⟩ := exists_publicAbscissa (mt Int.dvd_of_emod_eq_zero ha)
  obtain ⟨v, hv, hkey'⟩ := exists_publicAbscissa (mt Int.dvd_of_emod_eq_zero hb)
  refine ⟨u.x, v.x, hkey, hkey', ?_⟩
  -- The opposite of a public point is the public point of the opposite secret.
  rw [abscissa_eq_iff hu hv, ← neg_zsmul, zsmul_eq_zsmul_iff order_nsmul_base base_ne_zero,
    zsmul_eq_zsmul_iff order_nsmul_base base_ne_zero]

/-- A secret is refused a key, as a bad value, exactly if the order divides it. -/
theorem publicAbscissa_refused_iff :
    (∃ fault, publicAbscissa a = .error fault ∧ fault.category = .value) ↔
      (order : Int) ∣ a := by
  constructor
  · rintro ⟨fault, hfault, _⟩
    by_contra hdvd
    obtain ⟨_, _, hkey⟩ := exists_publicAbscissa (mt Int.dvd_of_emod_eq_zero hdvd)
    rw [hkey] at hfault
    cases hfault
  · intro hdvd
    exact ⟨_, publicAbscissa_of_dvd hdvd, rfl⟩

end Stark

/-! ## Section 2: Collisions -/

/-- Secrets have one public key only where the curve leaves no choice. On secp256k1 every
    scalar in `[1, order)` has a public code of either form, and the codes of two scalars
    are read as one point exactly if the scalars are equal, whatever the forms. On the
    STARK curve secrets that the order does not divide have keys, which are equal exactly
    if the secrets are equal or opposite modulo the order, and only secrets that the order
    divides are refused. -/
theorem public_keys_collide_iff :
    (∀ (d d' : Nat) (form form' : Secp256k1.Form), (0 < d ∧ d < Secp256k1.order) →
        (0 < d' ∧ d' < Secp256k1.order) → ∃ code code' p p',
          Secp256k1.publicCodeOfSecret form (Octets.ofNat 32 d) = .ok code ∧
            Secp256k1.publicCodeOfSecret form' (Octets.ofNat 32 d') = .ok code' ∧
              Secp256k1.decode code = .ok p ∧ Secp256k1.decode code' = .ok p' ∧
                (p = p' ↔ d = d')) ∧
      (∀ a b : Int, ¬(Stark.order : Int) ∣ a → ¬(Stark.order : Int) ∣ b → ∃ key key',
        Stark.publicAbscissa a = .ok key ∧ Stark.publicAbscissa b = .ok key' ∧
          (key = key' ↔ a ≡ b [ZMOD Stark.order] ∨ a ≡ -b [ZMOD Stark.order])) ∧
      ∀ a : Int, (∃ fault, Stark.publicAbscissa a = .error fault ∧ fault.category = .value) ↔
        (Stark.order : Int) ∣ a := by
  refine ⟨?_, fun a b => Stark.exists_publicAbscissa_eq_iff,
    fun a => Stark.publicAbscissa_refused_iff⟩
  intro d d' form form' hd hd'
  obtain ⟨code, hcode, hread⟩ := Secp256k1.exists_publicCodeOfSecret form hd
  obtain ⟨code', hcode', hread'⟩ := Secp256k1.exists_publicCodeOfSecret form' hd'
  exact ⟨code, code', _, _, hcode, hcode', hread, hread', Secp256k1.publicPoint_eq_iff hd.2 hd'.2⟩

/-- The first and the last scalar have points with one abscissa, and still differ. Of two
    opposite secrets of the STARK curve, one beyond the order, there is one key, and the
    order itself has none. -/
theorem public_keys_collide_opposite_secrets :
    (∃ code code' p p',
      Secp256k1.publicCodeOfSecret .compressed (Octets.ofNat 32 1) = .ok code ∧
        Secp256k1.publicCodeOfSecret .uncompressed (Octets.ofNat 32 (Secp256k1.order - 1)) =
          .ok code' ∧
        Secp256k1.decode code = .ok p ∧ Secp256k1.decode code' = .ok p' ∧ p ≠ p') ∧
      (∃ key, Stark.publicAbscissa (Stark.order + 5) = .ok key ∧
        Stark.publicAbscissa (-5) = .ok key) ∧
      ∃ fault, Stark.publicAbscissa Stark.order = .error fault ∧ fault.category = .value := by
  obtain ⟨hsecp, hstark, hrefused⟩ := public_keys_collide_iff
  refine ⟨?_, ?_, (hrefused Stark.order).mpr dvd_rfl⟩
  · obtain ⟨code, code', p, p', hcode, hcode', hread, hread', hiff⟩ :=
      hsecp 1 (Secp256k1.order - 1) .compressed .uncompressed (by decide) (by decide)
    exact ⟨code, code', p, p', hcode, hcode', hread, hread', mt hiff.mp (by decide)⟩
  · obtain ⟨key, key', hkey, hkey', hiff⟩ :=
      hstark (Stark.order + 5) (-5) (by decide) (by decide)
    have hsame : key = key' := hiff.mpr (.inr (by decide))
    exact ⟨key, hkey, by rw [hkey', hsame]⟩

end WalletKeys
