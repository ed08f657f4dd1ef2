import WalletKeys.Proofs.Secp256k1.Verification
import WalletKeys.Proofs.Stark.Verification

/-! # Opposite scalars and opposite nonces

    Where a nonce point fits a second scalar, the opposite point fits the opposite
    scalar. The two points have one abscissa, which is all that verification looks at, so
    it does not tell `s` from `order - s` on either curve. Recovery looks at the parity of
    the ordinate as well, and that is flipped: it finds the same key with bit 0 of the id
    flipped too.

    A signer who takes the opposite nonce arrives at the opposite point and at the
    opposite scalar. Keeping the smaller of two opposite scalars, with the id adapted,
    makes both ways end with one signature.
-/

namespace WalletKeys

open WalletKeys.Geometry WalletKeys.Modular WalletKeys.Nonce

/-! ## Section 1: secp256k1 -/

namespace Secp256k1

variable {hash code : Octets} {d z r s k : Int} {Q R : Element}

/-! ### Checking -/

/-- The opposite of an accepted scalar is accepted. -/
theorem verify_opposite_of_verify (h : verify hash r s code = .ok true) :
    verify hash r (order - s) code = .ok true := by
  obtain ⟨Q, hcode⟩ := exists_decode_of_verify h
  obtain ⟨hlength, hrange, R, hfits⟩ := (verify_eq_true_iff hcode).mp h
  rw [verify_eq_true_iff hcode]
  exact ⟨hlength, inRange_opposite_iff.mpr hrange, -R, hfits.neg hrange.1.1⟩

theorem verify_opposite (hash : Octets) (r s : Int) (code : Octets) :
    verify hash r (order - s) code = verify hash r s code := by
  obtain ⟨answer, h⟩ := exists_verify hash r s code
  obtain ⟨answer', h'⟩ := exists_verify hash r (order - s) code
  rw [h, h']
  congr 1
  rw [Bool.eq_iff_iff]
  constructor
  · rintro rfl
    -- The opposite of the opposite scalar is the scalar.
    have hback := verify_opposite_of_verify h'
    rw [sub_sub_cancel, h] at hback
    exact Except.ok.inj hback
  · rintro rfl
    have hthere := verify_opposite_of_verify h
    rw [h'] at hthere
    exact Except.ok.inj hthere

/-! ### Recovery -/

/-- Flipping bit 0 of a recovery id leaves bit 1. -/
theorem flipped_id {id : Nat} (hid : id ≤ 3) :
    (id ^^^ 1) ≤ 3 ∧ ((2 : Int) ≤ (id ^^^ 1 : Nat) ↔ (2 : Int) ≤ id) ∧
      (id ^^^ 1) ^^^ 1 = id := by
  interval_cases id <;> decide

/-- The other parity makes the flipped id. -/
theorem recoveryId_not {exceeds odd : Bool} {id : Nat} (h : recoveryId exceeds odd = id) :
    recoveryId exceeds (!odd) = (id ^^^ 1 : Nat) := by
  obtain rfl : id = (recoveryId exceeds odd).toNat := by omega
  cases exceeds <;> cases odd <;> decide

/-- The opposite nonce point leads to the same key, with the flipped id. -/
theorem Recovers.opposite {id : Nat} (h : Recovers z r s id Q R) :
    Recovers z r (order - s) (id ^^^ 1 : Nat) Q (-R) where
  scalars := inRange_opposite_iff.mpr h.scalars
  idRange := by
    have hid : id ≤ 3 := by
      have hrange := h.idRange
      omega
    have hflipped := (flipped_id hid).1
    omega
  fits := h.fits.neg h.scalars.1.1
  id_eq := by
    have hR := h.fits.ne_zero h.scalars.1.1
    rw [recoveryIdOf, (coordinates_neg hR).1, odd_opposite hR]
    exact recoveryId_not h.id_eq

theorem recoveryRefusal_opposite (r s : Int) {id : Nat} (hid : id ≤ 3) :
    recoveryRefusal r (order - s) (id ^^^ 1 : Nat) = recoveryRefusal r s id := by
  obtain ⟨hrange, hhigh, _⟩ := flipped_id hid
  have hids : (0 ≤ ((id ^^^ 1 : Nat) : Int) ∧ ((id ^^^ 1 : Nat) : Int) ≤ 3) ↔
      0 ≤ (id : Int) ∧ (id : Int) ≤ 3 := by omega
  simp only [recoveryRefusal, inRange_opposite_iff, hids, hhigh]

theorem recoverPoint_opposite (hash : Octets) (r s : Int) {id : Nat} (hid : id ≤ 3) :
    recoverPoint hash r (order - s) (id ^^^ 1 : Nat) = recoverPoint hash r s id := by
  by_cases hex : ∃ Q R, Recovers hash.toNat r s id Q R
  · obtain ⟨Q, R, hrec⟩ := hex
    rw [recoverPoint_of_recovers hrec, recoverPoint_of_recovers hrec.opposite]
  · -- A key for the opposite scalar would be one for the scalar, so both are refused, and
    -- no check on the way tells them apart.
    have hopposite : ¬∃ Q R, Recovers hash.toNat r (order - s) (id ^^^ 1 : Nat) Q R := by
      rintro ⟨Q, R, hrec⟩
      have hback := hrec.opposite
      rw [sub_sub_cancel, (flipped_id hid).2.2] at hback
      exact hex ⟨Q, -R, hback⟩
    rw [recoverPoint_of_not_recovers hex, recoverPoint_of_not_recovers hopposite,
      recoveryRefusal_opposite r s hid]

theorem recoverCode_opposite (form : Form) (hash : Octets) (r s : Int) {id : Nat} (hid : id ≤ 3) :
    recoverCode form hash r (order - s) (id ^^^ 1 : Nat) = recoverCode form hash r s id := by
  rw [recoverCode, recoverCode, recoverPoint_opposite hash r s hid]

/-! ### Signing -/

theorem firstScalar_opposite (k : Int) : firstScalar (order - k) = firstScalar k := by
  rw [firstScalar, firstScalar, order_sub_zsmul order_nsmul_base]
  by_cases hzero : k • base = 0
  · rw [hzero, neg_zero]
  · rw [(coordinates_neg hzero).1]

theorem secondScalar_opposite (d z k : Int) :
    secondScalar d z (order - k) =
      if secondScalar d z k = 0 then 0 else order - secondScalar d z k := by
  rw [secondScalar, firstScalar_opposite, scalarQuotient_sub]
  rfl

/-- Of the signatures with opposite points and scalars the same one is kept: the order is
    odd, so exactly one of two opposite scalars is the smaller one. -/
theorem normalized_opposite (hR : R ≠ 0) (s : Int) :
    normalized (coordinates (-R)) (order - s) = normalized (coordinates R) s := by
  have hodd : (order : Int) % 2 = 1 := by decide
  unfold normalized
  dsimp only
  rw [(coordinates_neg hR).1, odd_opposite hR]
  by_cases hhigh : (order : Int) / 2 < s
  · rw [if_pos hhigh, if_neg (by omega)]
  · -- Here the opposite scalar is replaced, and the parity is flipped back.
    rw [if_neg hhigh, if_pos (by omega), sub_sub_cancel, Bool.not_not]

theorem judge_opposite (d z k : Int) : judge d z (order - k) = judge d z k := by
  rw [judge_eq, judge_eq, firstScalar_opposite, secondScalar_opposite,
    order_sub_zsmul order_nsmul_base]
  by_cases hr : firstScalar k = 0
  · rw [if_pos hr, if_pos hr]
  rw [if_neg hr, if_neg hr]
  by_cases hs : secondScalar d z k = 0
  · rw [if_pos hs, if_pos hs, if_pos rfl]
  · obtain ⟨_, hlt⟩ := secondScalar_range d z k
    have hR : k • base ≠ 0 :=
      mt (zsmul_eq_zero_iff order_nsmul_base base_ne_zero k).mp (not_dvd_of_firstScalar hr)
    rw [if_neg hs, if_neg hs, if_neg (by omega), normalized_opposite hR]

/-- Nonces may be replaced by their opposites. -/
theorem sign_opposite (d : Int) (hash : Octets) (nonces : List Int) :
    sign (Source.ofList (nonces.map fun k => order - k)) d hash =
      sign (Source.ofList nonces) d hash := by
  rw [sign, sign, Source.search_ofList_map (judge_opposite d hash.toNat)]

/-- A nonce and its opposite make one signature, or neither is usable. -/
theorem sign_single_opposite (hlength : hash.length = 32) (d k : Int) :
    (∃ σ, (sign (Source.ofList [k]) d hash).result = .ok σ ∧
        (sign (Source.ofList [order - k]) d hash).result = .ok σ) ∨
      (sign (Source.ofList [k]) d hash).result = .error .noncesExhausted ∧
        (sign (Source.ofList [order - k]) d hash).result = .error .noncesExhausted := by
  have hsame : sign (Source.ofList [order - k]) d hash = sign (Source.ofList [k]) d hash :=
    sign_opposite d hash [k]
  rw [hsame]
  rcases sign_ofList_cases hlength d [k] with ⟨σ, hσ⟩ | hexhausted
  · exact .inl ⟨σ, hσ, hσ⟩
  · exact .inr ⟨hexhausted, hexhausted⟩

end Secp256k1

/-! ## Section 2: The STARK curve -/

namespace Stark

variable {hash key r s : Int} {Q R : Element}

/-- The opposite nonce point fits the opposite scalar. -/
theorem Fits.neg (h : Fits hash r s Q R) : Fits hash r (order - s) Q (-R) where
  abscissa := by
    obtain ⟨nonce, hnonce, hx⟩ := hasAbscissa_iff.mp h.abscissa
    exact hasAbscissa_iff.mpr ⟨_, coordinates?_neg hnonce, hx⟩
  equation := by
    rw [order_sub_zsmul (order_nsmul _), zsmul_neg, neg_neg, h.equation]

/-- The opposite of an accepted scalar is accepted. -/
theorem verify_opposite_of_verify (h : verify key hash r s = true) :
    verify key hash r (order - s) = true := by
  rcases ordinate?_cases key with ⟨y, hy, hcurve⟩ | ⟨hnone, _⟩
  · obtain ⟨Q, hQ⟩ := onCurve_iff.mp hcurve
    obtain ⟨hhash, ⟨hr, hs⟩, hfits⟩ := (verifyBy_iff hy hQ).mp h
    refine (verifyBy_iff hy hQ).mpr ⟨hhash, ⟨hr, by omega, by omega⟩, ?_⟩
    -- Whichever point above the key was fitted stays the same, only the nonce point changes.
    rcases hfits with ⟨R, hR⟩ | ⟨R, hR⟩
    · exact .inl ⟨-R, hR.neg⟩
    · exact .inr ⟨-R, hR.neg⟩
  · rw [verify, verifyBy_of_none hnone] at h
    cases h

theorem verify_opposite (key hash r s : Int) :
    verify key hash r (order - s) = verify key hash r s := by
  rw [Bool.eq_iff_iff]
  constructor
  · intro h
    -- The opposite of the opposite scalar is the scalar.
    have hback := verify_opposite_of_verify h
    rwa [sub_sub_cancel] at hback
  · exact verify_opposite_of_verify

end Stark

/-! ## Section 3: Both curves -/

/-- Verification gives one answer for a second scalar and its opposite, on all inputs of
    either curve. Recovery finds the same code for both, or has the same fault, if bit 0
    of the id is flipped with the scalar. Signing ends with one signature for a nonce and
    its opposite, or finds neither of them usable. -/
theorem opposites_are_alike :
    (∀ (hash : Octets) (r s : Int) (code : Octets), ∃ answer,
      Secp256k1.verify hash r s code = .ok answer ∧
        Secp256k1.verify hash r (Secp256k1.order - s) code = .ok answer) ∧
    (∀ (form : Secp256k1.Form) (hash : Octets) (r s : Int) (id : Nat), id ≤ 3 →
      Secp256k1.recoverCode form hash r (Secp256k1.order - s) (id ^^^ 1 : Nat) =
        Secp256k1.recoverCode form hash r s id) ∧
    (∀ key hash r s : Int,
      Stark.verify key hash r (Stark.order - s) = Stark.verify key hash r s) ∧
    (∀ (hash : Octets), hash.length = 32 → ∀ d k : Int,
      (∃ σ, (Secp256k1.sign (Source.ofList [k]) d hash).result = .ok σ ∧
          (Secp256k1.sign (Source.ofList [Secp256k1.order - k]) d hash).result = .ok σ) ∨
        (Secp256k1.sign (Source.ofList [k]) d hash).result = .error .noncesExhausted ∧
          (Secp256k1.sign (Source.ofList [Secp256k1.order - k]) d hash).result =
            .error .noncesExhausted) ∧
    ∀ (d : Int) (hash : Octets) (nonces : List Int),
      Secp256k1.sign (Source.ofList (nonces.map fun k => Secp256k1.order - k)) d hash =
        Secp256k1.sign (Source.ofList nonces) d hash := by
  refine ⟨?_, ?_, Stark.verify_opposite, fun hash hlength => ?_, Secp256k1.sign_opposite⟩
  · intro hash r s code
    obtain ⟨answer, h⟩ := Secp256k1.exists_verify hash r s code
    exact ⟨answer, h, (Secp256k1.verify_opposite hash r s code).trans h⟩
  · intro form hash r s id hid
    exact Secp256k1.recoverCode_opposite form hash r s hid
  · exact Secp256k1.sign_single_opposite hlength

/-- With equal scalars over the hash zero the key is the nonce point, here with the
    overflow bit set, and the opposite scalar leads to it as well. A nonce and its opposite
    make one signature. -/
theorem opposites_are_alike_with_overflow :
    let hash := Octets.zeros 32
    let code := 2 :: Octets.ofNat 32 (Secp256k1.order + 2)
    let σ : Secp256k1.Signature :=
      ⟨0xc6047f9441ed7d6d3045406e95c07cd85c778e4b8cef3ca7abac09b95c709ee5,
        0x1cfdc035df09414967dd5fc8b51fc1932f1ba74d912cb1ca0a132a69b9e2d12e, 1⟩;
    hash.length = 32 ∧ Secp256k1.recoverCode .compressed hash 2 2 2 = .ok code ∧
      Secp256k1.recoverCode .compressed hash 2 (Secp256k1.order - 2) 3 = .ok code ∧
      (Secp256k1.sign (Source.ofList [2]) 1 hash).result = .ok σ ∧
      (Secp256k1.sign (Source.ofList [Secp256k1.order - 2]) 1 hash).result = .ok σ := by
  intro hash code σ
  have hlength : hash.length = 32 := Octets.length_zeros 32
  have hcode : Secp256k1.recoverCode .compressed hash 2 2 2 = .ok code := by decide +kernel
  have hσ : (Secp256k1.sign (Source.ofList [2]) 1 hash).result = .ok σ := by decide +kernel
  obtain ⟨_, hrecover, _, hsign, _⟩ := opposites_are_alike
  have hflipped := hrecover .compressed hash 2 2 2 (by decide)
  rw [show ((2 ^^^ 1 : Nat) : Int) = 3 by decide, show ((2 : Nat) : Int) = 2 by decide,
    hcode] at hflipped
  refine ⟨hlength, hcode, hflipped, hσ, ?_⟩
  rcases hsign hash hlength 1 2 with ⟨σ', hthere, hopposite⟩ | ⟨hexhausted, _⟩
  · cases hthere.symm.trans hσ
    exact hopposite
  · cases hexhausted.symm.trans hσ

end WalletKeys
