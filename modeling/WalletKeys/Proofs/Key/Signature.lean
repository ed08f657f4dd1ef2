import WalletKeys.Proofs.Key.Secp256k1
import WalletKeys.Proofs.Key.Stark
import WalletKeys.Proofs.Secp256k1.Verification
import WalletKeys.Proofs.Stark.Verification

/-! # Signatures and their octets

    A signature has one place on the wire. Octets of the format are read, what is read is
    written in the same way again, and a signature with its fields in range is read back
    from what is written for it (`IsSignatureCodec`). Octets outside of the format are
    refused as a bad signature and in no other way.

    The ranges of the fields are not those that the verifiers check: on the STARK curve
    both scalars are field elements, while a verifier wants 251 bits of the first one and
    the second one below the order. A signature that can be accepted has its fields in
    range on either curve, so none is lost on the wire.
-/

namespace WalletKeys

open KeyFault (refusing_eq_ok_iff)

/-! ## Section 1: Codecs of signatures -/

/-- Writing and reading are inverse to each other between the signatures of a domain and
    the octets of a format. -/
structure IsSignatureCodec {α : Type} (domain : α → Prop) (format : Octets → Prop)
    (write : α → Except CurveFault Octets) (read : Octets → Except KeyFault α) : Prop where
  /-- Octets of the format are read, and no others are. -/
  reads_iff : ∀ octets, (∃ σ, read octets = .ok σ) ↔ format octets
  /-- The only way to refuse octets is as a bad signature. -/
  refused : ∀ octets fault, read octets = .error fault → fault.category = .signature
  /-- What is read is written in the same way again. -/
  written : ∀ octets σ, read octets = .ok σ → domain σ ∧ write σ = .ok octets
  /-- What is written is read back. -/
  readBack : ∀ σ, domain σ → ∃ octets, write σ = .ok octets ∧ read octets = .ok σ

/-- It is enough that octets are read for the signatures that they are written for, and
    that the format is what signatures are written on. -/
theorem IsSignatureCodec.of_iff {α : Type} {domain : α → Prop} {format : Octets → Prop}
    {write : α → Except CurveFault Octets} {read : Octets → Except KeyFault α}
    (hread : ∀ octets σ, read octets = .ok σ ↔ domain σ ∧ write σ = .ok octets)
    (hwrite : ∀ σ, domain σ → ∃ octets, write σ = .ok octets)
    (hformat : ∀ octets, format octets ↔ ∃ σ, domain σ ∧ write σ = .ok octets)
    (hrefused : ∀ octets fault, read octets = .error fault → fault.category = .signature) :
    IsSignatureCodec domain format write read where
  reads_iff octets := by simp only [hread, hformat]
  refused := hrefused
  written octets σ := (hread octets σ).mp
  readBack σ hσ := by
    obtain ⟨octets, hoctets⟩ := hwrite σ hσ
    exact ⟨octets, hoctets, (hread octets σ).mpr ⟨hσ, hoctets⟩⟩

/-! ## Section 2: The STARK curve -/

namespace Stark.Signature

variable {σ : Signature} {octets : Octets}

/-- Both scalars are field elements. -/
structure FieldsInRange (σ : Signature) : Prop where
  first : 0 ≤ σ.r ∧ σ.r < fieldPrime
  second : 0 ≤ σ.s ∧ σ.s < fieldPrime

/-- The octets are two halves below the field prime. -/
structure IsCode (octets : Octets) : Prop where
  length_eq : octets.length = 64
  first : Octets.toNat (octets.take 32) < fieldPrime
  second : Octets.toNat (octets.drop 32) < fieldPrime

/-- The octets of the scalars are the two halves. -/
theorem halves_of_toOctets (h : σ.toOctets = .ok octets) :
    σ.rOctets = .ok (octets.take 32) ∧ σ.sOctets = .ok (octets.drop 32) := by
  obtain ⟨r, s, hr, hs, rfl⟩ := toOctets_eq_ok_iff.mp h
  rw [List.take_left' hr.1, List.drop_left' hr.1]
  exact ⟨FixedWidth.write_eq_ok_iff.mpr hr, FixedWidth.write_eq_ok_iff.mpr hs⟩

/-- Two halves are what is written for the numbers that they denote. -/
theorem toOctets_halves (h : octets.length = Signature.length) :
    toOctets ⟨Octets.toNat (octets.take 32), Octets.toNat (octets.drop 32)⟩ = .ok octets := by
  rw [Signature.length] at h
  have hhead : (octets.take 32).length = 32 := by
    rw [List.length_take, h]
    rfl
  have htail : (octets.drop 32).length = 32 := by rw [List.length_drop, h]
  exact toOctets_eq_ok_iff.mpr ⟨_, _, ⟨hhead, rfl⟩, ⟨htail, rfl⟩,
    (List.take_append_drop 32 octets).symm⟩

/-- Octets are read for the signature that they are written for. -/
theorem ofOctets_eq_ok_iff :
    ofOctets octets = .ok σ ↔ σ.FieldsInRange ∧ σ.toOctets = .ok octets := by
  constructor
  · intro h
    unfold ofOctets at h
    split at h
    · cases h
    rename_i hlength
    obtain ⟨r, hr, hrest⟩ := bind_eq_ok_iff.mp (refusing_eq_ok_iff.mp h)
    obtain ⟨s, hs, hdone⟩ := bind_eq_ok_iff.mp hrest
    cases hdone
    obtain ⟨_, hrlt, rfl⟩ := elementOfOctets_eq_ok_iff.mp hr
    obtain ⟨_, hslt, rfl⟩ := elementOfOctets_eq_ok_iff.mp hs
    refine ⟨⟨?_, ?_⟩, toOctets_halves (not_not.mp hlength)⟩
    · exact ⟨Int.natCast_nonneg _, hrlt⟩
    · exact ⟨Int.natCast_nonneg _, hslt⟩
  · rintro ⟨hfields, h⟩
    exact (ofOctets_of_toOctets hfields.first.2 hfields.second.2 h).2

/-- The format is what signatures are written on. -/
theorem isCode_iff :
    IsCode octets ↔ ∃ σ : Signature, σ.FieldsInRange ∧ σ.toOctets = .ok octets := by
  constructor
  · intro h
    refine ⟨_, ⟨?_, ?_⟩, toOctets_halves h.length_eq⟩
    · exact ⟨Int.natCast_nonneg _, Int.ofNat_lt.mpr h.first⟩
    · exact ⟨Int.natCast_nonneg _, Int.ofNat_lt.mpr h.second⟩
  · rintro ⟨σ, hfields, h⟩
    obtain ⟨r, s, ⟨hrlength, hr⟩, ⟨hslength, hs⟩, rfl⟩ := toOctets_eq_ok_iff.mp h
    obtain ⟨⟨_, hrlt⟩, ⟨_, hslt⟩⟩ := hfields
    rw [hr] at hrlt
    rw [hs] at hslt
    refine ⟨by rw [List.length_append, hrlength, hslength], ?_, ?_⟩
    · rw [List.take_left' hrlength]
      exact Int.ofNat_lt.mp hrlt
    · rw [List.drop_left' hrlength]
      exact Int.ofNat_lt.mp hslt

theorem isSignatureCodec : IsSignatureCodec FieldsInRange IsCode toOctets ofOctets :=
  .of_iff (fun _ _ => ofOctets_eq_ok_iff) (fun _ h => exists_toOctets h.first h.second)
    (fun _ => isCode_iff) (fun _ _ => category_of_ofOctets)

/-- Scalars that can be accepted are field elements. -/
theorem fieldsInRange_of_verify {key hash r s : Int} (h : verify key hash r s = true) :
    FieldsInRange ⟨r, s⟩ := by
  -- Both of the bounds that the verifier has are below the one of the codec.
  have hbound : (2 : Int) ^ 251 < fieldPrime := by decide
  have horder : (order : Int) < fieldPrime := by decide
  have hsignature := (verifyBy_iff_isSignature ordinate?_cases).mp h
  obtain ⟨hr, hrlt⟩ := hsignature.firstRange
  obtain ⟨hs, hslt⟩ := hsignature.secondRange
  exact ⟨⟨zero_le_one.trans hr, hrlt.trans hbound⟩, ⟨zero_le_one.trans hs, hslt.trans horder⟩⟩

end Stark.Signature

/-! ## Section 3: secp256k1 -/

namespace Secp256k1.Signature

variable {σ : Signature} {octets : Octets}

/-- The scalars are positive and below the order, and the recovery id is one of four. -/
structure FieldsInRange (σ : Signature) : Prop where
  first : 0 < σ.r ∧ σ.r < order
  second : 0 < σ.s ∧ σ.s < order
  id : 0 ≤ σ.v ∧ σ.v ≤ 3

/-- The octets are two scalars in range, followed by an octet up to 3. -/
structure IsCode (octets : Octets) : Prop where
  length_eq : octets.length = 65
  first : 0 < Octets.toNat (octets.take 32) ∧ Octets.toNat (octets.take 32) < order
  second : 0 < Octets.toNat ((octets.drop 32).take 32) ∧
    Octets.toNat ((octets.drop 32).take 32) < order
  last : ∃ v, octets.getLast? = some v ∧ v.toNat ≤ 3

/-- The parts are what is written for the numbers that they denote. -/
theorem toOctets_parts {r s : Octets} (hr : r.length = 32) (hs : s.length = 32) (v : UInt8) :
    toOctets ⟨r.toNat, s.toNat, v.toNat⟩ = .ok (r ++ s ++ [v]) :=
  toOctets_eq_ok_iff.mpr ⟨r, s, v, ⟨hr, rfl⟩, ⟨hs, rfl⟩, rfl, rfl⟩

/-- Octets are read for the signature that they are written for. -/
theorem ofOctets_eq_ok_iff :
    ofOctets octets = .ok σ ↔ σ.FieldsInRange ∧ σ.toOctets = .ok octets := by
  constructor
  · intro h
    by_cases hlength : octets.length = Signature.length
    · obtain ⟨r, s, v, hr, hs, rfl⟩ := exists_parts hlength
      rw [ofOctets_parts hr hs] at h
      split at h
      · cases h
      rename_i hrange
      split at h
      · cases h
      rename_i hid
      cases h
      obtain ⟨hfirst, hsecond⟩ := not_not.mp hrange
      refine ⟨⟨hfirst, hsecond, ?_⟩, toOctets_parts hr hs v⟩
      exact ⟨Int.natCast_nonneg _, Int.ofNat_le.mpr (not_lt.mp hid)⟩
    · rw [ofOctets, if_pos hlength] at h
      cases h
  · rintro ⟨hfields, h⟩
    exact (ofOctets_of_toOctets ⟨hfields.first, hfields.second⟩ hfields.id.2 h).2

/-- The format, said of the parts. -/
theorem isCode_parts {r s : Octets} (hr : r.length = 32) (hs : s.length = 32) (v : UInt8) :
    IsCode (r ++ s ++ [v]) ↔
      (0 < r.toNat ∧ r.toNat < order) ∧ (0 < s.toNat ∧ s.toNat < order) ∧ v.toNat ≤ 3 := by
  obtain ⟨hhead, hmiddle, _⟩ := cut_parts hr hs v
  constructor
  · rintro ⟨_, hfirst, hsecond, v', hlast, hv'⟩
    rw [List.getLast?_concat] at hlast
    cases hlast
    rw [hhead] at hfirst
    rw [hmiddle] at hsecond
    exact ⟨hfirst, hsecond, hv'⟩
  · rintro ⟨hfirst, hsecond, hv⟩
    refine ⟨length_parts hr hs v, ?_, ?_, v, List.getLast?_concat, hv⟩
    · rwa [hhead]
    · rwa [hmiddle]

/-- The format is what signatures are written on. -/
theorem isCode_iff :
    IsCode octets ↔ ∃ σ : Signature, σ.FieldsInRange ∧ σ.toOctets = .ok octets := by
  constructor
  · intro h
    obtain ⟨r, s, v, hr, hs, rfl⟩ := exists_parts h.length_eq
    obtain ⟨hfirst, hsecond, hv⟩ := (isCode_parts hr hs v).mp h
    refine ⟨_, ⟨?_, ?_, ?_⟩, toOctets_parts hr hs v⟩
    · exact ⟨Int.natCast_pos.mpr hfirst.1, Int.ofNat_lt.mpr hfirst.2⟩
    · exact ⟨Int.natCast_pos.mpr hsecond.1, Int.ofNat_lt.mpr hsecond.2⟩
    · exact ⟨Int.natCast_nonneg _, Int.ofNat_le.mpr hv⟩
  · rintro ⟨σ, hfields, h⟩
    obtain ⟨r, s, v, ⟨hrlength, hr⟩, ⟨hslength, hs⟩, hv, rfl⟩ := toOctets_eq_ok_iff.mp h
    obtain ⟨hfirst, hsecond, hid⟩ := hfields
    rw [hr] at hfirst
    rw [hs] at hsecond
    rw [isCode_parts hrlength hslength]
    omega

theorem isSignatureCodec : IsSignatureCodec FieldsInRange IsCode toOctets ofOctets :=
  .of_iff (fun _ _ => ofOctets_eq_ok_iff)
    (fun _ h => exists_toOctets ⟨h.first, h.second⟩ h.id)
    (fun _ => isCode_iff) (fun _ _ => category_of_ofOctets)

/-- Scalars that can be accepted are in range, whatever recovery id stands beside them. -/
theorem fieldsInRange_of_verify {hash code : Octets} {r s v : Int}
    (h : verify hash r s code = .ok true) (hv : 0 ≤ v ∧ v ≤ 3) : FieldsInRange ⟨r, s, v⟩ := by
  obtain ⟨Q, hcode⟩ := exists_decode_of_verify h
  obtain ⟨_, hrange, _⟩ := (verify_eq_true_iff hcode).mp h
  exact ⟨hrange.1, hrange.2, hv⟩

end Secp256k1.Signature

/-! ## Section 4: Both codecs -/

/-- The codecs of signatures are bijections between the signatures with their fields in
    range and the octets of their formats, and the two halves of a STARK signature are the
    octets of its scalars. A pair of scalars that some key accepts over some hash is in the
    domain of the codec of its curve, with any of the four recovery ids. -/
theorem signature_codecs_bijective :
    IsSignatureCodec Stark.Signature.FieldsInRange Stark.Signature.IsCode
      Stark.Signature.toOctets Stark.Signature.ofOctets ∧
    IsSignatureCodec Secp256k1.Signature.FieldsInRange Secp256k1.Signature.IsCode
      Secp256k1.Signature.toOctets Secp256k1.Signature.ofOctets ∧
    (∀ (σ : Stark.Signature) (octets : Octets), σ.toOctets = .ok octets →
      σ.rOctets = .ok (octets.take 32) ∧ σ.sOctets = .ok (octets.drop 32)) ∧
    (∀ key hash r s : Int, Stark.verify key hash r s = true →
      Stark.Signature.FieldsInRange ⟨r, s⟩) ∧
    ∀ (hash code : Octets) (r s : Int), Secp256k1.verify hash r s code = .ok true →
      ∀ v : Int, 0 ≤ v ∧ v ≤ 3 → Secp256k1.Signature.FieldsInRange ⟨r, s, v⟩ := by
  refine ⟨Stark.Signature.isSignatureCodec, Secp256k1.Signature.isSignatureCodec, ?_, ?_, ?_⟩
  · intro σ octets h
    exact Stark.Signature.halves_of_toOctets h
  · intro key hash r s h
    exact Stark.Signature.fieldsInRange_of_verify h
  · intro hash code r s h v hv
    exact Secp256k1.Signature.fieldsInRange_of_verify h hv

/-- A STARK signature with the largest and the smallest scalar, which is written and read
    back, and octets with a first scalar equal to the order, which are refused. An accepted
    signature of each curve follows, with a second scalar that no signer gives out: one of
    252 bits, and one above half of the order. -/
theorem signature_codecs_bijective_at_bounds :
    let σ : Stark.Signature := ⟨Stark.fieldPrime - 1, 0⟩
    let excess := Octets.ofNat 32 Secp256k1.order ++ Octets.ofNat 32 1 ++ [3]
    let key : Int := 0x379a7e9ef66fdf23ee32c87941952c0b873e1e16c6546cff1d88a6356ac853a
    let τ : Stark.Signature :=
      ⟨0x66a241adc64d2f, 0x80000000000000cfffffffffffff77fb781126dcae7b2565ddd6b5c39ed3420⟩
    let r : Nat := 0xc6047f9441ed7d6d3045406e95c07cd85c778e4b8cef3ca7abac09b95c709ee5
    let hash := Octets.ofNat 32 r
    let code := 2 :: Octets.ofNat 32
      0x79be667ef9dcbbac55a06295ce870b07029bfcdb2dce28d959f2815b16f81798
    (∃ octets, σ.toOctets = .ok octets ∧ Stark.Signature.ofOctets octets = .ok σ ∧
        σ.sOctets = .ok (octets.drop 32)) ∧
      (¬∃ σ, Secp256k1.Signature.ofOctets excess = .ok σ) ∧
      (2 ^ 251 ≤ τ.s ∧ Stark.verify key 0 τ.r τ.s = true ∧ τ.FieldsInRange) ∧
      Secp256k1.order / 2 < r ∧ Secp256k1.verify hash r r code = .ok true ∧
        Secp256k1.Signature.FieldsInRange ⟨r, r, 3⟩ := by
  intro σ excess key τ r hash code
  obtain ⟨hstark, hsecp, hhalves, hstarkVerify, hsecpVerify⟩ := signature_codecs_bijective
  obtain ⟨octets, hwrite, hread⟩ := hstark.readBack σ ⟨by decide, by decide⟩
  have hexcess : ¬Secp256k1.Signature.IsCode excess := by
    intro h
    exact absurd h.first.2 (by decide)
  have hstarkAccepted : Stark.verify key 0 τ.r τ.s = true := by decide +kernel
  have hsecpAccepted : Secp256k1.verify hash r r code = .ok true := by decide +kernel
  exact ⟨⟨octets, hwrite, hread, (hhalves σ octets hwrite).2⟩,
    mt (hsecp.reads_iff excess).mp hexcess,
    ⟨by decide, hstarkAccepted, hstarkVerify key 0 τ.r τ.s hstarkAccepted⟩,
    by decide, hsecpAccepted, hsecpVerify hash code r r hsecpAccepted 3 (by decide)⟩

end WalletKeys
