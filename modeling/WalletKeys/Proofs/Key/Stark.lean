import WalletKeys.Key.Stark
import WalletKeys.Proofs.Octets
import WalletKeys.Proofs.Results
import WalletKeys.Proofs.Stark.Ecdsa

/-! # Keys of the STARK curve

    What is written for signatures and keys is read back, and a signature over a
    digest fits the public point of its secret. Scalars of a signature have 251
    bits, so they are field elements and are not refused when they are read.
-/

namespace WalletKeys.Stark

open WalletKeys.Geometry
open WalletKeys.Nonce (Derivation)
open KeyFault (refusing refusing_ok refusing_of_value refusing_eq_ok_iff
  exists_of_refusing_eq_error)

/-! ## Section 1: Signatures -/

theorem Signature.toOctets_eq_ok_iff {σ : Signature} {octets : Octets} :
    σ.toOctets = .ok octets ↔ ∃ r s : Octets, (r.length = 32 ∧ σ.r = r.toNat) ∧
      (s.length = 32 ∧ σ.s = s.toNat) ∧ octets = r ++ s := by
  rw [toOctets, rOctets, sOctets]
  simp only [bind_eq_ok_iff, FixedWidth.write_eq_ok_iff, pure_eq_ok, Except.ok.injEq,
    eq_comm (b := octets), ← exists_and_left]

/-- What is written for a signature of field elements is read as that signature. -/
theorem Signature.ofOctets_of_toOctets {σ : Signature} {octets : Octets} (hr : σ.r < fieldPrime)
    (hs : σ.s < fieldPrime) (h : σ.toOctets = .ok octets) :
    octets.length = Signature.length ∧ ofOctets octets = .ok σ := by
  obtain ⟨r, s, ⟨hrlength, hrnat⟩, ⟨hslength, hsnat⟩, rfl⟩ := toOctets_eq_ok_iff.mp h
  have hlength : (r ++ s).length = Signature.length := by
    rw [List.length_append, hrlength, hslength]
    rfl
  refine ⟨hlength, ?_⟩
  rw [ofOctets, if_neg (not_not_intro hlength), refusing_eq_ok_iff, List.take_left' hrlength,
    List.drop_left' hrlength, elementOfOctets_eq_ok_iff.mpr ⟨hrlength, hr, hrnat⟩, ok_bind,
    elementOfOctets_eq_ok_iff.mpr ⟨hslength, hs, hsnat⟩, ok_bind, pure_eq_ok]

/-- Octets that are no signature are refused as a bad signature. -/
theorem Signature.category_of_ofOctets {octets : Octets} {fault : KeyFault}
    (h : ofOctets octets = .error fault) : fault.category = .signature := by
  unfold ofOctets at h
  split at h
  · cases h
    rfl
  · have hvalue : ∀ cause, (do
        let r ← elementOfOctets (octets.take 32)
        let s ← elementOfOctets (octets.drop 32)
        return (⟨r, s⟩ : Signature)) = .error cause → cause.category = .value := by
      intro cause hcause
      rcases bind_eq_error_iff.mp hcause with hr | ⟨_, _, hrest⟩
      · exact category_of_elementOfOctets hr
      rcases bind_eq_error_iff.mp hrest with hs | ⟨_, _, hdone⟩
      · exact category_of_elementOfOctets hs
      · cases hdone
    obtain ⟨cause, rfl⟩ := exists_of_refusing_eq_error hvalue h
    rfl

/-- A usable scalar is a field element. -/
theorem Usable.lt_fieldPrime {x : Int} (h : Usable x) : x < fieldPrime := by
  have hbound : (bound : Int) < fieldPrime := by decide
  exact h.2.trans hbound

/-- A signature of field elements can be written. -/
theorem Signature.exists_toOctets {σ : Signature} (hr : 0 ≤ σ.r ∧ σ.r < fieldPrime)
    (hs : 0 ≤ σ.s ∧ σ.s < fieldPrime) : ∃ octets, σ.toOctets = .ok octets := by
  have hfit : (fieldPrime : Int) < 256 ^ 32 := by decide
  obtain ⟨r, hrw, _⟩ := FixedWidth.write_of_lt 32 ⟨hr.1, hr.2.trans hfit⟩
  obtain ⟨s, hsw, _⟩ := FixedWidth.write_of_lt 32 ⟨hs.1, hs.2.trans hfit⟩
  exact ⟨_, by rw [toOctets, rOctets, sOctets, hrw, ok_bind, hsw, ok_bind, pure_eq_ok]⟩

/-! ## Section 2: Public keys -/

/-- A key that is the abscissa of a point is read back from its octets. -/
theorem PublicKey.exists_octets {key : PublicKey} {y : Int} (h : OnCurve ⟨key.x, y⟩) :
    ∃ octets, key.toOctets = .ok octets ∧ octets.length = 32 ∧ ofOctets octets = .ok key := by
  obtain ⟨hx, hxp⟩ := h.1
  have hfit : (fieldPrime : Int) < 256 ^ 32 := by decide
  obtain ⟨octets, hwrite, hlength, hnat⟩ := FixedWidth.write_of_lt 32 ⟨hx, hxp.trans hfit⟩
  refine ⟨octets, hwrite, hlength, ?_⟩
  rw [ofOctets, elementOfOctets_eq_ok_iff.mpr ⟨hlength, hxp, hnat⟩, refusing_ok, ok_bind]
  rcases ordinate?_cases key.x with ⟨_, hsome, _⟩ | ⟨_, hnone⟩
  · rw [hsome]
    rfl
  · exact absurd h (hnone y)

/-- Abscissas of points of the curve on 32 octets are read, and all else is refused as a
    bad public key. -/
theorem PublicKey.ofOctets_cases (octets : Octets) :
    (∃ key y, ofOctets octets = .ok key ∧ OnCurve ⟨key.x, y⟩ ∧ key.toOctets = .ok octets) ∨
      (∃ fault, ofOctets octets = .error fault ∧ fault.category = .publicKey) ∧
        ∀ p, OnCurve p → ¬(octets.length = 32 ∧ p.x = octets.toNat) := by
  cases helement : elementOfOctets octets with
  | error fault =>
    refine .inr ⟨⟨.refusedPublicKey fault, ?_, rfl⟩, ?_⟩
    · rw [ofOctets, helement, refusing_of_value _ (category_of_elementOfOctets helement),
        error_bind]
    · intro p hp hcode
      rw [elementOfOctets_eq_ok_iff.mpr ⟨hcode.1, hp.1.2, hcode.2⟩] at helement
      cases helement
  | ok x =>
    obtain ⟨hlength, _, hx⟩ := elementOfOctets_eq_ok_iff.mp helement
    rcases ordinate?_cases x with ⟨y, hsome, hy⟩ | ⟨hnone, hempty⟩
    · refine .inl ⟨⟨x⟩, y, ?_, hy, FixedWidth.write_eq_ok_iff.mpr ⟨hlength, hx⟩⟩
      rw [ofOctets, helement, refusing_ok, ok_bind, hsome]
      rfl
    · refine .inr ⟨⟨.keyOffCurve, ?_, rfl⟩, ?_⟩
      · rw [ofOctets, helement, refusing_ok, ok_bind, hnone]
      · intro p hp hcode
        apply hempty p.y
        rw [hx, ← hcode.2]
        exact hp

/-! ## Section 3: Secret keys -/

namespace SecretKey

/-- Octets of the right length are a secret below the field prime. -/
theorem ofOctets_eq {secret : Octets} (hlength : secret.length = 32) :
    ofOctets secret = if secret.toNat < fieldPrime then .ok ⟨secret.toNat⟩
      else .error (.refusedSecret .elementRange) := by
  rw [ofOctets, elementOfOctets, if_neg (not_not_intro hlength)]
  by_cases hrange : secret.toNat < fieldPrime
  · rw [if_neg (by omega), if_pos hrange]
    rfl
  · rw [if_pos (by omega), if_neg hrange]
    rfl

/-- The public key of a secret that the order does not divide is the abscissa of its
    public point. -/
theorem exists_publicKey {key : SecretKey} (h : key.element % order ≠ 0) :
    ∃ q, coordinates? (key.element • base) = some q ∧ key.publicKey = .ok ⟨q.x⟩ := by
  obtain ⟨q, hq, habscissa⟩ := exists_publicAbscissa h
  refine ⟨q, hq, ?_⟩
  rw [publicKey, habscissa, refusing_ok, ok_bind, pure_eq_ok]

/-- A public key that is given out is the abscissa of a point. -/
theorem onCurve_of_publicKey {key : SecretKey} {inner : PublicKey}
    (h : key.publicKey = .ok inner) : ∃ y, OnCurve ⟨inner.x, y⟩ := by
  obtain ⟨x, habscissa, hinner⟩ := bind_eq_ok_iff.mp h
  cases hinner
  rw [refusing_eq_ok_iff] at habscissa
  obtain ⟨q, hq, rfl⟩ := exists_of_publicAbscissa habscissa
  exact ⟨q.y, onCurve_iff.mpr ⟨_, hq⟩⟩

/-- A digest of another length, or with more than 251 bits, is a bad message. -/
theorem category_of_signingHash {digest : Octets} {fault : KeyFault}
    (h : signingHash digest = .error fault) : fault.category = .signMessage := by
  unfold signingHash at h
  split at h
  · cases h
    rfl
  split at h
  · cases h
    rfl
  · cases h

/-- The hash that is signed for a digest has 251 bits. -/
theorem signingHash_range {digest : Octets} {hash : Int} (h : signingHash digest = .ok hash) :
    0 ≤ hash ∧ hash < bound := by
  unfold signingHash at h
  split at h
  · cases h
  split at h
  · cases h
  · cases h
    omega

/-- A signature over a digest fits the public point. -/
theorem fits_of_signDigest {derivation : Derivation} {key : SecretKey} {digest : Octets}
    {σ : Signature} (h : (key.signDigest derivation digest).result = .ok σ) :
    ∃ hash, signingHash digest = .ok hash ∧ (0 ≤ hash ∧ hash < bound) ∧
      key.element % order ≠ 0 ∧ Usable σ.r ∧ Usable σ.s ∧
        ∃ R, Fits hash σ.r σ.s (key.element • base) R := by
  unfold signDigest at h
  obtain ⟨hash, hhash, hsign⟩ := Outcome.result_bind_eq_ok_iff.mp h
  unfold sign at hsign
  split at hsign
  · cases hsign
  · exact ⟨hash, hhash, fits_of_sign (refusing_eq_ok_iff.mp hsign)⟩

end SecretKey

end WalletKeys.Stark
