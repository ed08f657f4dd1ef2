import WalletKeys.Key.Secp256k1
import WalletKeys.Proofs.Secp256k1.Ecdsa

/-! # Keys of secp256k1

    What signing, verification and recovery guarantee of keys and signatures as
    objects. Recovery of a key does not fail in any other way than by reporting
    the signature: what it recovers is a point of the curve, whose code is read
    back.
-/

namespace WalletKeys.Secp256k1

open WalletKeys.Geometry
open WalletKeys.Nonce (Derivation)
open KeyFault (refusing refusing_ok refusing_of_value refusing_eq_ok_iff passing_eq_ok_iff)

/-! ## Section 1: Signatures -/

theorem Signature.toOctets_eq_ok_iff {σ : Signature} {octets : Octets} :
    σ.toOctets = .ok octets ↔ ∃ (r s : Octets) (v : UInt8), (r.length = 32 ∧ σ.r = r.toNat) ∧
      (s.length = 32 ∧ σ.s = s.toNat) ∧ σ.v = v.toNat ∧ octets = r ++ s ++ [v] := by
  unfold toOctets
  simp only [bind_eq_ok_iff, FixedWidth.write_eq_ok_iff, FixedWidth.octet_eq_ok_iff, pure_eq_ok,
    Except.ok.injEq, eq_comm (b := octets), ← exists_and_left]

/-- Octets of the right length are two strings of 32 octets and one more octet. -/
theorem Signature.exists_parts {octets : Octets} (h : octets.length = Signature.length) :
    ∃ (r s : Octets) (v : UInt8), r.length = 32 ∧ s.length = 32 ∧ octets = r ++ s ++ [v] := by
  rw [Signature.length] at h
  have hlast : (octets.drop 64).length = 1 := by rw [List.length_drop, h]
  obtain ⟨v, hv⟩ := List.length_eq_one_iff.mp hlast
  refine ⟨octets.take 32, (octets.drop 32).take 32, v, ?_, ?_, ?_⟩
  · rw [List.length_take, h]
    rfl
  · rw [List.length_take, List.length_drop, h]
    rfl
  · rw [← hv, ← List.take_add, List.take_append_drop]

/-- The parts are cut out where they have been put together. -/
theorem Signature.cut_parts {r s : Octets} (hr : r.length = 32) (hs : s.length = 32) (v : UInt8) :
    (r ++ s ++ [v]).take 32 = r ∧ ((r ++ s ++ [v]).drop 32).take 32 = s ∧
      (r ++ s ++ [v]).drop 64 = [v] := by
  have hprefix : (r ++ s).length = 64 := by rw [List.length_append, hr, hs]
  refine ⟨?_, ?_, List.drop_left' hprefix⟩
  · rw [List.append_assoc, List.take_left' hr]
  · rw [List.append_assoc, List.drop_left' hr, List.take_left' hs]

theorem Signature.length_parts {r s : Octets} (hr : r.length = 32) (hs : s.length = 32)
    (v : UInt8) : (r ++ s ++ [v]).length = Signature.length := by
  rw [List.length_append, List.length_append, hr, hs]
  rfl

/-- What is read of the parts. -/
theorem Signature.ofOctets_parts {r s : Octets} (hr : r.length = 32) (hs : s.length = 32)
    (v : UInt8) :
    ofOctets (r ++ s ++ [v]) =
      if ¬InRange r.toNat s.toNat then .error .scalarRange
      else if 3 < v.toNat then .error .recoveryIdRange
      else .ok ⟨r.toNat, s.toNat, v.toNat⟩ := by
  obtain ⟨hhead, hmiddle, hlast⟩ := cut_parts hr hs v
  rw [ofOctets, if_neg (not_not_intro (length_parts hr hs v))]
  dsimp only
  rw [hhead, hmiddle, hlast, Octets.toNat_singleton]

/-- What is written for a signature in range is read as that signature. -/
theorem Signature.ofOctets_of_toOctets {σ : Signature} {octets : Octets}
    (hrange : InRange σ.r σ.s) (hid : σ.v ≤ 3) (h : σ.toOctets = .ok octets) :
    octets.length = Signature.length ∧ ofOctets octets = .ok σ := by
  obtain ⟨r, s, v, ⟨hrlength, hr⟩, ⟨hslength, hs⟩, hv, rfl⟩ := toOctets_eq_ok_iff.mp h
  refine ⟨length_parts hrlength hslength v, ?_⟩
  rw [ofOctets_parts hrlength hslength, ← hr, ← hs, if_neg (not_not_intro hrange),
    if_neg (by omega), ← hv]

/-- A signature in range can be written. -/
theorem Signature.exists_toOctets {σ : Signature} (hrange : InRange σ.r σ.s)
    (hid : 0 ≤ σ.v ∧ σ.v ≤ 3) : ∃ octets, σ.toOctets = .ok octets := by
  have hfit : (order : Int) < 256 ^ 32 := by decide
  obtain ⟨hr, hs⟩ := hrange
  obtain ⟨r, hrw, _⟩ := FixedWidth.write_of_lt 32 ⟨hr.1.le, hr.2.trans hfit⟩
  obtain ⟨s, hsw, _⟩ := FixedWidth.write_of_lt 32 ⟨hs.1.le, hs.2.trans hfit⟩
  have hv : FixedWidth.octet σ.v = .ok (UInt8.ofNat σ.v.toNat) := if_pos (by omega)
  exact ⟨_, by rw [toOctets, hrw, ok_bind, hsw, ok_bind, hv, ok_bind, pure_eq_ok]⟩

/-- Octets that are no signature are refused as a bad signature. -/
theorem Signature.category_of_ofOctets {octets : Octets} {fault : KeyFault}
    (h : ofOctets octets = .error fault) : fault.category = .signature := by
  unfold ofOctets at h
  split at h
  · cases h
    rfl
  dsimp only at h
  split at h
  · cases h
    rfl
  split at h
  · cases h
    rfl
  · cases h

/-! ## Section 2: Public keys -/

namespace PublicKey

/-- The key of a code that is read. -/
theorem ofOctets_of_decode {code : Octets} {q : Affine} (h : decode code = .ok q) :
    ofOctets code = .ok ⟨q⟩ := by
  rw [ofOctets, h, refusing_ok, ok_bind, pure_eq_ok]

/-- A key on the curve is read back from each of its codes. -/
theorem exists_code (form : Form) {key : PublicKey} (h : OnCurve key.point) :
    ∃ octets, key.code form = .ok octets ∧ octets.length = form.length ∧
      ofOctets octets = .ok key := by
  obtain ⟨octets, hcode⟩ := exists_encode form h
  exact ⟨octets, hcode, length_of_encode hcode, ofOctets_of_decode (decode_of_encode h hcode)⟩

/-- Codes of points of the curve are read, each as its point, and all else is refused
    as a bad public key. -/
theorem ofOctets_cases (octets : Octets) :
    (∃ key form, ofOctets octets = .ok key ∧ OnCurve key.point ∧ IsCode key.point form octets) ∨
      (∃ fault, ofOctets octets = .error fault ∧ fault.category = .publicKey) ∧
        ∀ form p, OnCurve p → ¬IsCode p form octets := by
  cases hcode : decode octets with
  | ok q =>
    obtain ⟨hq, form, hform⟩ := decode_eq_ok_iff_isCode.mp hcode
    exact .inl ⟨⟨q⟩, form, ofOctets_of_decode hcode, hq, hform⟩
  | error fault =>
    refine .inr ⟨⟨.refusedPublicKey fault, ?_, rfl⟩, ?_⟩
    · rw [ofOctets, hcode, refusing_of_value _ (category_of_decode hcode), error_bind]
    · intro form p hp hform
      rw [decode_eq_ok_iff_isCode.mpr ⟨hp, form, hform⟩] at hcode
      cases hcode

/-- What a key accepts is what is accepted under any of its codes. -/
theorem verify_eq {form : Form} {key : PublicKey} (h : OnCurve key.point) {code : Octets}
    (hcode : key.code form = .ok code) (σ : Signature) (hash : Octets) :
    key.verify σ hash = Secp256k1.verify hash σ.r σ.s code := by
  obtain ⟨octets, hoctets⟩ := exists_encode .uncompressed h
  rw [verify, PublicKey.code, hoctets, ok_bind]
  apply verify_congr
  rw [decode_of_encode h hoctets, decode_of_encode h hcode]

/-- A key accepts the signatures that some nonce point fits. -/
theorem verify_eq_true_iff {Q : Element} (hQ : Q ≠ 0) {σ : Signature} {hash : Octets} :
    verify ⟨coordinates Q⟩ σ hash = .ok true ↔
      hash.length = 32 ∧ InRange σ.r σ.s ∧ ∃ R, Fits hash.toNat σ.r σ.s Q R := by
  have hcurve := onCurve_coordinates hQ
  obtain ⟨octets, hcode⟩ := exists_encode .uncompressed hcurve
  rw [verify, code, hcode, ok_bind, Secp256k1.verify_eq_true_iff (decode_of_encode hcurve hcode)]

/-- Recovery returns a key on the curve or reports the signature. -/
theorem recover_cases (σ : Signature) (hash : Octets) :
    (∃ key, recover σ hash = .ok key ∧ OnCurve key.point) ∨
      ∃ fault, recover σ hash = .error fault ∧ fault.category = .signature := by
  unfold recover
  rcases recoverCode_cases .uncompressed hash σ.r σ.s σ.v with
    ⟨code, q, hok, hcode⟩ | ⟨fault, herr, hfault⟩
  · rw [hok, refusing_ok, ok_bind, ofOctets_of_decode hcode]
    exact .inl ⟨⟨q⟩, rfl, (encode_of_decode hcode).1⟩
  · rw [herr, refusing_of_value _ hfault, error_bind]
    exact .inr ⟨_, rfl, rfl⟩

end PublicKey

/-! ## Section 3: Secret keys -/

namespace SecretKey

/-- The scalar of a secret is not zero and below the order. -/
theorem scalar_range {secret : Octets} {key : SecretKey} (h : ofOctets secret = .ok key) :
    0 < key.scalar ∧ key.scalar < order := by
  unfold ofOctets at h
  obtain ⟨d, hd, hkey⟩ := bind_eq_ok_iff.mp h
  cases hkey
  exact (scalarOfOctets_eq_ok_iff.mp (refusing_eq_ok_iff.mp hd)).2.1

/-- Octets of the right length that are not zero are a secret below the order. -/
theorem ofOctets_eq {secret : Octets} (hlength : secret.length = 32) (hpos : 0 < secret.toNat) :
    ofOctets secret = if secret.toNat < order then .ok ⟨secret.toNat⟩
      else .error (.refusedSecret .secretRange) := by
  rw [ofOctets, scalarOfOctets, if_neg (not_not_intro hlength)]
  by_cases hrange : secret.toNat < order
  · rw [if_neg (by omega), if_pos hrange]
    rfl
  · rw [if_pos (by omega), if_neg hrange]
    rfl

/-- The public key is the public point. -/
theorem publicKey_eq {key : SecretKey} (h : key.scalar % order ≠ 0) :
    key.publicKey = .ok ⟨coordinates (key.scalar • base)⟩ := by
  obtain ⟨code, hcode, hread⟩ := exists_publicCode .uncompressed h
  rw [publicKey, hcode, KeyFault.passing_ok, ok_bind, PublicKey.ofOctets_of_decode hread]

/-- A public key that is given out lies on the curve. -/
theorem onCurve_of_publicKey {key : SecretKey} {inner : PublicKey}
    (h : key.publicKey = .ok inner) : OnCurve inner.point := by
  obtain ⟨code, _, hread⟩ := bind_eq_ok_iff.mp h
  rcases PublicKey.ofOctets_cases code with ⟨_, _, hok, hcurve, _⟩ | ⟨⟨_, hrefused, _⟩, _⟩
  · rw [hok] at hread
    cases hread
    exact hcurve
  · rw [hrefused] at hread
    cases hread

/-- A digest of another length is a bad message. -/
theorem category_of_signingHash {digest : Octets} {fault : KeyFault}
    (h : signingHash digest = .error fault) : fault.category = .signMessage := by
  unfold signingHash at h
  split at h
  · cases h
    rfl
  · cases h

/-- A signature over a digest leads back to the public point. -/
theorem recovers_of_signDigest {derivation : Derivation} {key : SecretKey} {digest : Octets}
    {σ : Signature} (h : key.signDigest derivation digest = .ok σ) :
    digest.length = 32 ∧ σ.s ≤ order / 2 ∧
      ∃ R, Recovers digest.toNat σ.r σ.s σ.v (key.scalar • base) R := by
  unfold signDigest at h
  obtain ⟨hash, hhash, hsign⟩ := bind_eq_ok_iff.mp h
  unfold signingHash at hhash
  split at hhash
  · cases hhash
  · cases hhash
    rw [passing_eq_ok_iff] at hsign
    exact recovers_of_sign hsign

end SecretKey

/-! ## Section 4: Agreement -/

/-- Verification and recovery agree: a signature is accepted under a code exactly if
    some id leads back to the point of the code, and no two ids do. Recovery of a
    key is refused as a bad signature or not at all. -/
theorem verify_agrees_with_recover :
    (∀ (hash : Octets) (r s : Int) (code : Octets) (key : Affine) (form : Form),
      hash.length = 32 → decode code = .ok key →
        (verify hash r s code = .ok true ↔ ∃ id, RecoversTo form hash r s key id) ∧
          ∀ id id', RecoversTo form hash r s key id → RecoversTo form hash r s key id' → id = id') ∧
      ∀ (σ : Signature) (hash : Octets),
        (∃ key, PublicKey.recover σ hash = .ok key ∧ OnCurve key.point) ∨
          ∃ fault, PublicKey.recover σ hash = .error fault ∧ fault.category = .signature := by
  refine ⟨?_, PublicKey.recover_cases⟩
  intro hash r s code key form hlength hcode
  refine ⟨verify_iff_exists_recoversTo form hlength hcode, ?_⟩
  intro id id' h h'
  exact h.id_unique hlength h'

/-- A signature by the base point itself with a scalar above half of the order, which
    is accepted and leads back from one id. -/
theorem verify_agrees_with_recover_high_scalar :
    let r : Nat := 0xc6047f9441ed7d6d3045406e95c07cd85c778e4b8cef3ca7abac09b95c709ee5
    let hash := Octets.ofNat 32 r
    let code := 2 :: Octets.ofNat 32
      0x79be667ef9dcbbac55a06295ce870b07029bfcdb2dce28d959f2815b16f81798
    order / 2 < r ∧ hash.length = 32 ∧ decode code = .ok generator ∧
      verify hash r r code = .ok true ∧ ∃ id, RecoversTo .compressed hash r r generator id ∧
        ∀ id', RecoversTo .compressed hash r r generator id' → id' = id := by
  intro r hash code
  have hlength : hash.length = 32 := Octets.length_ofNat 32 r
  have hcode : decode code = .ok generator := by decide +kernel
  have hverify : verify hash r r code = .ok true := by decide +kernel
  obtain ⟨hiff, hunique⟩ :=
    verify_agrees_with_recover.1 hash r r code generator .compressed hlength hcode
  obtain ⟨id, hid⟩ := hiff.mp hverify
  exact ⟨by decide, hlength, hcode, hverify, id, hid, fun id' hid' => hunique id' id hid' hid⟩

end WalletKeys.Secp256k1
