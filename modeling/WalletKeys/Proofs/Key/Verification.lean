import WalletKeys.Proofs.Key.Private
import WalletKeys.Proofs.Secp256k1.Verification

/-! # Verification by keys of any type

    A key that was read or derived lies on its curve, and for such a key verification
    always comes to an answer: what cannot be read is answered with no, and once
    signature and digest have been read no operation on the curve is refused. The answer
    is the one of the curve for what was read (`Accepts`).

    On secp256k1 the curve is asked under the octets of the key, in the form of its
    type. The form makes no difference, so keys of both types that name one point give
    the same answers.
-/

namespace WalletKeys

open WalletKeys.Geometry
open KeyFault (passing passing_ok passing_eq_ok_iff)

/-! ## Section 1: What a curve accepts -/

/-- The octets are read as a signature and a hash that are accepted under a point code. -/
def Secp256k1.AcceptsOctets (code signature digest : Octets) : Prop :=
  ∃ σ hash, Signature.ofOctets signature = .ok σ ∧ SecretKey.signingHash digest = .ok hash ∧
    verify hash σ.r σ.s code = .ok true

/-- The octets are read as a signature and a hash that are accepted under an abscissa. -/
def Stark.AcceptsOctets (key : Int) (signature digest : Octets) : Prop :=
  ∃ σ hash, Signature.ofOctets signature = .ok σ ∧ SecretKey.signingHash digest = .ok hash ∧
    verify key hash σ.r σ.s = true

namespace PublicKey

/-- The octets are read, and accepted by the curve under the octets of the key. -/
def Accepts : PublicKey → (signature digest : Octets) → Prop
  | secp256k1 key, signature, digest =>
    ∃ code, key.code .compressed = .ok code ∧ Secp256k1.AcceptsOctets code signature digest
  | secp256k1Extended key, signature, digest =>
    ∃ code, key.code .uncompressed = .ok code ∧ Secp256k1.AcceptsOctets code signature digest
  | starkex key, signature, digest => Stark.AcceptsOctets key.x signature digest

/-- A key that was read from octets or derived from a private key. -/
inductive Obtained : PublicKey → Prop
  | read {octets : Octets} {choice : Selector KeyType} {key : PublicKey}
      (h : ofOctets octets choice = .ok key) : Obtained key
  | derived {secret : PrivateKey} {choice : Selector KeyType} {key : PublicKey}
      (h : (secret.publicKey choice).result = .ok key) : Obtained key

variable {key key' : PublicKey} {signature digest : Octets}

/-- Such a key lies on its curve. -/
theorem Obtained.onCurve (h : Obtained key) : key.OnCurve := by
  cases h with
  | @read octets choice _ h =>
    cases choice with
    | unknown given => cases h
    | known type =>
      rcases ofOctets_cases type octets with ⟨_, read, hread, _, hcurve, _⟩ | ⟨_, _, hrefused, _⟩
      · rw [hread] at h
        cases h
        exact hcurve
      · rw [hrefused] at h
        cases h
  | @derived secret choice _ h =>
    cases choice with
    | unknown given => cases h
    | known type =>
      rw [PrivateKey.publicKey_result_eq_ok_iff] at h
      cases type with
      | secp256k1 | secp256k1Extended =>
        obtain ⟨_, _, hrest⟩ := bind_eq_ok_iff.mp h
        obtain ⟨inner, hinner, hkey⟩ := bind_eq_ok_iff.mp hrest
        cases hkey
        exact Secp256k1.SecretKey.onCurve_of_publicKey hinner
      | starkex =>
        obtain ⟨_, _, hrest⟩ := bind_eq_ok_iff.mp h
        obtain ⟨inner, hinner, hkey⟩ := bind_eq_ok_iff.mp hrest
        cases hkey
        exact Stark.SecretKey.onCurve_of_publicKey hinner

/-! ## Section 2: Answers -/

/-- Verification answers, and the answer is whether `accepted` holds. -/
def Answers (key : PublicKey) (signature digest : Octets) (accepted : Prop) : Prop :=
  ∃ answer, key.verify signature digest = .ok answer ∧ (answer = true ↔ accepted)

/-- A check that reads the signature, then the digest, and comes to a decision about what
    it has read, answers with that decision. What is not read is answered with no. -/
theorem answers_of_reads {α β : Type} {readSignature : Except KeyFault α}
    {readDigest : Except KeyFault β} {decision : α → β → Except KeyFault Bool}
    (hcheck : key.check signature digest = do
      let σ ← readSignature
      let hash ← readDigest
      decision σ hash)
    (hsignature : ∀ fault, readSignature = .error fault → fault.category = .signature)
    (hdigest : ∀ fault, readDigest = .error fault → fault.category = .signMessage)
    (hdecision : ∀ σ hash, ∃ answer, decision σ hash = .ok answer) :
    key.Answers signature digest (∃ σ hash, readSignature = .ok σ ∧ readDigest = .ok hash ∧
      decision σ hash = .ok true) := by
  cases readSignature with
  | error fault =>
    rw [error_bind] at hcheck
    refine ⟨false, verify_of_check_error hcheck ?_, iff_of_false Bool.false_ne_true ?_⟩
    · rw [hsignature fault rfl]
      decide
    · rintro ⟨_, _, hread, _⟩
      cases hread
  | ok σ =>
  cases readDigest with
  | error fault =>
    rw [ok_bind, error_bind] at hcheck
    refine ⟨false, verify_of_check_error hcheck ?_, iff_of_false Bool.false_ne_true ?_⟩
    · rw [hdigest fault rfl]
      decide
    · rintro ⟨_, _, _, hread, _⟩
      cases hread
  | ok hash =>
    obtain ⟨answer, hanswer⟩ := hdecision σ hash
    rw [ok_bind, ok_bind, hanswer] at hcheck
    refine ⟨answer, verify_of_check hcheck, ?_⟩
    constructor
    · rintro rfl
      exact ⟨σ, hash, rfl, rfl, hanswer⟩
    · rintro ⟨_, _, hσ, hhash, haccepted⟩
      cases hσ
      cases hhash
      exact Except.ok.inj (hanswer.symm.trans haccepted)

/-- The answer for a key of secp256k1 is the one under its code, in whichever form. -/
theorem answers_secp256k1 {inner : Secp256k1.PublicKey} (hcurve : Secp256k1.OnCurve inner.point)
    (form : Secp256k1.Form) (signature digest : Octets) :
    (secp256k1 inner).Answers signature digest
      (∃ code, inner.code form = .ok code ∧
        Secp256k1.AcceptsOctets code signature digest) := by
  obtain ⟨code, hcode⟩ := Secp256k1.exists_encode form hcurve
  have hcheck : (secp256k1 inner).check signature digest = (do
      let σ ← Secp256k1.Signature.ofOctets signature
      let hash ← Secp256k1.SecretKey.signingHash digest
      passing (Secp256k1.verify hash σ.r σ.s code)) := by
    simp only [check, Secp256k1.PublicKey.verify_eq hcurve hcode]
  have hdecision : ∀ (σ : Secp256k1.Signature) (hash : Octets),
      ∃ answer, passing (Secp256k1.verify hash σ.r σ.s code) = .ok answer := by
    intro σ hash
    obtain ⟨answer, hanswer⟩ := Secp256k1.exists_verify hash σ.r σ.s code
    exact ⟨answer, by rw [hanswer, passing_ok]⟩
  obtain ⟨answer, hverify, hiff⟩ := answers_of_reads hcheck
    (fun _ => Secp256k1.Signature.category_of_ofOctets)
    (fun _ => Secp256k1.SecretKey.category_of_signingHash) hdecision
  simp only [passing_eq_ok_iff] at hiff
  refine ⟨answer, hverify, hiff.trans ?_⟩
  constructor
  · intro haccepts
    exact ⟨code, hcode, haccepts⟩
  · rintro ⟨code', hcode', haccepts⟩
    cases hcode.symm.trans hcode'
    exact haccepts

/-- The answer for a key of the STARK curve is the one under its abscissa. -/
theorem answers_starkex (inner : Stark.PublicKey) (signature digest : Octets) :
    (starkex inner).Answers signature digest (Stark.AcceptsOctets inner.x signature digest) := by
  have hcheck : (starkex inner).check signature digest = (do
      let σ ← Stark.Signature.ofOctets signature
      let hash ← Stark.SecretKey.signingHash digest
      .ok (Stark.verify inner.x hash σ.r σ.s)) := rfl
  have h := answers_of_reads hcheck (fun _ => Stark.Signature.category_of_ofOctets)
    (fun _ => Stark.SecretKey.category_of_signingHash) (fun _ _ => ⟨_, rfl⟩)
  simp only [Except.ok.injEq] at h
  exact h

/-- A key on its curve answers as the curve does. -/
theorem answers_of_onCurve (h : key.OnCurve) (signature digest : Octets) :
    key.Answers signature digest (key.Accepts signature digest) := by
  cases key with
  | secp256k1 inner => exact answers_secp256k1 h .compressed signature digest
  -- The type has no part in the check, so the key answers as one of the other type.
  | secp256k1Extended inner => exact answers_secp256k1 h .uncompressed signature digest
  | starkex inner => exact answers_starkex inner signature digest

/-! ## Section 3: One point, one answer -/

/-- A key whose octets are read as a point has that point. -/
theorem eq_of_decode (h : key.OnCurve) {octets : Octets} (hwrite : key.toOctets = .ok octets)
    {p : Affine} (hread : Secp256k1.decode octets = .ok p) :
    key = secp256k1 ⟨p⟩ ∨ key = secp256k1Extended ⟨p⟩ := by
  cases key with
  | secp256k1 inner =>
    have hcode : Secp256k1.encode .compressed inner.point = .ok octets := hwrite
    cases (Secp256k1.decode_of_encode h hcode).symm.trans hread
    exact .inl rfl
  | secp256k1Extended inner =>
    have hcode : Secp256k1.encode .uncompressed inner.point = .ok octets := hwrite
    cases (Secp256k1.decode_of_encode h hcode).symm.trans hread
    exact .inr rfl
  | starkex inner =>
    -- An abscissa takes 32 octets, and no point code has so few.
    obtain ⟨hlength, _⟩ := FixedWidth.write_eq_ok_iff.mp hwrite
    obtain ⟨_, form, hcode⟩ := Secp256k1.encode_of_decode hread
    rw [Secp256k1.length_of_encode hcode] at hlength
    cases form <;> exact absurd hlength (by decide)

/-- A key that was read or derived answers on all octets, and the answer is yes exactly if
    the octets are read as a signature and a hash that the curve accepts under the octets
    of the key. Two keys whose octets name one point of secp256k1, in whichever forms,
    have one answer to everything. -/
theorem verify_total_of_obtained :
    (∀ {key : PublicKey}, Obtained key → ∀ signature digest, ∃ answer,
        key.verify signature digest = .ok answer ∧
          (answer = true ↔ key.Accepts signature digest)) ∧
      ∀ {key key' : PublicKey} {octets octets' : Octets} {p : Affine}, Obtained key →
        Obtained key' → key.toOctets = .ok octets → key'.toOctets = .ok octets' →
          Secp256k1.decode octets = .ok p → Secp256k1.decode octets' = .ok p →
            ∀ signature digest, key.verify signature digest = key'.verify signature digest := by
  refine ⟨fun h => answers_of_onCurve h.onCurve, ?_⟩
  intro key key' octets octets' p hkey hkey' hwrite hwrite' hread hread' signature digest
  -- The two keys are the point with one type or the other, and the check ignores the type.
  rcases eq_of_decode hkey.onCurve hwrite hread with rfl | rfl <;>
    rcases eq_of_decode hkey'.onCurve hwrite' hread' with rfl | rfl <;> rfl

/-- The base point as a key of both types. A signature with a scalar above half of the
    order is accepted by both, an octet less is not read as a signature, and they never
    differ. -/
theorem verify_total_of_obtained_base_point :
    let x := Octets.ofNat 32 0x79be667ef9dcbbac55a06295ce870b07029bfcdb2dce28d959f2815b16f81798
    let y := Octets.ofNat 32 0x483ada7726a3c4655da4fbfc0e1108a8fd17b448a68554199c47d08ffb10d4b8
    let r := Octets.ofNat 32 0xc6047f9441ed7d6d3045406e95c07cd85c778e4b8cef3ca7abac09b95c709ee5
    let key : PublicKey := .secp256k1 ⟨Secp256k1.generator⟩
    let key' : PublicKey := .secp256k1Extended ⟨Secp256k1.generator⟩
    ofOctets (2 :: x) (.known .secp256k1) = .ok key ∧
      ofOctets (4 :: (x ++ y)) (.known .secp256k1Extended) = .ok key' ∧
      key.verify (r ++ r ++ [3]) r = .ok true ∧ key.verify (r ++ r) r = .ok false ∧
      ∀ signature digest, key.verify signature digest = key'.verify signature digest := by
  intro x y r key key'
  have hkey : ofOctets (2 :: x) (.known .secp256k1) = .ok key := by decide +kernel
  have hkey' : ofOctets (4 :: (x ++ y)) (.known .secp256k1Extended) = .ok key' := by
    decide +kernel
  have hread : Secp256k1.Signature.ofOctets (r ++ r ++ [3]) = .ok ⟨r.toNat, r.toNat, 3⟩ := by
    decide +kernel
  have haccepts : key.Accepts (r ++ r ++ [3]) r :=
    ⟨2 :: x, by decide +kernel, ⟨r.toNat, r.toNat, 3⟩, r, hread, rfl, by decide +kernel⟩
  obtain ⟨hanswers, hsame⟩ := verify_total_of_obtained
  obtain ⟨answer, hverify, hiff⟩ := hanswers (.read hkey) (r ++ r ++ [3]) r
  obtain ⟨answer', hverify', hiff'⟩ := hanswers (.read hkey) (r ++ r) r
  have hrefused : ¬key.Accepts (r ++ r) r := by
    rintro ⟨_, _, σ, _, hσ, _⟩
    have hlength : Secp256k1.Signature.ofOctets (r ++ r) = .error (.signatureLength 65 64) := by
      decide +kernel
    rw [hlength] at hσ
    cases hσ
  refine ⟨hkey, hkey', ?_, ?_, ?_⟩
  · rw [hverify, hiff.mpr haccepts]
  · rw [hverify', Bool.eq_false_iff.mpr (mt hiff'.mp hrefused)]
  · exact hsame (p := Secp256k1.generator) (.read hkey) (.read hkey')
      (by decide +kernel : key.toOctets = .ok (2 :: x))
      (by decide +kernel : key'.toOctets = .ok (4 :: (x ++ y))) (by decide +kernel)
      (by decide +kernel)

end PublicKey

end WalletKeys
