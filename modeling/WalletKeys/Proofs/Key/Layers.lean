import WalletKeys.Proofs.Key.Refusal

/-! # The key layer and the curve layer agree

    A caller can work with private keys, or call a curve with the octets of a secret. The
    two ways differ in what they do: a key checks its secret by itself, restates the
    faults of the curve, writes and reads its public point before it gives it out, and
    puts a signature on octets.

    They come out alike (`layers_agree`). Where one way is refused, the other one is, and
    otherwise the octets of the key layer are those of the values of the curve layer. The
    signature of a curve counts its recovery id from 27, which the octets do not.
-/

namespace WalletKeys

open WalletKeys.Nonce (Derivation)
open KeyFault (passing passing_ok refusing_ok)

/-! ## Section 1: Agreement -/

/-- A computation of the key layer and one of the curve layer come out alike: what they
    are given is refused by both, or they have values that match. -/
inductive Agree {α β : Type} (Matching : α → β → Prop) :
    Except KeyFault α → Except CurveFault β → Prop where
  | refused {fault : KeyFault} {cause : CurveFault} (key : fault.category.isA .value = true)
      (curve : cause.category.isA .value = true) : Agree Matching (.error fault) (.error cause)
  | returned {a : α} {b : β} (same : Matching a b) : Agree Matching (.ok a) (.ok b)

/-- The same of searches for a nonce, which may both be given up at their limit. -/
def SearchesAgree {α β : Type} (Matching : α → β → Prop) (x : Except KeyFault α)
    (y : Except CurveFault β) : Prop :=
  Agree Matching x y ∨ x = .error (.curve .undecided) ∧ y = .error .undecided

section Sequence

variable {α α' β β' : Type} {Matching : α → β → Prop} {Matching' : α' → β' → Prop}
  {x : Except KeyFault α} {y : Except CurveFault β} {f : α → Except KeyFault α'}
  {g : β → Except CurveFault β'}

/-- What goes on alike from values that match comes out alike. -/
theorem Agree.bind (h : Agree Matching x y)
    (hrest : ∀ a b, Matching a b → Agree Matching' (f a) (g b)) :
    Agree Matching' (x >>= f) (y >>= g) := by
  cases h with
  | refused hkey hcurve => exact .refused hkey hcurve
  | returned hsame => exact hrest _ _ hsame

theorem Agree.bind_search (h : Agree Matching x y)
    (hrest : ∀ a b, Matching a b → SearchesAgree Matching' (f a) (g b)) :
    SearchesAgree Matching' (x >>= f) (y >>= g) := by
  cases h with
  | refused hkey hcurve => exact .inl (.refused hkey hcurve)
  | returned hsame => exact hrest _ _ hsame

/-- A value of the curve layer is one of the key layer. -/
theorem Agree.eq_of_ok {x : Except KeyFault α} {a : α} (h : Agree Eq x (.ok a)) : x = .ok a := by
  cases h with
  | returned hsame => rw [hsame]

end Sequence

/-! ## Section 2: The two ways -/

/-- What a private key with some secret signs on secp256k1. -/
def signatureOf (derivation : Derivation) (secret digest : Octets) : Except KeyFault Octets := do
  let key ← PrivateKey.ofOctets secret
  (key.sign derivation digest (.known .secp256k1)).result

/-- The octets of the public key of some secret. -/
def publicOctetsOf (type : KeyType) (secret : Octets) : Except KeyFault Octets := do
  let key ← PrivateKey.ofOctets secret
  let derived ← (key.publicKey (.known type)).result
  passing derived.toOctets

/-- The abscissa that belongs to a number, on 32 octets. -/
def abscissaOctets (secret : Int) : Except CurveFault Octets := do
  let x ← Stark.publicAbscissa secret
  FixedWidth.write 32 x

/-- Some octets are those of a signature whose recovery id is counted from 27. -/
def IsRecoverable (octets : Octets) (σ : Secp256k1.Signature) : Prop :=
  ∃ (r s : Octets) (v : UInt8), octets = r ++ s ++ [v] ∧ (r.length = 32 ∧ s.length = 32) ∧
    σ = ⟨r.toNat, s.toNat, 27 + v.toNat⟩

/-- Octets that denote a field element of the STARK curve other than zero. -/
def IsElement (secret : Octets) : Prop :=
  secret.length = 32 ∧ 0 < secret.toNat ∧ secret.toNat < Stark.fieldPrime

variable {secret : Octets}

namespace PrivateKey

/-! ## Section 3: The secret of a key -/

/-- A secret is 32 octets that denote a number other than zero. -/
theorem isValidGeneral_iff_toNat :
    isValidGeneral secret = true ↔ secret.length = 32 ∧ 0 < secret.toNat := by
  rw [isValidGeneral_iff]
  refine and_congr_right fun _ => ⟨Octets.toNat_pos, ?_⟩
  intro hpos
  by_contra hzeros
  push Not at hzeros
  have heq : secret = Octets.zeros secret.length := List.eq_replicate_of_mem hzeros
  rw [heq, Octets.toNat_zeros] at hpos
  exact Nat.lt_irrefl 0 hpos

/-- The window of a new key shows its secret. -/
theorem window_of_ofOctets (hvalid : isValidGeneral secret = true) :
    ofOctets secret = .ok ⟨secret, true⟩ ∧ window ⟨secret, true⟩ = .ok secret := by
  have hkey : ofOctets secret = .ok ⟨secret, true⟩ := ofOctets_eq_ok_iff.mpr ⟨hvalid, rfl⟩
  obtain ⟨hwindow, hshown⟩ := (MadeFrom.made hkey).window_endsAs
  obtain ⟨shown, hok⟩ := hwindow
  rw [hshown shown hok] at hok
  exact ⟨hkey, hok⟩

theorem ofOctets_of_not_valid (hvalid : ¬isValidGeneral secret = true) :
    ofOctets secret = .error .secretShape := by
  rw [ofOctets, if_neg hvalid]

/-- What is signed on secp256k1, without the event that is noted in the end. -/
theorem sign_result_secp256k1 (derivation : Derivation) (key : PrivateKey) (digest : Octets) :
    (key.sign derivation digest (.known .secp256k1)).result =
      key.secp256k1 >>= fun inner =>
        inner.signDigest derivation digest >>= fun σ => passing σ.toOctets := by
  rw [sign_known, Outcome.result_noting, signOn]
  simp only [Outcome.result_bind, Outcome.result_liftM]

/-! ## Section 4: secp256k1 -/

/-- A secret key holds a scalar, which is in range. -/
def HoldsScalar (inner : Secp256k1.SecretKey) (d : Int) : Prop :=
  inner.scalar = d ∧ 0 < d ∧ d < Secp256k1.order

/-- The secret key of secp256k1 holds the scalar of the secret. -/
theorem secp256k1_agree : Agree HoldsScalar (ofOctets secret >>= secp256k1)
    (Secp256k1.scalarOfOctets secret) := by
  by_cases hvalid : isValidGeneral secret = true
  · obtain ⟨hkey, hwindow⟩ := window_of_ofOctets hvalid
    obtain ⟨hlength, hpos⟩ := isValidGeneral_iff_toNat.mp hvalid
    rw [hkey, ok_bind, secp256k1, hwindow, ok_bind,
      Secp256k1.SecretKey.ofOctets_eq hlength hpos, Secp256k1.scalarOfOctets,
      if_neg (not_not_intro hlength)]
    by_cases hrange : secret.toNat < Secp256k1.order
    · rw [if_pos hrange, if_neg (by omega)]
      exact .returned ⟨rfl, by omega, by omega⟩
    · rw [if_neg hrange, if_pos (by omega)]
      exact .refused rfl rfl
  · -- The curve layer refuses the octets as well, for their length or for being zero.
    rw [ofOctets_of_not_valid hvalid, error_bind, Secp256k1.scalarOfOctets]
    rw [isValidGeneral_iff_toNat] at hvalid
    by_cases hlength : secret.length = 32
    · rw [if_neg (not_not_intro hlength), if_pos (by omega)]
      exact .refused rfl rfl
    · rw [if_pos hlength]
      exact .refused rfl rfl

/-- A signature is written on the octets of its scalars and of its recovery id. -/
theorem secp256k1_toOctets_agree {derivation : Derivation} {inner : Secp256k1.SecretKey}
    {digest : Octets} {σ : Secp256k1.Signature}
    (h : inner.signDigest derivation digest = .ok σ) :
    ∃ octets, passing σ.toOctets = .ok octets ∧ IsRecoverable octets { σ with v := 27 + σ.v } := by
  obtain ⟨octets, hwritten⟩ := secp256k1_exists_toOctets h
  obtain ⟨r, s, v, ⟨hrlength, hr⟩, ⟨hslength, hs⟩, hv, hoctets⟩ :=
    Secp256k1.Signature.toOctets_eq_ok_iff.mp (KeyFault.passing_eq_ok_iff.mp hwritten)
  exact ⟨octets, hwritten, r, s, v, hoctets, ⟨hrlength, hslength⟩, by rw [hr, hs, hv]⟩

/-- A scalar signs in the same way on both layers. -/
theorem secp256k1_sign_agree (derivation : Derivation) (digest : Octets)
    {inner : Secp256k1.SecretKey} {d : Int} (h : HoldsScalar inner d) :
    SearchesAgree IsRecoverable
      (inner.signDigest derivation digest >>= fun σ => passing σ.toOctets)
      (Secp256k1.signDerived derivation d digest >>= fun σ => pure { σ with v := 27 + σ.v }) := by
  obtain ⟨rfl, hrange⟩ := h
  by_cases hlength : digest.length = 32
  · -- The key layer lets through what the curve layer answers, limit included.
    have hsigned : inner.signDigest derivation digest =
        passing (Secp256k1.signDerived derivation inner.scalar digest) := by
      rw [Secp256k1.SecretKey.signDigest, Secp256k1.SecretKey.signingHash,
        if_neg (not_not_intro hlength), ok_bind, Secp256k1.SecretKey.sign]
    rcases Secp256k1.signDerived_cases hrange hlength derivation with ⟨σ, hσ⟩ | hlimit
    · rw [hσ, passing_ok] at hsigned
      obtain ⟨octets, hwritten, hsame⟩ := secp256k1_toOctets_agree hsigned
      rw [hsigned, hσ, ok_bind, ok_bind, hwritten]
      exact .inl (.returned hsame)
    · rw [hsigned, hlimit]
      exact .inr ⟨rfl, rfl⟩
  · rw [Secp256k1.SecretKey.signDigest, Secp256k1.SecretKey.signingHash, if_pos hlength,
      Secp256k1.signDerived, Secp256k1.sign, if_pos hlength]
    exact .inl (.refused rfl rfl)

/-- The point of a scalar is written in the same way on both layers, and neither the
    writing nor the reading in between is refused. -/
theorem secp256k1_publicKey_agree (form : Secp256k1.Form) {inner : Secp256k1.SecretKey} {d : Int}
    (h : HoldsScalar inner d) : Agree Eq (inner.publicKey >>= fun key => passing (key.code form))
      (Secp256k1.publicCode form d) := by
  obtain ⟨rfl, hrange⟩ := h
  have hscalar : inner.scalar % Secp256k1.order ≠ 0 := Modular.emod_ne_zero_of_range hrange
  obtain ⟨code, hcode, _⟩ := Secp256k1.exists_publicCode form hscalar
  rw [Secp256k1.SecretKey.publicKey_eq hscalar, ok_bind, Secp256k1.PublicKey.code,
    ← Secp256k1.publicCode_eq, hcode, passing_ok]
  exact .returned rfl

/-- The code of the public point of a secret is the same on both layers. -/
theorem secp256k1_code_agree (form : Secp256k1.Form) :
    Agree Eq (ofOctets secret >>= secp256k1 >>= fun inner =>
        inner.publicKey >>= fun key => passing (key.code form))
      (Secp256k1.publicCodeOfSecret form secret) := by
  refine secp256k1_agree.bind ?_
  intro inner d h
  exact secp256k1_publicKey_agree form h

/-! ## Section 5: The STARK curve -/

/-- The secret key of the STARK curve holds the number of the secret. -/
theorem starkex_of_isElement (h : IsElement secret) :
    ofOctets secret >>= starkex = .ok ⟨secret.toNat⟩ := by
  obtain ⟨hlength, hpos, hrange⟩ := h
  obtain ⟨hkey, hwindow⟩ := window_of_ofOctets (isValidGeneral_iff_toNat.mpr ⟨hlength, hpos⟩)
  rw [hkey, ok_bind, starkex, hwindow, ok_bind, Stark.SecretKey.ofOctets_eq hlength, if_pos hrange]

/-- Other octets are refused, either as a secret or as a field element. -/
theorem starkex_of_not_isElement (h : ¬IsElement secret) :
    ∃ fault, ofOctets secret >>= starkex = .error fault ∧ fault.category = .secretKey := by
  by_cases hvalid : isValidGeneral secret = true
  · obtain ⟨hkey, hwindow⟩ := window_of_ofOctets hvalid
    obtain ⟨hlength, hpos⟩ := isValidGeneral_iff_toNat.mp hvalid
    have hrange : ¬secret.toNat < Stark.fieldPrime := fun hlt => h ⟨hlength, hpos, hlt⟩
    rw [hkey, ok_bind, starkex, hwindow, ok_bind, Stark.SecretKey.ofOctets_eq hlength,
      if_neg hrange]
    exact ⟨_, rfl, rfl⟩
  · rw [ofOctets_of_not_valid hvalid]
    exact ⟨_, rfl, rfl⟩

/-- The abscissa of a number is written in the same way on both layers, and there is none
    for the multiples of the order. -/
theorem starkex_publicKey_agree (v : Int) :
    Agree Eq ((⟨v⟩ : Stark.SecretKey).publicKey >>= fun key => passing key.toOctets)
      (abscissaOctets v) := by
  by_cases hmultiple : v % Stark.order = 0
  · have hdvd : (Stark.order : Int) ∣ v := Int.dvd_of_emod_eq_zero hmultiple
    rw [abscissaOctets, Stark.SecretKey.publicKey, Stark.publicAbscissa_of_dvd hdvd]
    exact .refused rfl rfl
  · obtain ⟨q, hq, habscissa⟩ := Stark.exists_publicAbscissa hmultiple
    have hcurve : Stark.OnCurve ⟨(Stark.PublicKey.mk q.x).x, q.y⟩ := Stark.onCurve_iff.mpr ⟨_, hq⟩
    obtain ⟨octets, hwritten, _⟩ := Stark.PublicKey.exists_octets hcurve
    have hoctets : FixedWidth.write 32 q.x = .ok octets := hwritten
    rw [Stark.SecretKey.publicKey, abscissaOctets, habscissa, refusing_ok, ok_bind, ok_bind,
      pure_eq_ok, ok_bind, hwritten, passing_ok, hoctets]
    exact .returned rfl

end PrivateKey

/-! ## Section 6: Both layers -/

/-- The type of a public key matters for how its point is written. -/
theorem publicOctetsOf_eq (type : KeyType) (secret : Octets) :
    publicOctetsOf type secret = match type with
      | .secp256k1 => PrivateKey.ofOctets secret >>= PrivateKey.secp256k1 >>= fun inner =>
          inner.publicKey >>= fun key => passing (key.code .compressed)
      | .secp256k1Extended => PrivateKey.ofOctets secret >>= PrivateKey.secp256k1 >>= fun inner =>
          inner.publicKey >>= fun key => passing (key.code .uncompressed)
      | .starkex => PrivateKey.ofOctets secret >>= PrivateKey.starkex >>= fun inner =>
          inner.publicKey >>= fun key => passing key.toOctets := by
  cases type <;>
  · unfold publicOctetsOf
    simp only [PrivateKey.publicKey_known, Outcome.result_noting, Outcome.result_liftM,
      PrivateKey.publicKeyOf, bind_assoc, pure_bind]
    rfl

/-- Whatever the octets, a key that is made from them signs and has public keys as the
    curve does with the octets themselves: both are refused, or both have values and the
    key layer writes those of the curve layer. On the STARK curve, which works with numbers,
    the octets have to denote a field element other than zero. -/
theorem layers_agree (derivation : Derivation) (secret digest : Octets) :
    SearchesAgree IsRecoverable (signatureOf derivation secret digest)
        (Secp256k1.signRecoverable derivation secret digest) ∧
      Agree Eq (publicOctetsOf .secp256k1 secret)
        (Secp256k1.publicCodeOfSecret .compressed secret) ∧
      Agree Eq (publicOctetsOf .secp256k1Extended secret)
        (Secp256k1.publicCodeOfSecret .uncompressed secret) ∧
      (IsElement secret →
        Agree Eq (publicOctetsOf .starkex secret) (abscissaOctets secret.toNat)) ∧
      (¬IsElement secret → ∃ fault, publicOctetsOf .starkex secret = .error fault ∧
        fault.category.isA .value = true) := by
  refine ⟨?sign, ?compressed, ?uncompressed, ?element, ?refused⟩
  case sign =>
    unfold signatureOf
    simp only [PrivateKey.sign_result_secp256k1]
    rw [← bind_assoc (x := PrivateKey.ofOctets secret)]
    refine PrivateKey.secp256k1_agree.bind_search ?_
    intro inner d h
    exact PrivateKey.secp256k1_sign_agree derivation digest h
  case compressed =>
    rw [publicOctetsOf_eq]
    exact PrivateKey.secp256k1_code_agree .compressed
  case uncompressed =>
    rw [publicOctetsOf_eq]
    exact PrivateKey.secp256k1_code_agree .uncompressed
  case element =>
    intro h
    rw [publicOctetsOf_eq]
    dsimp only
    rw [PrivateKey.starkex_of_isElement h, ok_bind]
    exact PrivateKey.starkex_publicKey_agree secret.toNat
  case refused =>
    intro h
    obtain ⟨fault, hfault, hcategory⟩ := PrivateKey.starkex_of_not_isElement h
    rw [publicOctetsOf_eq]
    dsimp only
    rw [hfault]
    exact ⟨fault, rfl, by rw [hcategory]; decide⟩

/-- With the secret 1 both layers give out the abscissa of the generator. -/
theorem layers_agree_secret_one :
    let secret := Octets.ofNat 32 1
    let octets :=
      Octets.ofNat 32 0x01ef15c18599971b7beced415a40f0c7deacfd9b0d1819e03d723d8bc943cfca;
    IsElement secret ∧ abscissaOctets secret.toNat = .ok octets ∧
      publicOctetsOf .starkex secret = .ok octets := by
  intro secret octets
  have helement : IsElement secret := ⟨by decide, by decide, by decide⟩
  have hcurve : abscissaOctets secret.toNat = .ok octets := by decide +kernel
  have hagree := (layers_agree .standard secret []).2.2.2.1 helement
  rw [hcurve] at hagree
  exact ⟨helement, hcurve, hagree.eq_of_ok⟩

end WalletKeys
