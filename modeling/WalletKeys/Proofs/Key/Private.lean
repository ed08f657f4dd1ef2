import WalletKeys.Key.Private
import WalletKeys.Proofs.Key.Public

/-! # What a private key signs, its public keys verify

    The statement at the outside of the library (`verify_of_sign`), for octets of
    secrets, digests, signatures and keys. It is put together from what the curves
    guarantee: signing leads back to the public point, the codecs lose nothing of a
    signature in range or of a key on its curve, and the verifier looks at nothing
    else.
-/

namespace WalletKeys

open WalletKeys.Geometry
open WalletKeys.Nonce (Derivation)
open KeyFault (refusing passing_eq_ok_iff passing_ok)

/-! ## Signatures -/

/-- Some octets are the signature of a curve that a signer makes: they have the length
    of a signature, they are read as one in the range of a signer, and that is written
    in the same way again. -/
def IsSigned : Curve → Octets → Prop
  | .secp256k1, octets => octets.length = 65 ∧ ∃ σ, Secp256k1.Signature.ofOctets octets = .ok σ ∧
      σ.toOctets = .ok octets ∧ (0 < σ.r ∧ σ.r < Secp256k1.order) ∧
        (0 < σ.s ∧ σ.s ≤ Secp256k1.order / 2) ∧ (0 ≤ σ.v ∧ σ.v ≤ 3)
  | .starkex, octets => octets.length = 64 ∧ ∃ σ, Stark.Signature.ofOctets octets = .ok σ ∧
      σ.toOctets = .ok octets ∧ Stark.Usable σ.r ∧ Stark.Usable σ.s

namespace PrivateKey

variable {derivation : Derivation} {key : PrivateKey} {digest signature : Octets}

/-- What is noted of a signature is its curve and its length. -/
theorem sign_known (derivation : Derivation) (key : PrivateKey) (digest : Octets)
    (curve : Curve) :
    key.sign derivation digest (.known curve) =
      (key.signOn derivation digest curve).noting fun signature =>
        .signed curve signature.length := rfl

/-- What is noted of a public key is its type. -/
theorem publicKey_known (key : PrivateKey) (type : KeyType) :
    key.publicKey (.known type) =
      Outcome.noting (fun _ => .derived type) (liftM (key.publicKeyOf type)) := rfl

theorem sign_result_eq_ok_iff {curve : Curve} :
    (key.sign derivation digest (.known curve)).result = .ok signature ↔
      (key.signOn derivation digest curve).result = .ok signature := by
  unfold sign
  simp only [Outcome.result_bind_eq_ok_iff, Outcome.result_note, Outcome.result_pure,
    Except.ok.injEq]
  constructor
  · intro hall
    obtain ⟨_, h, _, _, rfl⟩ := hall
    exact h
  · intro h
    exact ⟨signature, h, (), trivial, rfl⟩

theorem publicKey_result_eq_ok_iff {type : KeyType} {derived : PublicKey} :
    (key.publicKey (.known type)).result = .ok derived ↔ key.publicKeyOf type = .ok derived := by
  unfold publicKey
  simp only [Outcome.result_bind_eq_ok_iff, Outcome.result_liftM, Outcome.result_note,
    Outcome.result_pure, Except.ok.injEq]
  constructor
  · intro hall
    obtain ⟨_, h, _, _, rfl⟩ := hall
    exact h
  · intro h
    exact ⟨derived, h, (), trivial, rfl⟩

/-- A signature on secp256k1 is one that a signer makes, and it is accepted by the
    public point of the secret, which lies on the curve. -/
theorem signed_on_secp256k1
    (h : (key.signOn derivation digest .secp256k1).result = .ok signature) :
    IsSigned .secp256k1 signature ∧ ∃ secret inner, key.secp256k1 = .ok secret ∧
      secret.publicKey = .ok inner ∧ Secp256k1.OnCurve inner.point ∧
        (PublicKey.secp256k1 inner).check signature digest = .ok true := by
  unfold signOn at h
  simp only [Outcome.result_bind_eq_ok_iff, Outcome.result_liftM, passing_eq_ok_iff] at h
  obtain ⟨secret, hsecret, σ, hsign, hwrite⟩ := h
  obtain ⟨hlength, hlow, R, hrec⟩ := Secp256k1.SecretKey.recovers_of_signDigest hsign
  obtain ⟨hsize, hread⟩ :=
    Secp256k1.Signature.ofOctets_of_toOctets hrec.scalars hrec.idRange.2 hwrite
  -- What is read as a secret is reduced and not zero.
  have hscalar : secret.scalar % Secp256k1.order ≠ 0 := by
    obtain ⟨_, _, hread⟩ := bind_eq_ok_iff.mp hsecret
    exact Modular.emod_ne_zero_of_range (Secp256k1.SecretKey.scalar_range hread)
  have hQ := Secp256k1.zsmul_base_ne_zero hscalar
  refine ⟨⟨hsize, σ, hread, hwrite, hrec.scalars.1, ⟨hrec.scalars.2.1, hlow⟩, hrec.idRange⟩,
    secret, _, hsecret, Secp256k1.SecretKey.publicKey_eq hscalar,
    Secp256k1.onCurve_coordinates hQ, ?_⟩
  have hverify := (Secp256k1.PublicKey.verify_eq_true_iff hQ).mpr
    ⟨hlength, hrec.scalars, R, hrec.fits⟩
  rw [PublicKey.check, hread, ok_bind, Secp256k1.SecretKey.signingHash,
    if_neg (not_not_intro hlength), ok_bind, hverify, passing_ok]

/-- The same on the STARK curve. -/
theorem signed_on_starkex
    (h : (key.signOn derivation digest .starkex).result = .ok signature) :
    IsSigned .starkex signature ∧ ∃ secret inner, key.starkex = .ok secret ∧
      secret.publicKey = .ok inner ∧ (∃ y, Stark.OnCurve ⟨inner.x, y⟩) ∧
        (PublicKey.starkex inner).check signature digest = .ok true := by
  unfold signOn at h
  simp only [Outcome.result_bind_eq_ok_iff, Outcome.result_liftM, passing_eq_ok_iff] at h
  obtain ⟨secret, hsecret, σ, hsign, hwrite⟩ := h
  obtain ⟨hash, hdigest, hhash, helement, hr, hs, R, hfits⟩ :=
    Stark.SecretKey.fits_of_signDigest hsign
  obtain ⟨hsize, hread⟩ :=
    Stark.Signature.ofOctets_of_toOctets hr.lt_fieldPrime hs.lt_fieldPrime hwrite
  obtain ⟨q, hq, hpublic⟩ := Stark.SecretKey.exists_publicKey helement
  refine ⟨⟨hsize, σ, hread, hwrite, hr, hs⟩, secret, _, hsecret, hpublic,
    ⟨q.y, Stark.onCurve_iff.mpr ⟨_, hq⟩⟩, ?_⟩
  rw [PublicKey.check, hread, ok_bind, hdigest, ok_bind, pure_eq_ok, Stark.PublicKey.verify,
    Stark.verify_of_fits hq hhash hr hs hfits]

/-- Whatever a private key signs is a signature of its curve, the public key of each
    type of that curve exists and accepts it, and so does the key that is read back
    from the octets of that public key. -/
theorem verify_of_sign {type : KeyType}
    (h : (key.sign derivation digest (.known type.curve)).result = .ok signature) :
    IsSigned type.curve signature ∧
      ∃ derived, (key.publicKey (.known type)).result = .ok derived ∧
        derived.verify signature digest = .ok true ∧
        ∃ octets parsed, derived.toOctets = .ok octets ∧
          PublicKey.ofOctets octets (.known type) = .ok parsed ∧
            parsed.verify signature digest = .ok true := by
  rw [sign_result_eq_ok_iff] at h
  -- For each type there is a key on the curve that accepts. The octets of such a key are
  -- read as the same key, so there is nothing else to show for the parsed one.
  have hderived : IsSigned type.curve signature ∧ ∃ derived, key.publicKeyOf type = .ok derived ∧
      derived.type = type ∧ derived.OnCurve ∧ derived.check signature digest = .ok true := by
    cases type with
    | secp256k1 =>
      obtain ⟨hsigned, secret, inner, hsecret, hpublic, hcurve, hcheck⟩ := signed_on_secp256k1 h
      refine ⟨hsigned, .secp256k1 inner, ?_, rfl, hcurve, hcheck⟩
      rw [publicKeyOf, hsecret, ok_bind, hpublic, ok_bind, pure_eq_ok]
    | secp256k1Extended =>
      obtain ⟨hsigned, secret, inner, hsecret, hpublic, hcurve, hcheck⟩ := signed_on_secp256k1 h
      refine ⟨hsigned, .secp256k1Extended inner, ?_, rfl, hcurve, hcheck⟩
      rw [publicKeyOf, hsecret, ok_bind, hpublic, ok_bind, pure_eq_ok]
    | starkex =>
      obtain ⟨hsigned, secret, inner, hsecret, hpublic, hcurve, hcheck⟩ := signed_on_starkex h
      refine ⟨hsigned, .starkex inner, ?_, rfl, hcurve, hcheck⟩
      rw [publicKeyOf, hsecret, ok_bind, hpublic, ok_bind, pure_eq_ok]
  obtain ⟨hsigned, derived, hpublic, htype, hcurve, hcheck⟩ := hderived
  obtain ⟨octets, hwrite, hread⟩ := PublicKey.exists_octets hcurve
  have hverify := PublicKey.verify_of_check hcheck
  rw [htype] at hread
  exact ⟨hsigned, derived, publicKey_result_eq_ok_iff.mpr hpublic, hverify, octets, derived, hwrite,
    hread, hverify⟩

/-- With tags that are always the same the nonce is 16 on secp256k1 and 1 on the STARK
    curve. The secret is one that the STARK curve accepts beyond its order. -/
theorem verify_of_sign_constant_tag :
    let derivation : Derivation :=
      ⟨⟨32, by decide, fun _ _ => Octets.ofNat 32 16, fun _ _ => Octets.length_ofNat 32 16⟩, 1⟩
    let secret := Octets.ofNat 32 (Stark.order + 5)
    let digest : Octets := List.replicate 32 1;
    (Stark.order < secret.toNat ∧ secret.toNat < Stark.fieldPrime) ∧
      ∃ key, PrivateKey.ofOctets secret = .ok key ∧
        ∀ type : KeyType, ∃ signature,
          (key.sign derivation digest (.known type.curve)).result = .ok signature ∧
            ∃ derived, (key.publicKey (.known type)).result = .ok derived ∧
              derived.verify signature digest = .ok true := by
  intro derivation secret digest
  refine ⟨by decide +kernel, ⟨secret, true⟩, by decide +kernel, ?_⟩
  intro type
  have hsign : ∃ signature, ((⟨secret, true⟩ : PrivateKey).sign derivation digest
      (.known type.curve)).result = .ok signature := by
    cases type.curve with
    | secp256k1 =>
      exact ⟨Octets.ofNat 32 0xe60fce93b59e9ec53011aabc21c23e97b2a31369b87a5ae9c44ee89e2a6dec0a ++
        Octets.ofNat 32 0x65cb9175c703c14d23802350957a72ba104bdef1fdce97c1041fccd57f4dec87 ++ [1],
        by decide +kernel⟩
    | starkex =>
      exact ⟨Octets.ofNat 32 0x1ef15c18599971b7beced415a40f0c7deacfd9b0d1819e03d723d8bc943cfca ++
        Octets.ofNat 32 0x02ac6dc89d00f4796ca1a347c445b4e8a2e0e29a7791d03015d5927a418dc2c4,
        by decide +kernel⟩
  obtain ⟨signature, hsigned⟩ := hsign
  obtain ⟨_, derived, hpublic, hverify, _⟩ := verify_of_sign hsigned
  exact ⟨signature, hsigned, derived, hpublic, hverify⟩

end PrivateKey

end WalletKeys
