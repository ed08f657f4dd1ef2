import WalletKeys.Key.Public
import WalletKeys.Proofs.Key.Secp256k1
import WalletKeys.Proofs.Key.Stark

/-! # Public keys and their octets

    A public key of any type is read from exactly the octets that its type gives to
    a point of its curve (`IsEncoding`), and what is read is written in the same way
    again. So a key has one encoding of each type, and no octets outside of that are
    taken for a key: they are refused, always as a bad public key.

    `ofOctets_cases` says both halves at once, for one string of octets.
-/

namespace WalletKeys

namespace PublicKey

/-! ## Section 1: Keys on their curve -/

/-- The key names a point of its curve. -/
def OnCurve : PublicKey → Prop
  | secp256k1 key | secp256k1Extended key => Secp256k1.OnCurve key.point
  | starkex key => ∃ y, Stark.OnCurve ⟨key.x, y⟩

theorem pointOfOctets_of_length {type : KeyType} {octets : Octets} {key : Secp256k1.PublicKey}
    (hlength : octets.length = type.length) (h : Secp256k1.PublicKey.ofOctets octets = .ok key) :
    pointOfOctets type octets = .ok key := by
  rw [pointOfOctets, if_neg (not_not_intro hlength), h]

/-- A key on its curve is read back from its octets. -/
theorem exists_octets {key : PublicKey} (h : key.OnCurve) :
    ∃ octets, key.toOctets = .ok octets ∧ ofOctets octets (.known key.type) = .ok key := by
  cases key with
  | secp256k1 key =>
    obtain ⟨octets, hcode, hlength, hread⟩ := Secp256k1.PublicKey.exists_code .compressed h
    refine ⟨octets, hcode, ?_⟩
    rw [type, ofOctets, pointOfOctets_of_length hlength hread]
    rfl
  | secp256k1Extended key =>
    obtain ⟨octets, hcode, hlength, hread⟩ := Secp256k1.PublicKey.exists_code .uncompressed h
    refine ⟨octets, hcode, ?_⟩
    rw [type, ofOctets, pointOfOctets_of_length hlength hread]
    rfl
  | starkex key =>
    obtain ⟨y, hy⟩ := h
    obtain ⟨octets, hwrite, _, hread⟩ := Stark.PublicKey.exists_octets hy
    refine ⟨octets, hwrite, ?_⟩
    rw [type, ofOctets, hread]
    rfl

/-- Verification gives the answer of the check. -/
theorem verify_of_check {key : PublicKey} {signature digest : Octets} {answer : Bool}
    (h : key.check signature digest = .ok answer) :
    key.verify signature digest = .ok answer := by
  rw [verify, h]

/-- A fault about keys, messages or signatures is answered with no. -/
theorem verify_of_check_error {key : PublicKey} {signature digest : Octets} {fault : KeyFault}
    (h : key.check signature digest = .error fault)
    (hfault : fault.category.isA .keypair = true) : key.verify signature digest = .ok false := by
  rw [verify, h]
  exact if_pos hfault

/-! ## Section 2: Encodings -/

/-- The octets are what a type gives to a point of its curve: one of the two codes, or
    the abscissa on 32 octets. -/
def IsEncoding : KeyType → Octets → Prop
  | .secp256k1, octets => ∃ p, Secp256k1.OnCurve p ∧ Secp256k1.IsCode p .compressed octets
  | .secp256k1Extended, octets =>
    ∃ p, Secp256k1.OnCurve p ∧ Secp256k1.IsCode p .uncompressed octets
  | .starkex, octets => ∃ p, Stark.OnCurve p ∧ octets.length = 32 ∧ p.x = octets.toNat

theorem IsEncoding.length_eq {type : KeyType} {octets : Octets} (h : IsEncoding type octets) :
    octets.length = type.length := by
  cases type with
  | secp256k1 =>
    obtain ⟨_, _, hcode⟩ := h
    exact hcode.length_eq
  | secp256k1Extended =>
    obtain ⟨_, _, hcode⟩ := h
    exact hcode.length_eq
  | starkex =>
    obtain ⟨_, _, hlength, _⟩ := h
    exact hlength

/-- A type with the length of a form reads the codes of that form and refuses all else. -/
theorem pointOfOctets_cases (type : KeyType) (form : Secp256k1.Form)
    (htype : type.length = form.length) (octets : Octets) :
    ((∃ p, Secp256k1.OnCurve p ∧ Secp256k1.IsCode p form octets) ∧
        ∃ key, pointOfOctets type octets = .ok key ∧ Secp256k1.OnCurve key.point ∧
          key.code form = .ok octets) ∨
      (¬∃ p, Secp256k1.OnCurve p ∧ Secp256k1.IsCode p form octets) ∧
        ∃ fault, pointOfOctets type octets = .error fault ∧ fault.category = .publicKey := by
  by_cases hlength : octets.length = type.length
  · rw [pointOfOctets, if_neg (not_not_intro hlength)]
    rcases Secp256k1.PublicKey.ofOctets_cases octets with
      ⟨key, form', hread, hcurve, hcode⟩ | ⟨hrefused, hnone⟩
    · -- The length leaves one form for the code that was read.
      obtain rfl : form' = form :=
        Secp256k1.Form.eq_of_length_eq (hcode.length_eq.symm.trans (hlength.trans htype))
      exact .inl ⟨⟨key.point, hcurve, hcode⟩, key, hread, hcurve,
        Secp256k1.encode_eq_ok_iff.mpr hcode⟩
    · refine .inr ⟨?_, hrefused⟩
      rintro ⟨p, hp, hcode⟩
      exact hnone form p hp hcode
  · -- Octets of another length are no code of the form either.
    rw [pointOfOctets, if_pos hlength]
    refine .inr ⟨?_, _, rfl, rfl⟩
    rintro ⟨p, hp, hcode⟩
    exact hlength (hcode.length_eq.trans htype.symm)

/-- The octets of a type's encoding are read as a key that is written in the same way,
    and other octets are refused as a bad public key. -/
theorem ofOctets_cases (type : KeyType) (octets : Octets) :
    (IsEncoding type octets ∧ ∃ key, ofOctets octets (.known type) = .ok key ∧
        key.type = type ∧ key.OnCurve ∧ key.toOctets = .ok octets) ∨
      ¬IsEncoding type octets ∧
        ∃ fault, ofOctets octets (.known type) = .error fault ∧ fault.category = .publicKey := by
  cases type with
  | secp256k1 =>
    rcases pointOfOctets_cases .secp256k1 .compressed rfl octets with
      ⟨hcode, key, hread, hcurve, hwrite⟩ | ⟨hnone, fault, hrefused, hfault⟩
    · refine .inl ⟨hcode, .secp256k1 key, ?_, rfl, hcurve, hwrite⟩
      rw [ofOctets, hread, ok_bind, pure_eq_ok]
    · refine .inr ⟨hnone, fault, ?_, hfault⟩
      rw [ofOctets, hrefused, error_bind]
  | secp256k1Extended =>
    rcases pointOfOctets_cases .secp256k1Extended .uncompressed rfl octets with
      ⟨hcode, key, hread, hcurve, hwrite⟩ | ⟨hnone, fault, hrefused, hfault⟩
    · refine .inl ⟨hcode, .secp256k1Extended key, ?_, rfl, hcurve, hwrite⟩
      rw [ofOctets, hread, ok_bind, pure_eq_ok]
    · refine .inr ⟨hnone, fault, ?_, hfault⟩
      rw [ofOctets, hrefused, error_bind]
  | starkex =>
    rcases Stark.PublicKey.ofOctets_cases octets with
      ⟨key, y, hread, hcurve, hwrite⟩ | ⟨⟨fault, hrefused, hfault⟩, hnone⟩
    · refine .inl ⟨⟨_, hcurve, FixedWidth.write_eq_ok_iff.mp hwrite⟩, .starkex key, ?_, rfl,
        ⟨y, hcurve⟩, hwrite⟩
      rw [ofOctets, hread, ok_bind, pure_eq_ok]
    · refine .inr ⟨?_, fault, ?_, hfault⟩
      · rintro ⟨p, hp, hcode⟩
        exact hnone p hp hcode
      · rw [ofOctets, hrefused, error_bind]

/-! ## Section 3: Codecs -/

/-- Reading and writing of keys undo each other, and what is read are the encodings of
    curve points and nothing else. A code follows the rule of its format, each point of
    the curve is read back from both of its codes, and a code that is read is one of
    them. A key of any type is read exactly from the encodings of that type, each of
    which is written again for the key, and other octets are refused as a bad public
    key. -/
theorem codecs_exact :
    (∀ form p, Secp256k1.OnCurve p → ∃ code, Secp256k1.encode form p = .ok code ∧
        Secp256k1.IsCode p form code ∧ Secp256k1.decode code = .ok p) ∧
      (∀ code, (∃ p, Secp256k1.decode code = .ok p) ↔
        ∃ form p, Secp256k1.OnCurve p ∧ Secp256k1.encode form p = .ok code ∧
          code.length = form.length) ∧
      (∀ code p, Secp256k1.decode code = .ok p →
        ∃ form, code.length = form.length ∧ Secp256k1.encode form p = .ok code) ∧
      ∀ type octets,
        ((∃ key, ofOctets octets (.known type) = .ok key ∧ key.type = type ∧
            key.toOctets = .ok octets) ∨
          ∃ fault, ofOctets octets (.known type) = .error fault ∧ fault.category = .publicKey) ∧
        ((∃ key, ofOctets octets (.known type) = .ok key) ↔
          octets.length = type.length ∧ IsEncoding type octets) := by
  refine ⟨?_, ?_, ?_, ?_⟩
  · intro form p hp
    obtain ⟨code, hcode⟩ := Secp256k1.exists_encode form hp
    exact ⟨code, hcode, Secp256k1.encode_eq_ok_iff.mp hcode, Secp256k1.decode_of_encode hp hcode⟩
  · intro code
    constructor
    · rintro ⟨p, h⟩
      obtain ⟨hp, form, hcode⟩ := Secp256k1.encode_of_decode h
      exact ⟨form, p, hp, hcode, Secp256k1.length_of_encode hcode⟩
    · rintro ⟨form, p, hp, hcode, _⟩
      exact ⟨p, Secp256k1.decode_of_encode hp hcode⟩
  · intro code p h
    obtain ⟨_, form, hcode⟩ := Secp256k1.encode_of_decode h
    exact ⟨form, Secp256k1.length_of_encode hcode, hcode⟩
  · intro type octets
    rcases ofOctets_cases type octets with
      ⟨hencoding, key, hread, htype, _, hwrite⟩ | ⟨hnone, fault, hrefused, hfault⟩
    · refine ⟨.inl ⟨key, hread, htype, hwrite⟩, ?_⟩
      exact iff_of_true ⟨key, hread⟩ ⟨hencoding.length_eq, hencoding⟩
    · refine ⟨.inr ⟨fault, hrefused, hfault⟩, iff_of_false ?_ fun h => hnone h.2⟩
      rintro ⟨key, hread⟩
      rw [hrefused] at hread
      cases hread

/-- The point with the abscissa one and the odd one of the two ordinates. Its codes have
    leading zeros. -/
theorem codecs_exact_odd_ordinate :
    let p : Geometry.Affine :=
      ⟨1, 0xbde70df51939b94c9c24979fa7dd04ebd9b3572da7802290438af2a681895441⟩
    let code : Octets := 3 :: Octets.ofNat 32 1;
    Secp256k1.OnCurve p ∧ Secp256k1.decode code = .ok p ∧
      (∀ form, ∃ code, Secp256k1.encode form p = .ok code ∧
        Secp256k1.IsCode p form code ∧ Secp256k1.decode code = .ok p) ∧
      ∃ form, code.length = form.length ∧ Secp256k1.encode form p = .ok code := by
  intro p code
  have hp : Secp256k1.OnCurve p := by decide +kernel
  have hcode : Secp256k1.decode code = .ok p := by decide +kernel
  obtain ⟨hwritten, _, hread, _⟩ := codecs_exact
  exact ⟨hp, hcode, fun form => hwritten form p hp, hread code p hcode⟩

end PublicKey

end WalletKeys
