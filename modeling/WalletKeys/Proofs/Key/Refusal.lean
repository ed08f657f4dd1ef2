import WalletKeys.Proofs.Key.Private
import WalletKeys.Proofs.Secp256k1.Nonce
import WalletKeys.Proofs.Stark.Nonce

/-! # When the use of a private key is refused

    To sign and to derive a public key are refused for the reasons on one list, and the
    first reason that applies is the one that is reported: a choice that names nothing,
    a closed key, a secret that the curve does not accept, a digest that it does not
    sign, and a secret without a public point. The list is put down here as data, with
    the branch of the taxonomy and the sentence of every entry, and without reference to
    the faults of the library (`signRefusal?`, `publicKeyRefusal?`).

    Where no entry applies there is a signature or a public key. The only thing in the
    way of a signature is then the limit of the derivation, at which the search for a
    nonce is given up.
-/

namespace WalletKeys

open WalletKeys.Nonce (Derivation)
open KeyFault (refusing passing passing_ok passing_eq_refusing)

/-! ## Section 1: Refusals -/

/-- How a fault is reported. -/
structure Refusal where
  category : Category
  message : String
  deriving DecidableEq

/-- The report of a fault. -/
def KeyFault.refusal (fault : KeyFault) : Refusal := ⟨fault.category, fault.message⟩

/-- A computation is refused as expected, and has a value if no refusal is expected. -/
def EndsAs {α : Type} (expected : Option Refusal) (result : Except KeyFault α) : Prop :=
  match expected with
  | some refusal => ∃ fault, result = .error fault ∧ fault.refusal = refusal
  | none => ∃ value, result = .ok value

/-- The same of a computation that searches for a nonce: if no refusal is expected, the
    search may also be given up at its limit. -/
def SearchEndsAs {α : Type} (expected : Option Refusal) (result : Except KeyFault α) : Prop :=
  EndsAs expected result ∨ expected = none ∧ result = .error (.curve .undecided)

theorem EndsAs.exists_ok_iff {α : Type} {expected : Option Refusal} {result : Except KeyFault α}
    (h : EndsAs expected result) : (∃ value, result = .ok value) ↔ expected = none := by
  cases expected with
  | some refusal =>
    obtain ⟨fault, rfl, _⟩ := h
    exact iff_of_false nofun nofun
  | none => exact iff_of_true h rfl

/-- A search that is expected to be refused does not reach its limit. -/
theorem SearchEndsAs.endsAs {α : Type} {refusal : Refusal} {result : Except KeyFault α}
    (h : SearchEndsAs (some refusal) result) : EndsAs (some refusal) result := by
  rcases h with h | ⟨hnone, _⟩
  · exact h
  · cases hnone

/-- The limit of a search is not restated as anything else. -/
theorem SearchEndsAs.of_refusing {α : Type} (restated : CurveFault → KeyFault)
    {result : Except CurveFault α}
    (h : (∃ value, result = .ok value) ∨ result = .error .undecided) :
    SearchEndsAs none (refusing restated result) := by
  rcases h with ⟨value, rfl⟩ | rfl
  · exact .inl ⟨value, rfl⟩
  · exact .inr ⟨rfl, rfl⟩

section Sequence

variable {α β : Type} {first second expected : Option Refusal} {x : Except KeyFault α}
  {f : α → Except KeyFault β}

/-- Of two parts the second one matters if the first one has a value. -/
theorem EndsAs.bind (hx : EndsAs first x) (hf : ∀ a, x = .ok a → EndsAs second (f a)) :
    EndsAs (first.or second) (x >>= f) := by
  cases first with
  | some refusal =>
    obtain ⟨fault, rfl, hfault⟩ := hx
    exact ⟨fault, rfl, hfault⟩
  | none =>
    obtain ⟨a, rfl⟩ := hx
    exact hf a rfl

theorem EndsAs.bind_search (hx : EndsAs first x)
    (hf : ∀ a, x = .ok a → SearchEndsAs second (f a)) :
    SearchEndsAs (first.or second) (x >>= f) := by
  cases first with
  | some refusal =>
    obtain ⟨fault, rfl, hfault⟩ := hx
    exact .inl ⟨fault, rfl, hfault⟩
  | none =>
    obtain ⟨a, rfl⟩ := hx
    exact hf a rfl

/-- A second part that is never refused makes no difference. -/
theorem EndsAs.bind_value (hx : EndsAs expected x) (hf : ∀ a, x = .ok a → ∃ b, f a = .ok b) :
    EndsAs expected (x >>= f) := by
  have hvalue : ∀ a, x = .ok a → EndsAs none (f a) := hf
  have h := hx.bind hvalue
  rwa [Option.or_none] at h

theorem SearchEndsAs.bind_value (hx : SearchEndsAs expected x)
    (hf : ∀ a, x = .ok a → ∃ b, f a = .ok b) : SearchEndsAs expected (x >>= f) := by
  rcases hx with hx | ⟨rfl, rfl⟩
  · exact .inl (hx.bind_value hf)
  · exact .inr ⟨rfl, rfl⟩

end Sequence

namespace PrivateKey

/-! ## Section 2: The list -/

/-- A closed key is of no use. -/
def closedRefusal? (isOpen : Bool) : Option Refusal :=
  if isOpen then none else some ⟨.value, "private key is closed"⟩

/-- Each curve accepts the secrets below a number of its own. -/
def secretRefusal? (v : Nat) : Curve → Option Refusal
  | .secp256k1 => if v < Secp256k1.order then none else some ⟨.secretKey, "invalid privkey"⟩
  | .starkex =>
    if v < Stark.fieldPrime then none else some ⟨.secretKey, "field element out of range"⟩

/-- Digests have 32 octets, and those of the STARK curve no more than 251 bits. -/
def digestRefusal? (digest : Octets) (curve : Curve) : Option Refusal :=
  if digest.length ≠ 32 then
    some ⟨.signMessage, "hash must be 32 bytes, got " ++ toString digest.length⟩
  else if curve = .starkex ∧ 2 ^ 251 ≤ digest.toNat then
    some ⟨.signMessage, "hash must be below 2^251"⟩
  else none

/-- How a secret without a public point is reported. -/
def orderRefusal : Refusal := ⟨.secretKey, "private key is a multiple of the curve order"⟩

/-- The order of the STARK curve is a field element, but has no public point. -/
def pointRefusal? (v : Nat) : Curve → Option Refusal
  | .secp256k1 => none
  | .starkex => if v = Stark.order then some orderRefusal else none

/-- Why a key that was made from the number `v` does not sign a digest. -/
def signRefusal? (isOpen : Bool) (v : Nat) (digest : Octets) : Selector Curve → Option Refusal
  | .unknown given => some ⟨.value, "unsupported curve: " ++ given.shown⟩
  | .known curve =>
    (closedRefusal? isOpen).or <| (secretRefusal? v curve).or <|
      (digestRefusal? digest curve).or (pointRefusal? v curve)

/-- Why a key that was made from the number `v` has no public key. -/
def publicKeyRefusal? (isOpen : Bool) (v : Nat) : Selector KeyType → Option Refusal
  | .unknown given => some ⟨.value, "unsupported public key type: " ++ given.shown⟩
  | .known type =>
    (closedRefusal? isOpen).or <| (secretRefusal? v type.curve).or (pointRefusal? v type.curve)

/-! ## Section 3: The states of a key -/

/-- A key that was made from a secret, and closed any number of times since. -/
inductive MadeFrom (secret : Octets) : PrivateKey → Prop
  | made {key : PrivateKey} (h : ofOctets secret = .ok key) : MadeFrom secret key
  | closed {key : PrivateKey} (h : MadeFrom secret key) : MadeFrom secret key.close

variable {secret digest : Octets} {key : PrivateKey}

theorem MadeFrom.isValidGeneral (h : MadeFrom secret key) : isValidGeneral secret = true := by
  induction h with
  | made h => exact (ofOctets_eq_ok_iff.mp h).1
  | closed _ ih => exact ih

/-- An open key holds the secret. -/
theorem MadeFrom.buffer_eq (h : MadeFrom secret key) (hopen : key.isOpen = true) :
    key.buffer = secret := by
  induction h with
  | made h =>
    obtain ⟨_, rfl⟩ := ofOctets_eq_ok_iff.mp h
    rfl
  | closed _ ih =>
    -- No key is open after it was closed.
    unfold close at hopen
    split at hopen
    · cases hopen
    · contradiction

/-- An open key has all octets of a secret, so the assertion about its buffer holds. -/
theorem MadeFrom.length_buffer (h : MadeFrom secret key) (hopen : key.isOpen = true) :
    key.buffer.length = size := by
  rw [h.buffer_eq hopen]
  exact (isValidGeneral_iff.mp h.isValidGeneral).1

/-- The window of a key is refused for a closed key, and shows the secret otherwise. -/
theorem MadeFrom.window_endsAs (h : MadeFrom secret key) :
    EndsAs (closedRefusal? key.isOpen) key.window ∧
      ∀ shown, key.window = .ok shown → shown = secret := by
  rw [window_of_length h.length_buffer, closedRefusal?]
  split
  · rename_i hopen
    rw [h.buffer_eq hopen]
    exact ⟨⟨secret, rfl⟩, fun shown hshown => (Except.ok.inj hshown).symm⟩
  · exact ⟨⟨.closed, rfl, rfl⟩, nofun⟩

/-! ## Section 4: secp256k1 -/

/-- The scalars of secp256k1 are the numbers below the order. -/
theorem secp256k1_ofOctets_endsAs (h : isValidGeneral secret = true) :
    EndsAs (secretRefusal? secret.toNat .secp256k1) (Secp256k1.SecretKey.ofOctets secret) := by
  obtain ⟨hlength, hset⟩ := isValidGeneral_iff.mp h
  rw [Secp256k1.SecretKey.ofOctets_eq hlength (Octets.toNat_pos hset), secretRefusal?]
  split
  · exact ⟨_, rfl⟩
  · exact ⟨_, rfl, rfl⟩

/-- The secret key of secp256k1, and what it holds. -/
theorem MadeFrom.secp256k1_endsAs (h : MadeFrom secret key) :
    EndsAs ((closedRefusal? key.isOpen).or (secretRefusal? secret.toNat .secp256k1))
        key.secp256k1 ∧
      ∀ inner, key.secp256k1 = .ok inner → 0 < inner.scalar ∧ inner.scalar < Secp256k1.order := by
  obtain ⟨hwindow, hshown⟩ := h.window_endsAs
  constructor
  · refine hwindow.bind ?_
    intro shown hok
    rw [hshown shown hok]
    exact secp256k1_ofOctets_endsAs h.isValidGeneral
  · intro inner hinner
    obtain ⟨_, _, hread⟩ := bind_eq_ok_iff.mp hinner
    exact Secp256k1.SecretKey.scalar_range hread

/-- A scalar signs the digests of the right length. -/
theorem secp256k1_signDigest_endsAs (derivation : Derivation) {inner : Secp256k1.SecretKey}
    (hrange : 0 < inner.scalar ∧ inner.scalar < Secp256k1.order) (digest : Octets) :
    SearchEndsAs (digestRefusal? digest .secp256k1) (inner.signDigest derivation digest) := by
  have hcurve : ¬(Curve.secp256k1 = .starkex ∧ 2 ^ 251 ≤ digest.toNat) := nofun
  rw [digestRefusal?, if_neg hcurve, Secp256k1.SecretKey.signDigest,
    Secp256k1.SecretKey.signingHash]
  by_cases hlength : digest.length = 32
  · rw [if_neg (not_not_intro hlength), if_neg (not_not_intro hlength), ok_bind,
      Secp256k1.SecretKey.sign, passing_eq_refusing]
    exact .of_refusing _ (Secp256k1.signDerived_cases hrange hlength derivation)
  · rw [if_pos hlength, if_pos hlength]
    exact .inl ⟨_, rfl, rfl⟩

/-- What a scalar signs can be written. -/
theorem secp256k1_exists_toOctets {derivation : Derivation} {inner : Secp256k1.SecretKey}
    {σ : Secp256k1.Signature} (h : inner.signDigest derivation digest = .ok σ) :
    ∃ octets, passing σ.toOctets = .ok octets := by
  obtain ⟨_, _, R, hrec⟩ := Secp256k1.SecretKey.recovers_of_signDigest h
  obtain ⟨octets, hwrite⟩ := Secp256k1.Signature.exists_toOctets hrec.scalars hrec.idRange
  exact ⟨octets, by rw [hwrite, passing_ok]⟩

/-! ## Section 5: The STARK curve -/

/-- The secrets of the STARK curve are the numbers below the field prime. -/
theorem starkex_ofOctets_endsAs (h : isValidGeneral secret = true) :
    EndsAs (secretRefusal? secret.toNat .starkex) (Stark.SecretKey.ofOctets secret) := by
  rw [Stark.SecretKey.ofOctets_eq (isValidGeneral_iff.mp h).1, secretRefusal?]
  split
  · exact ⟨_, rfl⟩
  · exact ⟨_, rfl, rfl⟩

/-- The secret key of the STARK curve, and what it holds. -/
theorem MadeFrom.starkex_endsAs (h : MadeFrom secret key) :
    EndsAs ((closedRefusal? key.isOpen).or (secretRefusal? secret.toNat .starkex))
        key.starkex ∧
      ∀ inner, key.starkex = .ok inner → inner.element = secret.toNat ∧
        0 < secret.toNat ∧ secret.toNat < Stark.fieldPrime := by
  obtain ⟨hlength, hset⟩ := isValidGeneral_iff.mp h.isValidGeneral
  obtain ⟨hwindow, hshown⟩ := h.window_endsAs
  constructor
  · refine hwindow.bind ?_
    intro shown hok
    rw [hshown shown hok]
    exact starkex_ofOctets_endsAs h.isValidGeneral
  · intro inner hinner
    obtain ⟨shown, hok, hread⟩ := bind_eq_ok_iff.mp hinner
    obtain rfl := hshown shown hok
    rw [Stark.SecretKey.ofOctets_eq hlength] at hread
    split at hread
    · cases hread
      exact ⟨rfl, Octets.toNat_pos hset, by assumption⟩
    · cases hread

/-- Below the field prime the order has no multiple except for itself. -/
theorem emod_order_eq_zero_iff {v : Nat} (hrange : 0 < v ∧ v < Stark.fieldPrime) :
    (v : Int) % Stark.order = 0 ↔ v = Stark.order := by
  have hprime : Stark.fieldPrime < 2 * Stark.order := by decide
  constructor
  · intro h
    have hdvd : Stark.order ∣ v := Int.natCast_dvd_natCast.mp (Int.dvd_of_emod_eq_zero h)
    exact Nat.eq_of_dvd_of_lt_two_mul hrange.1.ne' hdvd (hrange.2.trans hprime)
  · rintro rfl
    exact Int.emod_self

/-- A hash is read from the digests of 251 bits. -/
theorem starkex_signingHash_endsAs (digest : Octets) :
    EndsAs (digestRefusal? digest .starkex) (Stark.SecretKey.signingHash digest) := by
  have hbound : Stark.bound = 2 ^ 251 := by decide
  rw [digestRefusal?, Stark.SecretKey.signingHash, hbound]
  split
  · exact ⟨_, rfl, rfl⟩
  by_cases hhigh : 2 ^ 251 ≤ digest.toNat
  · rw [if_pos ⟨rfl, hhigh⟩, if_pos hhigh]
    exact ⟨_, rfl, rfl⟩
  · rw [if_neg (mt And.right hhigh), if_neg hhigh]
    exact ⟨_, rfl⟩

/-- A field element other than the order signs a hash. -/
theorem starkex_sign_endsAs (derivation : Derivation) {inner : Stark.SecretKey} {v : Nat}
    (hinner : inner.element = v) (hrange : 0 < v ∧ v < Stark.fieldPrime) {hash : Int}
    (hhash : 0 ≤ hash ∧ hash < Stark.bound) :
    SearchEndsAs (pointRefusal? v .starkex) (inner.sign derivation hash).result := by
  rw [Stark.SecretKey.sign, if_neg (not_not_intro hhash), hinner, pointRefusal?]
  by_cases horder : v = Stark.order
  · have hrefused : (Stark.signDerived derivation v hash).result = .error .secretMultiple := by
      rw [Stark.signDerived, Stark.sign, if_neg (not_not_intro hhash)]
      dsimp only
      rw [if_pos ((emod_order_eq_zero_iff hrange).mpr horder)]
    rw [if_pos horder]
    dsimp only
    rw [hrefused]
    exact .inl ⟨_, rfl, rfl⟩
  · have hfit : Stark.fieldPrime < 2 ^ 256 := by decide
    have hsecret : 0 ≤ (v : Int) ∧ (v : Int) < 2 ^ 256 := by omega
    rw [if_neg horder]
    exact .of_refusing _ (Stark.signDerived_cases hsecret
      (mt (emod_order_eq_zero_iff hrange).mp horder) hhash derivation)

/-- A field element other than the order signs the digests of 251 bits. -/
theorem starkex_signDigest_endsAs (derivation : Derivation) {inner : Stark.SecretKey} {v : Nat}
    (hinner : inner.element = v) (hrange : 0 < v ∧ v < Stark.fieldPrime) (digest : Octets) :
    SearchEndsAs ((digestRefusal? digest .starkex).or (pointRefusal? v .starkex))
      (inner.signDigest derivation digest).result := by
  rw [Stark.SecretKey.signDigest, Outcome.result_bind, Outcome.result_liftM]
  refine (starkex_signingHash_endsAs digest).bind_search ?_
  intro hash hhash
  exact starkex_sign_endsAs derivation hinner hrange (Stark.SecretKey.signingHash_range hhash)

/-- What a field element signs can be written. -/
theorem starkex_exists_toOctets {derivation : Derivation} {inner : Stark.SecretKey}
    {σ : Stark.Signature} (h : (inner.signDigest derivation digest).result = .ok σ) :
    ∃ octets, passing σ.toOctets = .ok octets := by
  obtain ⟨_, _, _, _, hr, hs, _⟩ := Stark.SecretKey.fits_of_signDigest h
  obtain ⟨octets, hwrite⟩ := Stark.Signature.exists_toOctets
    ⟨zero_le_one.trans hr.1, hr.lt_fieldPrime⟩ ⟨zero_le_one.trans hs.1, hs.lt_fieldPrime⟩
  exact ⟨octets, by rw [hwrite, passing_ok]⟩

/-- A field element other than the order has a public key. -/
theorem starkex_publicKey_endsAs {inner : Stark.SecretKey} {v : Nat} (hinner : inner.element = v)
    (hrange : 0 < v ∧ v < Stark.fieldPrime) :
    EndsAs (pointRefusal? v .starkex) inner.publicKey := by
  have hmultiple := emod_order_eq_zero_iff hrange
  rw [← hinner] at hmultiple
  rw [pointRefusal?]
  by_cases horder : v = Stark.order
  · have hdvd := Int.dvd_of_emod_eq_zero (hmultiple.mpr horder)
    rw [if_pos horder, Stark.SecretKey.publicKey, Stark.publicAbscissa_of_dvd hdvd]
    exact ⟨_, rfl, rfl⟩
  · obtain ⟨_, _, hpublic⟩ := Stark.SecretKey.exists_publicKey (mt hmultiple.mp horder)
    rw [if_neg horder, hpublic]
    exact ⟨_, rfl⟩

/-! ## Section 6: Signing and deriving -/

/-- A key signs unless there is a reason on the list. -/
theorem MadeFrom.sign_endsAs (h : MadeFrom secret key) (derivation : Derivation)
    (digest : Octets) (choice : Selector Curve) :
    SearchEndsAs (signRefusal? key.isOpen secret.toNat digest choice)
      (key.sign derivation digest choice).result := by
  cases choice with
  | unknown given => exact .inl ⟨_, rfl, rfl⟩
  | known curve =>
    rw [signRefusal?, ← Option.or_assoc, sign, Outcome.result_bind]
    -- The event that is noted in the end makes no difference.
    refine SearchEndsAs.bind_value ?_ fun signature _ => ⟨signature, rfl⟩
    cases curve with
    | secp256k1 =>
      obtain ⟨hkey, hinner⟩ := h.secp256k1_endsAs
      rw [pointRefusal?, Option.or_none, signOn, Outcome.result_bind, Outcome.result_liftM]
      refine hkey.bind_search ?_
      intro inner hok
      rw [Outcome.result_bind]
      exact (secp256k1_signDigest_endsAs derivation (hinner inner hok) digest).bind_value
        fun _ => secp256k1_exists_toOctets
    | starkex =>
      obtain ⟨hkey, hinner⟩ := h.starkex_endsAs
      rw [signOn, Outcome.result_bind, Outcome.result_liftM]
      refine hkey.bind_search ?_
      intro inner hok
      obtain ⟨helement, hrange⟩ := hinner inner hok
      rw [Outcome.result_bind]
      exact (starkex_signDigest_endsAs derivation helement hrange digest).bind_value
        fun _ => starkex_exists_toOctets

-- A public key type is no curve, and is repeated like anything else that is none.
example : signRefusal? true 1 [] (.unknown ⟨"PublicKeyType", KeyType.starkex.shown⟩) =
    some ⟨.value, "unsupported curve: <PublicKeyType.STARKEX: 'starkex'>"⟩ := by
  decide +kernel

/-- A key has a public key unless there is a reason on the list. -/
theorem MadeFrom.publicKey_endsAs (h : MadeFrom secret key) (choice : Selector KeyType) :
    EndsAs (publicKeyRefusal? key.isOpen secret.toNat choice) (key.publicKey choice).result := by
  cases choice with
  | unknown given => exact ⟨_, rfl, rfl⟩
  | known type =>
    rw [publicKeyRefusal?, ← Option.or_assoc, publicKey, Outcome.result_bind,
      Outcome.result_liftM]
    refine EndsAs.bind_value ?_ fun derived _ => ⟨derived, rfl⟩
    cases type with
    | secp256k1 | secp256k1Extended =>
      obtain ⟨hkey, hinner⟩ := h.secp256k1_endsAs
      refine hkey.bind ?_
      intro inner hok
      rw [Secp256k1.SecretKey.publicKey_eq (Modular.emod_ne_zero_of_range (hinner inner hok))]
      exact ⟨_, rfl⟩
    | starkex =>
      obtain ⟨hkey, hinner⟩ := h.starkex_endsAs
      refine hkey.bind ?_
      intro inner hok
      obtain ⟨helement, hrange⟩ := hinner inner hok
      exact (starkex_publicKey_endsAs helement hrange).bind_value fun inner _ => ⟨_, rfl⟩

/-! ## Section 7: Judging -/

/-- A curve accepts the octets whose number it accepts. -/
theorem accepts_endsAs (h : isValidGeneral secret = true) (curve : Curve) :
    EndsAs (secretRefusal? secret.toNat curve) (accepts secret curve) := by
  cases curve with
  | secp256k1 => exact (secp256k1_ofOctets_endsAs h).bind_value fun _ _ => ⟨(), rfl⟩
  | starkex => exact (starkex_ofOctets_endsAs h).bind_value fun _ _ => ⟨(), rfl⟩

theorem category_of_secretRefusal? {v : Nat} {curve : Curve} {refusal : Refusal}
    (h : secretRefusal? v curve = some refusal) : refusal.category = .secretKey := by
  cases curve <;>
  · rw [secretRefusal?] at h
    split at h
    · cases h
    · cases h
      rfl

/-- The judgement of octets on a curve is always an answer. -/
theorem exists_isValid (data : Octets) (curve : Curve) :
    ∃ answer, isValid data (.known curve) = .ok answer ∧
      (answer = true ↔ isValidGeneral data = true ∧ secretRefusal? data.toNat curve = none) := by
  by_cases hvalid : isValidGeneral data = true
  · have haccepts := accepts_endsAs hvalid curve
    rw [isValid, if_neg (not_not_intro hvalid)]
    cases hsecret : secretRefusal? data.toNat curve with
    | none =>
      rw [hsecret] at haccepts
      obtain ⟨_, hok⟩ := haccepts
      rw [hok]
      exact ⟨true, rfl, iff_of_true rfl ⟨hvalid, rfl⟩⟩
    | some refusal =>
      rw [hsecret] at haccepts
      obtain ⟨fault, herror, rfl⟩ := haccepts
      -- The curve says no, which is an answer: only other faults would come through.
      have hcategory : fault.category = .secretKey := category_of_secretRefusal? hsecret
      rw [herror]
      dsimp only
      rw [hcategory, if_pos (by decide)]
      exact ⟨false, rfl, iff_of_false Bool.false_ne_true (fun h => nomatch h.2)⟩
  · rw [isValid, if_pos hvalid]
    exact ⟨false, rfl, iff_of_false Bool.false_ne_true (fun h => hvalid h.1)⟩

/-- A key can be made from the octets, and it has a public key of the type. -/
def HasPublicKey (data : Octets) (type : KeyType) : Prop :=
  ∃ key derived, ofOctets data = .ok key ∧ (key.publicKey (.known type)).result = .ok derived

theorem hasPublicKey_iff {data : Octets} {type : KeyType} :
    HasPublicKey data type ↔ isValidGeneral data = true ∧
      (secretRefusal? data.toNat type.curve).or (pointRefusal? data.toNat type.curve) = none := by
  constructor
  · intro h
    obtain ⟨key, derived, hkey, hderived⟩ := h
    obtain ⟨hvalid, rfl⟩ := ofOctets_eq_ok_iff.mp hkey
    exact ⟨hvalid, ((MadeFrom.made hkey).publicKey_endsAs (.known type)).exists_ok_iff.mp
      ⟨derived, hderived⟩⟩
  · intro h
    obtain ⟨hvalid, hnone⟩ := h
    have hkey : ofOctets data = .ok ⟨data, true⟩ := ofOctets_eq_ok_iff.mpr ⟨hvalid, rfl⟩
    obtain ⟨derived, hderived⟩ :=
      ((MadeFrom.made hkey).publicKey_endsAs (.known type)).exists_ok_iff.mpr hnone
    exact ⟨_, derived, hkey, hderived⟩

/-- The secret that is the order of the STARK curve. -/
def orderSecret : Octets := Octets.ofNat 32 Stark.order

theorem toNat_orderSecret : orderSecret.toNat = Stark.order := Octets.toNat_ofNat (by decide)

theorem pointRefusal?_eq_none_iff {data : Octets} (hlength : data.length = 32) {type : KeyType} :
    pointRefusal? data.toNat type.curve = none ↔ ¬(data = orderSecret ∧ type = .starkex) := by
  cases type with
  | secp256k1 | secp256k1Extended => exact iff_of_true rfl (fun h => nomatch h.2)
  | starkex =>
    have hsame : data.toNat = Stark.order ↔ data = orderSecret := by
      constructor
      · intro h
        exact Octets.eq_of_toNat (hlength.trans (Octets.length_ofNat 32 _).symm)
          (h.trans toNat_orderSecret.symm)
      · rintro rfl
        exact toNat_orderSecret
    rw [KeyType.curve, pointRefusal?, and_iff_left rfl, ← hsame]
    split
    · exact iff_of_false nofun (not_not_intro ‹_›)
    · exact iff_of_true rfl ‹_›

/-! ## Section 8: The first reason -/

/-- Whatever key was made from octets, open or closed, it is refused for the first reason
    on the list, and signs and has public keys if there is none. Octets are judged valid
    on a curve exactly if a key can be made from them and has a public key there, save for
    one secret: the order of the STARK curve is judged valid on it, and refused both to
    sign and to derive. -/
theorem refused_for_first_reason :
    (∀ {secret : Octets} {key : PrivateKey}, MadeFrom secret key →
      (∀ derivation digest choice,
        SearchEndsAs (signRefusal? key.isOpen secret.toNat digest choice)
          (key.sign derivation digest choice).result) ∧
      ∀ choice, EndsAs (publicKeyRefusal? key.isOpen secret.toNat choice)
        (key.publicKey choice).result) ∧
    (∀ (data : Octets) (type : KeyType), ∃ answer,
      isValid data (.known type.curve) = .ok answer ∧
        (¬(data = orderSecret ∧ type = .starkex) → (answer = true ↔ HasPublicKey data type))) ∧
    isValid orderSecret (.known .starkex) = .ok true ∧
      ∃ key, ofOctets orderSecret = .ok key ∧
        EndsAs (some orderRefusal) (key.publicKey (.known .starkex)).result ∧
        ∀ derivation digest, digestRefusal? digest .starkex = none →
          EndsAs (some orderRefusal) (key.sign derivation digest (.known .starkex)).result := by
  have hvalid : isValidGeneral orderSecret = true := by decide +kernel
  have haccepted : secretRefusal? orderSecret.toNat .starkex = none := by
    rw [toNat_orderSecret]
    decide
  have hpoint : pointRefusal? orderSecret.toNat .starkex = some orderRefusal := by
    rw [toNat_orderSecret]
    rfl
  refine ⟨fun h => ⟨h.sign_endsAs, h.publicKey_endsAs⟩, ?_, ?_, ⟨orderSecret, true⟩, ?_, ?_, ?_⟩
  · intro data type
    obtain ⟨answer, hanswer, hiff⟩ := exists_isValid data type.curve
    refine ⟨answer, hanswer, fun hother => ?_⟩
    rw [hiff, hasPublicKey_iff]
    -- Only the point could make a difference, and it is there.
    refine and_congr_right fun hshape => ?_
    rw [(pointRefusal?_eq_none_iff (isValidGeneral_iff.mp hshape).1).mpr hother, Option.or_none]
  · obtain ⟨answer, hanswer, hiff⟩ := exists_isValid orderSecret .starkex
    rw [hanswer, hiff.mpr ⟨hvalid, haccepted⟩]
  · exact ofOctets_eq_ok_iff.mpr ⟨hvalid, rfl⟩
  · have h := (MadeFrom.made (ofOctets_eq_ok_iff.mpr ⟨hvalid, rfl⟩)).publicKey_endsAs
      (.known .starkex)
    rwa [publicKeyRefusal?, KeyType.curve, haccepted, hpoint] at h
  · intro derivation digest hdigest
    have h := (MadeFrom.made (ofOctets_eq_ok_iff.mpr ⟨hvalid, rfl⟩)).sign_endsAs derivation digest
      (.known .starkex)
    rw [signRefusal?, haccepted, hdigest, hpoint] at h
    exact h.endsAs

/-- The order of the STARK curve as a secret, with one more reason taken away each time:
    the key is closed, the digest has no octets, and there is no point. -/
theorem refused_for_first_reason_order_secret :
    let key : PrivateKey := ⟨orderSecret, true⟩
    ofOctets orderSecret = .ok key ∧
      (∀ derivation,
        EndsAs (some ⟨.value, "private key is closed"⟩)
            (key.close.sign derivation [] (.known .starkex)).result ∧
          EndsAs (some ⟨.signMessage, "hash must be 32 bytes, got 0"⟩)
            (key.sign derivation [] (.known .starkex)).result ∧
          EndsAs (some orderRefusal)
            (key.sign derivation (Octets.zeros 32) (.known .starkex)).result) ∧
      ∃ derived, (key.publicKey (.known .secp256k1)).result = .ok derived := by
  intro key
  have hkey : ofOctets orderSecret = .ok key := by decide +kernel
  obtain ⟨hsign, hpublic⟩ := refused_for_first_reason.1 (.made hkey)
  obtain ⟨hsignClosed, _⟩ := refused_for_first_reason.1 (MadeFrom.made hkey).closed
  refine ⟨hkey, fun derivation => ⟨?_, ?_, ?_⟩, ?_⟩
  · exact (hsignClosed derivation [] (.known .starkex)).endsAs
  · exact (hsign derivation [] (.known .starkex)).endsAs
  · exact (hsign derivation (Octets.zeros 32) (.known .starkex)).endsAs
  · exact hpublic (.known .secp256k1)

end PrivateKey

end WalletKeys
