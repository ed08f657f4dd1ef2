import WalletKeys.Proofs.Key.Refusal
import WalletKeys.Proofs.Key.Verification

/-! # What a key shows of its secret

    Signing and deriving give out octets that depend on the secret. All else that they
    show, the lines of the log and how they are refused, depends on a few questions about
    the secret (`SameClass`): can it be a secret at all, do the curves accept it, and is it
    the order of the STARK curve?

    A signer may turn down nonces on the way, and says so in the log. How often it does is
    not settled by these questions, so those lines are left out of what is compared, and
    so are searches that are given up at their limit.
-/

namespace WalletKeys

open WalletKeys.Nonce (Derivation)

/-! ## Section 1: Sights -/

/-- Whether an event is about a nonce that was turned down. -/
def LogEvent.isReseeding : LogEvent → Bool
  | .reseeded _ => true
  | .signed _ _ | .derived _ => false

/-- The lines of a log, save for those about nonces that were turned down. -/
def visibleLines (log : List LogEvent) : List String :=
  (log.filter fun event => !event.isReseeding).map LogEvent.line

@[simp] theorem visibleLines_append (log rest : List LogEvent) :
    visibleLines (log ++ rest) = visibleLines log ++ visibleLines rest := by
  simp [visibleLines]

@[simp] theorem visibleLines_reseeded (reasons : List Stark.Rejection) :
    visibleLines (reasons.map .reseeded) = [] := by
  simp [visibleLines, LogEvent.isReseeding]

/-- What is seen of a computation by somebody who is not told its value. -/
structure Sight (α : Type) where
  lines : List String
  /-- A measure of the value, or the report of the fault. -/
  answer : Except Refusal α

/-- What is seen of a log and a result. -/
def sightOf {ε α β : Type} (report : ε → Refusal) (measure : α → β) (log : List LogEvent)
    (result : Except ε α) : Sight β :=
  ⟨visibleLines log, (result.map measure).mapError report⟩

namespace Outcome

variable {α β : Type}

/-- What is seen of an outcome. -/
def sight (measure : α → β) (x : Outcome α) : Sight β :=
  sightOf KeyFault.refusal measure x.log x.result

theorem log_bind (x : Outcome α) (f : α → Outcome β) :
    (x >>= f).log = x.log ++ match x.result with
      | .ok value => (f value).log
      | .error _ => [] := by
  show (x.andThen f).log = _
  unfold andThen
  cases x.result with
  | ok value => rfl
  | error fault => simp

/-- An outcome whose log shows no lines. -/
def Silent (x : Outcome α) : Prop := visibleLines x.log = []

theorem silent_liftM (x : Except KeyFault α) : (liftM x : Outcome α).Silent := rfl

theorem Silent.bind {x : Outcome α} {f : α → Outcome β} (hx : x.Silent)
    (hf : ∀ value, (f value).Silent) : (x >>= f).Silent := by
  unfold Silent
  rw [log_bind, visibleLines_append, hx, List.nil_append]
  cases x.result with
  | ok value => exact hf value
  | error fault => rfl

theorem log_noting (event : α → LogEvent) (x : Outcome α) :
    (x.noting event).log = x.log ++ match x.result with
      | .ok value => [event value]
      | .error _ => [] := by
  rw [noting, log_bind]
  rfl

/-- What is seen if a certain refusal is expected, or else a certain event and a measure. -/
def expectedSight (event : LogEvent) (measured : β) : (expected : Option Refusal) → Sight β
  | some refusal => ⟨[], .error refusal⟩
  | none => ⟨visibleLines [event], .ok measured⟩

/-- Nothing but the event and the measure is seen of a silent computation. -/
theorem sight_noting {x : Outcome α} {event : α → LogEvent} {expected : Option Refusal}
    {measure : α → β} {noted : LogEvent} {measured : β} (hsilent : x.Silent)
    (hends : EndsAs expected x.result)
    (hvalue : ∀ value, x.result = .ok value → event value = noted ∧ measure value = measured) :
    (x.noting event).sight measure = expectedSight noted measured expected := by
  rw [sight, sightOf, result_noting, log_noting, visibleLines_append, hsilent]
  cases expected with
  | some refusal =>
    obtain ⟨fault, hresult, rfl⟩ := hends
    rw [hresult]
    rfl
  | none =>
    obtain ⟨value, hresult⟩ := hends
    obtain ⟨rfl, rfl⟩ := hvalue value hresult
    rw [hresult]
    rfl

end Outcome

/-! ## Section 2: Secrets of one class -/

/-- Two strings that the questions of the library do not tell apart. -/
structure SameClass (secret secret' : Octets) : Prop where
  valid : PrivateKey.isValidGeneral secret = PrivateKey.isValidGeneral secret'
  secp256k1 : secret.toNat < Secp256k1.order ↔ secret'.toNat < Secp256k1.order
  starkex : secret.toNat < Stark.fieldPrime ↔ secret'.toNat < Stark.fieldPrime
  order : secret.toNat = Stark.order ↔ secret'.toNat = Stark.order

namespace SameClass

variable {secret secret' : Octets}

theorem refl (secret : Octets) : SameClass secret secret := ⟨rfl, Iff.rfl, Iff.rfl, Iff.rfl⟩

theorem lengths (same : SameClass secret secret')
    (valid : PrivateKey.isValidGeneral secret = true) :
    secret.length = PrivateKey.size ∧ secret'.length = PrivateKey.size :=
  ⟨(PrivateKey.isValidGeneral_iff.mp valid).1,
    (PrivateKey.isValidGeneral_iff.mp (same.valid ▸ valid)).1⟩

theorem secretRefusal?_eq (same : SameClass secret secret') (curve : Curve) :
    PrivateKey.secretRefusal? secret.toNat curve =
      PrivateKey.secretRefusal? secret'.toNat curve := by
  cases curve with
  | secp256k1 => simp only [PrivateKey.secretRefusal?, same.secp256k1]
  | starkex => simp only [PrivateKey.secretRefusal?, same.starkex]

theorem pointRefusal?_eq (same : SameClass secret secret') (curve : Curve) :
    PrivateKey.pointRefusal? secret.toNat curve =
      PrivateKey.pointRefusal? secret'.toNat curve := by
  cases curve with
  | secp256k1 => rfl
  | starkex => simp only [PrivateKey.pointRefusal?, same.order]

theorem signRefusal?_eq (same : SameClass secret secret') (isOpen : Bool) (digest : Octets)
    (choice : Selector Curve) :
    PrivateKey.signRefusal? isOpen secret.toNat digest choice =
      PrivateKey.signRefusal? isOpen secret'.toNat digest choice := by
  cases choice with
  | unknown given => rfl
  | known curve =>
    simp only [PrivateKey.signRefusal?, same.secretRefusal?_eq, same.pointRefusal?_eq]

theorem publicKeyRefusal?_eq (same : SameClass secret secret') (isOpen : Bool)
    (choice : Selector KeyType) :
    PrivateKey.publicKeyRefusal? isOpen secret.toNat choice =
      PrivateKey.publicKeyRefusal? isOpen secret'.toNat choice := by
  cases choice with
  | unknown given => rfl
  | known type =>
    simp only [PrivateKey.publicKeyRefusal?, same.secretRefusal?_eq, same.pointRefusal?_eq]

/-- Judgements do not tell the strings apart. -/
theorem isValid_eq (same : SameClass secret secret') (choice : Selector Curve) :
    PrivateKey.isValid secret choice = PrivateKey.isValid secret' choice := by
  cases choice with
  | unknown given => simp only [PrivateKey.isValid, same.valid]
  | known curve =>
    obtain ⟨answer, hanswer, hyes⟩ := PrivateKey.exists_isValid secret curve
    obtain ⟨answer', hanswer', hyes'⟩ := PrivateKey.exists_isValid secret' curve
    rw [← same.valid, ← same.secretRefusal?_eq, ← hyes] at hyes'
    rw [hanswer, hanswer', Bool.eq_iff_iff.mpr hyes'.symm]

end SameClass

namespace PrivateKey

variable {secret secret' digest : Octets} {key key' : PrivateKey}

/-! ## Section 3: Signing -/

/-- The only events before a signature is made are about nonces. -/
theorem signOn_silent (derivation : Derivation) (key : PrivateKey) (digest : Octets)
    (curve : Curve) : (key.signOn derivation digest curve).Silent := by
  cases curve with
  | secp256k1 =>
    exact (Outcome.silent_liftM _).bind fun _ =>
      (Outcome.silent_liftM _).bind fun _ => Outcome.silent_liftM _
  | starkex =>
    have hsign (inner : Stark.SecretKey) (hash : Int) : (inner.sign derivation hash).Silent := by
      unfold Stark.SecretKey.sign
      split
      · rfl
      · exact visibleLines_reseeded _
    -- Of the three parts only the one in the middle has events, all of them about nonces.
    refine (Outcome.silent_liftM _).bind fun inner => Outcome.Silent.bind ?_ fun _ =>
      Outcome.silent_liftM _
    exact (Outcome.silent_liftM _).bind (hsign inner)

/-- The number of octets that a curve signs with. -/
def signatureLength : Curve → Nat
  | .secp256k1 => 65
  | .starkex => 64

theorem length_of_signOn {derivation : Derivation} {curve : Curve} {signature : Octets}
    (h : (key.signOn derivation digest curve).result = .ok signature) :
    signature.length = signatureLength curve := by
  cases curve with
  | secp256k1 => exact (signed_on_secp256k1 h).1.1
  | starkex => exact (signed_on_starkex h).1.1

/-- Signing shows why it is refused, or the length of the signature. -/
theorem MadeFrom.sign_sight (h : MadeFrom secret key) (derivation : Derivation) (digest : Octets)
    (curve : Curve) :
    (key.sign derivation digest (.known curve)).result = .error (.curve .undecided) ∨
      (key.sign derivation digest (.known curve)).sight List.length =
        Outcome.expectedSight (.signed curve (signatureLength curve)) (signatureLength curve)
          (signRefusal? key.isOpen secret.toNat digest (.known curve)) := by
  have hsearch := h.sign_endsAs derivation digest (.known curve)
  rw [sign_known, Outcome.result_noting] at hsearch ⊢
  rcases hsearch with hends | ⟨_, hlimit⟩
  · right
    refine Outcome.sight_noting (signOn_silent derivation key digest curve) hends ?_
    intro signature hsigned
    -- What is noted is the length of the signature, which the curve fixes.
    rw [length_of_signOn hsigned]
    exact ⟨rfl, rfl⟩
  · exact .inl hlimit

/-- Of keys that are both open or both closed and were made from secrets of one class
    the same is seen when they sign. -/
theorem sign_sight_eq (same : SameClass secret secret') (h : MadeFrom secret key)
    (h' : MadeFrom secret' key') (hopen : key.isOpen = key'.isOpen) (derivation : Derivation)
    (digest : Octets) (choice : Selector Curve) :
    (key.sign derivation digest choice).result = .error (.curve .undecided) ∨
      (key'.sign derivation digest choice).result = .error (.curve .undecided) ∨
        (key.sign derivation digest choice).sight List.length =
          (key'.sign derivation digest choice).sight List.length := by
  cases choice with
  | unknown given => exact .inr (.inr rfl)
  | known curve =>
    rcases h.sign_sight derivation digest curve with hlimit | hsight
    · exact .inl hlimit
    rcases h'.sign_sight derivation digest curve with hlimit | hsight'
    · exact .inr (.inl hlimit)
    · rw [hsight, hsight', same.signRefusal?_eq, hopen]
      exact .inr (.inr rfl)

/-! ## Section 4: Deriving -/

theorem type_of_publicKeyOf {type : KeyType} {derived : PublicKey}
    (h : key.publicKeyOf type = .ok derived) : derived.type = type := by
  cases type with
  | secp256k1 | secp256k1Extended | starkex =>
    obtain ⟨_, _, hrest⟩ := bind_eq_ok_iff.mp h
    obtain ⟨_, _, hderived⟩ := bind_eq_ok_iff.mp hrest
    cases hderived
    rfl

/-- Deriving shows why it is refused, or the type of the public key. -/
theorem MadeFrom.publicKey_sight (h : MadeFrom secret key) (type : KeyType) :
    (key.publicKey (.known type)).sight PublicKey.type =
      Outcome.expectedSight (.derived type) type
        (publicKeyRefusal? key.isOpen secret.toNat (.known type)) := by
  have hends := h.publicKey_endsAs (.known type)
  rw [publicKey_known, Outcome.result_noting] at hends
  rw [publicKey_known]
  refine Outcome.sight_noting (Outcome.silent_liftM _) hends ?_
  intro derived hderived
  exact ⟨rfl, type_of_publicKeyOf hderived⟩

theorem publicKey_sight_eq (same : SameClass secret secret') (h : MadeFrom secret key)
    (h' : MadeFrom secret' key') (hopen : key.isOpen = key'.isOpen) (choice : Selector KeyType) :
    (key.publicKey choice).sight PublicKey.type = (key'.publicKey choice).sight PublicKey.type := by
  cases choice with
  | unknown given => rfl
  | known type =>
    rw [h.publicKey_sight, h'.publicKey_sight, same.publicKeyRefusal?_eq, hopen]

/-- A public key that is given out is written on as many octets as its type says. -/
theorem exists_octets_of_publicKey {choice : Selector KeyType} {derived : PublicKey}
    (h : (key.publicKey choice).result = .ok derived) :
    ∃ octets, derived.toOctets = .ok octets ∧ octets.length = derived.type.length := by
  have hcurve : derived.OnCurve := (PublicKey.Obtained.derived h).onCurve
  obtain ⟨octets, hwritten, hread⟩ := PublicKey.exists_octets hcurve
  rcases PublicKey.ofOctets_cases derived.type octets with
    ⟨hencoding, _⟩ | ⟨_, fault, hrefused, _⟩
  · exact ⟨octets, hwritten, hencoding.length_eq⟩
  · rw [hread] at hrefused
    cases hrefused

end PrivateKey

end WalletKeys
