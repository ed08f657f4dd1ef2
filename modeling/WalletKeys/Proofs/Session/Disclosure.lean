import Mathlib.Data.List.Forall2
import WalletKeys.Proofs.Key.Disclosure
import WalletKeys.Proofs.Session.Course

/-! # What a session shows of its secrets

    Two sessions do the same with different secrets. If the secrets are of one class
    (`SameClass`), the sessions show the same: the same calls are refused for the same
    reasons, descriptions and answers are equal, and what is made of the secrets has
    equal lengths. The log differs at most in how often a nonce was turned down.

    This is a relation between vaults (`Vault.Alike`) that every action keeps. The cells
    of such vaults are open or closed together. Closed keys are equal, since nothing is
    left of their secrets, and open ones hold secrets of one class.
-/

namespace WalletKeys

open WalletKeys.Nonce (Derivation)
open PrivateKey (isValidGeneral)

/-! ## Section 1: Keys -/

/-- Zeros are no secret, and all zeros are alike. -/
theorem SameClass.zeros (width width' : Nat) :
    SameClass (Octets.zeros width) (Octets.zeros width') := by
  have hinvalid (n : Nat) : isValidGeneral (Octets.zeros n) = false := by
    simp [isValidGeneral, Octets.zeros]
  exact ⟨by rw [hinvalid, hinvalid], by simp, by simp, by simp⟩

/-- Two keys that cannot be told apart: they are closed and equal, or open with secrets of
    one class. -/
inductive PrivateKey.Alike : PrivateKey → PrivateKey → Prop where
  | closed (buffer : Octets) : Alike ⟨buffer, false⟩ ⟨buffer, false⟩
  | opened {secret secret' : Octets} (same : SameClass secret secret')
      (valid : isValidGeneral secret = true) : Alike ⟨secret, true⟩ ⟨secret', true⟩

namespace PrivateKey.Alike

variable {key key' : PrivateKey}

theorem isOpen_eq (h : key.Alike key') : key.isOpen = key'.isOpen := by
  cases h with
  | closed | opened => rfl

theorem description_eq (h : key.Alike key') : key.description = key'.description := by
  unfold description
  rw [h.isOpen_eq]

/-- Closing leaves nothing of the secrets. -/
theorem close (h : key.Alike key') : key.close.Alike key'.close := by
  cases h with
  | closed buffer => exact .closed buffer
  | opened same valid =>
    rw [close_of_open valid, close_of_open (same.valid ▸ valid)]
    exact .closed _

/-- The octets that views of the keys show are of one class, and as many. -/
theorem shown (h : key.Alike key') :
    SameClass (key.buffer.take size) (key'.buffer.take size) ∧
      (key.buffer.take size).length = (key'.buffer.take size).length := by
  cases h with
  | closed buffer => exact ⟨.refl _, rfl⟩
  | opened same valid =>
    obtain ⟨hlength, hlength'⟩ := same.lengths valid
    simp only [List.take_of_length_le hlength.le, List.take_of_length_le hlength'.le]
    exact ⟨same, hlength.trans hlength'.symm⟩

theorem made {secret secret' : Octets} (same : SameClass secret secret')
    (valid : isValidGeneral secret = true) :
    MadeFrom secret ⟨secret, true⟩ ∧ MadeFrom secret' ⟨secret', true⟩ :=
  ⟨.made (ofOctets_eq_ok_iff.mpr ⟨valid, rfl⟩),
    .made (ofOctets_eq_ok_iff.mpr ⟨same.valid ▸ valid, rfl⟩)⟩

/-- The keys are seen to sign in the same way. -/
theorem sign_sight_eq (h : key.Alike key') (derivation : Derivation) (digest : Octets)
    (choice : Selector Curve) :
    (key.sign derivation digest choice).result = .error (.curve .undecided) ∨
      (key'.sign derivation digest choice).result = .error (.curve .undecided) ∨
        (key.sign derivation digest choice).sight List.length =
          (key'.sign derivation digest choice).sight List.length := by
  cases h with
  | closed buffer => exact .inr (.inr rfl)
  | opened same valid =>
    obtain ⟨hmade, hmade'⟩ := made same valid
    exact PrivateKey.sign_sight_eq same hmade hmade' rfl derivation digest choice

theorem publicKey_sight_eq (h : key.Alike key') (choice : Selector KeyType) :
    (key.publicKey choice).sight PublicKey.type = (key'.publicKey choice).sight PublicKey.type := by
  cases h with
  | closed buffer => rfl
  | opened same valid =>
    obtain ⟨hmade, hmade'⟩ := made same valid
    exact PrivateKey.publicKey_sight_eq same hmade hmade' rfl choice

end PrivateKey.Alike

namespace Session

/-! ## Section 2: Results -/

/-- Two computations come out alike: with the same fault, or with values that match. -/
inductive Related {ε α β : Type} (Matching : α → β → Prop) : Except ε α → Except ε β → Prop where
  | refused (fault : ε) : Related Matching (.error fault) (.error fault)
  | returned {a : α} {b : β} (same : Matching a b) : Related Matching (.ok a) (.ok b)

namespace Related

variable {ε α α' β β' : Type} {Matching : α → β → Prop} {Matching' : α' → β' → Prop}

theorem refl {Matching : α → α → Prop} (same : ∀ a, Matching a a) (x : Except ε α) :
    Related Matching x x := by
  cases x with
  | error fault => exact .refused fault
  | ok a => exact .returned (same a)

theorem bind {x : Except ε α} {y : Except ε β} {f : α → Except ε α'} {g : β → Except ε β'}
    (h : Related Matching x y) (hrest : ∀ a b, Matching a b → Related Matching' (f a) (g b)) :
    Related Matching' (x >>= f) (y >>= g) := by
  cases h with
  | refused fault => exact .refused fault
  | returned hsame => exact hrest _ _ hsame

/-- A fault of the key layer is the same fault of a session. -/
theorem lifted {x : Except KeyFault α} {y : Except KeyFault β} (h : Related Matching x y) :
    Related Matching (lifted x) (lifted y) := by
  cases h with
  | refused fault => exact .refused (Fault.key fault)
  | returned same => exact .returned same

end Related

/-! ## Section 3: Vaults -/

/-- Two vaults of sessions that cannot be told apart. Public keys do not matter, since no
    private key is made from them. -/
structure Vault.Alike (vault vault' : Vault) : Prop where
  keys : vault.keys = vault'.keys
  views : vault.views = vault'.views
  length : vault.cells.length = vault'.cells.length
  cells : ∀ i, (vault.cell i).Alike (vault'.cell i)
  buffers : ∀ name, Related SameClass (Vault.named vault.buffers name)
    (Vault.named vault'.buffers name)

/-- Windows of keys are closed together, and show as many octets. -/
theorem window_alike {key key' : PrivateKey} (h : key.Alike key') :
    Related (fun shown shown' => shown.length = shown'.length) key.window key'.window := by
  cases h with
  | closed buffer => exact .refused KeyFault.closed
  | opened same valid =>
    obtain ⟨hlength, hlength'⟩ := same.lengths valid
    rw [PrivateKey.window_of_length fun _ => hlength, PrivateKey.window_of_length fun _ => hlength']
    exact .returned (hlength.trans hlength'.symm)

namespace Vault.Alike

variable {vault vault' : Vault}

theorem namedKey (h : vault.Alike vault') (name : String) :
    Related Eq (Vault.named vault.keys name) (Vault.named vault'.keys name) := by
  rw [h.keys]
  exact Related.refl (fun _ => rfl) _

theorem namedView (h : vault.Alike vault') (name : String) :
    Related Eq (Vault.named vault.views name) (Vault.named vault'.views name) := by
  rw [h.views]
  exact Related.refl (fun _ => rfl) _

theorem empty : Vault.empty.Alike .empty where
  keys := rfl
  views := rfl
  length := rfl
  cells _ := .closed []
  buffers name := .refused (Fault.name name)

theorem setBuffer (h : vault.Alike vault') (name : String) {contents contents' : Octets}
    (same : SameClass contents contents') :
    Vault.Alike { vault with buffers := vault.buffers.set name contents }
      { vault' with buffers := vault'.buffers.set name contents' } where
  keys := h.keys
  views := h.views
  length := h.length
  cells := h.cells
  buffers other := by
    rw [named_set, named_set]
    split
    · exact .returned same
    · exact h.buffers other

theorem setView (h : vault.Alike vault') (name : String) (i : Nat) :
    Vault.Alike { vault with views := vault.views.set name i }
      { vault' with views := vault'.views.set name i } where
  keys := h.keys
  views := by simp only [h.views]
  length := h.length
  cells := h.cells
  buffers := h.buffers

theorem setPublics (h : vault.Alike vault') (publics publics' : Table PublicKey) :
    Vault.Alike { vault with publics := publics } { vault' with publics := publics' } :=
  ⟨h.keys, h.views, h.length, h.cells, h.buffers⟩

theorem close (h : vault.Alike vault') (i : Nat) : (vault.close i).Alike (vault'.close i) where
  keys := h.keys
  views := h.views
  length := by simp [h.length]
  cells j := by
    rw [cell_close, cell_close]
    split
    · exact (h.cells j).close
    · exact h.cells j
  buffers := h.buffers

theorem release (h : vault.Alike vault') (held : List Nat) (name : String) :
    (vault.release held name).Alike (vault'.release held name) := by
  unfold Vault.release
  rw [← h.keys]
  split
  · exact h
  · split
    · exact h
    · exact h.close _

theorem drop (h : vault.Alike vault') (held : List Nat) (name : String) :
    (vault.drop held name).Alike (vault'.drop held name) := by
  have hreleased := h.release held name
  exact ⟨by simp only [Vault.drop, hreleased.keys], hreleased.views, hreleased.length,
    hreleased.cells, hreleased.buffers⟩

theorem store (h : vault.Alike vault') (held : List Nat) (name : String)
    {key key' : PrivateKey} (hkey : key.Alike key') :
    (vault.store held name key).Alike (vault'.store held name key') := by
  have hdropped := h.drop held name
  refine ⟨?_, ?_, ?_, ?_, ?_⟩
  · simp only [store_eq, hdropped.keys, hdropped.length]
  · simp only [store_eq, hdropped.views]
  · simp [store_eq, hdropped.length]
  · -- The new keys get cells of one number, since the vaults have as many.
    intro i
    rw [cell_store, cell_store, h.length]
    split
    · exact hkey
    · exact hdropped.cells i
  · simpa only [store_eq] using hdropped.buffers

/-- The keys of a name. -/
theorem privateKey (h : vault.Alike vault') (name : String) :
    Related PrivateKey.Alike (privateKey vault name) (privateKey vault' name) := by
  unfold Session.privateKey
  refine (h.namedKey name).bind ?_
  intro i j hij
  rw [hij]
  exact .returned (h.cells j)

end Vault.Alike

/-! ## Section 4: Inputs -/

/-- Offers that cannot be told apart. -/
inductive OffersAlike : Offer → Offer → Prop where
  | octets {contents contents' : Octets} (same : SameClass contents contents') :
      OffersAlike (.octets contents) (.octets contents')
  | foreign (kind : String) (items : Option (List Bool)) :
      OffersAlike (.foreign kind items) (.foreign kind items)

namespace OffersAlike

variable {offer offer' : Offer}

theorem looksValid_eq (h : OffersAlike offer offer') :
    PrivateKey.looksValid offer = PrivateKey.looksValid offer' := by
  cases h with
  | octets same => simp only [PrivateKey.looksValid, same.valid]
  | foreign => rfl

theorem isValidOffer_eq (h : OffersAlike offer offer') (choice : Selector Curve) :
    PrivateKey.isValidOffer choice offer = PrivateKey.isValidOffer choice offer' := by
  cases h with
  | octets same => exact same.isValid_eq choice
  | foreign => rfl

/-- The offers are both refused, or make keys that cannot be told apart. -/
theorem ofOffer (h : OffersAlike offer offer') :
    Related PrivateKey.Alike (PrivateKey.ofOffer offer) (PrivateKey.ofOffer offer') := by
  cases h with
  | foreign kind items => exact .refused (KeyFault.notOctets kind)
  | @octets contents contents' same =>
    show Related _ (PrivateKey.ofOctets contents) (PrivateKey.ofOctets contents')
    unfold PrivateKey.ofOctets
    rw [← same.valid]
    by_cases hvalid : isValidGeneral contents = true
    · simp only [hvalid, if_true]
      exact .returned (.opened same hvalid)
    · simp only [hvalid]
      exact .refused KeyFault.secretShape

end OffersAlike

/-- Inputs of two sessions that cannot be told apart: the same one, or octets of one
    class. -/
inductive Input.Alike : Input → Input → Prop where
  | same (input : Input) : Alike input input
  | octets {contents contents' : Octets} (same : SameClass contents contents') :
      Alike (.given (.octets contents)) (.given (.octets contents'))

namespace Input.Alike

variable {vault vault' : Vault} {input input' : Input}

theorem read (hinput : input.Alike input') (h : vault.Alike vault') :
    Related OffersAlike (input.read vault) (input'.read vault') := by
  cases hinput with
  | octets same => exact .returned (.octets same)
  | same =>
    cases input with
    | given offer =>
      cases offer with
      | octets contents => exact .returned (.octets (.refl contents))
      | foreign kind items => exact .returned (.foreign kind items)
    | buffer name | bufferView name =>
      exact (h.buffers name).bind fun _ _ same => .returned (.octets same)
    | view name =>
      unfold Input.read
      refine (h.namedView name).bind ?_
      intro i j hij
      rw [hij]
      exact .returned (.octets (h.cells j).shown.1)

/-- A buffer is overwritten in both sessions or in none. -/
theorem spend (hinput : input.Alike input') (h : vault.Alike vault') :
    (input.spend vault).Alike (input'.spend vault') := by
  cases hinput with
  | octets => exact h
  | same =>
    cases input with
    | given | bufferView | view => exact h
    | buffer name =>
      -- The name stands for a buffer in both sessions or in neither, and what is left of
      -- two buffers are zeros.
      have hbuffer := h.buffers name
      unfold Vault.named at hbuffer
      cases hold : vault.buffers.get? name <;> cases hold' : vault'.buffers.get? name <;>
        rw [hold, hold'] at hbuffer
      · simpa only [Input.spend, hold, hold'] using h
      · cases hbuffer
      · cases hbuffer
      · simp only [Input.spend, hold, hold']
        exact h.setBuffer name (.zeros _ _)

end Input.Alike

/-! ## Section 5: Actions -/

/-- How a fault of a session is reported. -/
def Fault.refusal (fault : Fault) : Refusal := ⟨fault.category, fault.message⟩

/-- What is seen of an answer. Octets that are made of secrets are seen by their length. -/
def Value.veiled : Value → Value
  | .octets value => .octets (Octets.zeros value.length)
  | .window value => .window (Octets.zeros value.length)
  | value => value

/-- The same is seen of two answers. -/
def SameSight (value value' : Value) : Prop := value.veiled = value'.veiled

theorem SameSight.refl (value : Value) : SameSight value value := rfl

/-- What is seen of an action. -/
def Transition.sight (transition : Transition) : Sight Value :=
  sightOf Fault.refusal Value.veiled transition.log transition.answer

/-- A search for a nonce was given up. -/
def Transition.Unfinished (transition : Transition) : Prop :=
  transition.answer = .error (.key (.curve .undecided))

/-- The same is seen of two actions, unless a search was given up, and they lead to vaults
    that cannot be told apart. -/
structure Transition.Alike (transition transition' : Transition) : Prop where
  after : transition.after.Alike transition'.after
  sight : transition.Unfinished ∨ transition'.Unfinished ∨ transition.sight = transition'.sight

/-- What two sessions do if they are not to be told apart: they make keys from octets of one
    class, and otherwise do the same with them. Nothing is done with what they give out. -/
inductive Action.Alike : Action → Action → Prop where
  | newBuffer (name : String) {contents contents' : Octets} (same : SameClass contents contents') :
      Alike (.newBuffer name contents) (.newBuffer name contents')
  | newKey (name : String) {input input' : Input} (same : input.Alike input') :
      Alike (.newKey name input) (.newKey name input')
  | dropKey (name : String) : Alike (.dropKey name) (.dropKey name)
  | view (key target : String) : Alike (.view key target) (.view key target)
  | writeView (name : String) : Alike (.writeView name) (.writeView name)
  | close (key : String) : Alike (.close key) (.close key)
  | isClosed (key : String) : Alike (.isClosed key) (.isClosed key)
  | describe (key : String) : Alike (.describe key) (.describe key)
  | isValidGeneral {input input' : Input} (same : input.Alike input') :
      Alike (.isValidGeneral input) (.isValidGeneral input')
  | isValid {input input' : Input} (same : input.Alike input') (curve : Selector Curve) :
      Alike (.isValid input curve) (.isValid input' curve)
  | sign (key : String) (digest : Octets) (curve : Selector Curve) :
      Alike (.sign key digest curve) (.sign key digest curve)
  | derive (key : String) (type : Selector KeyType) (target : String) :
      Alike (.derive key type target) (.derive key type target)

section

variable {vault vault' : Vault}

/-- Answers of which the same is seen. -/
theorem answered_alike (h : vault.Alike vault') {answer answer' : Except Fault Value}
    (hanswer : Related SameSight answer answer') :
    (answered vault answer).Alike (answered vault' answer') where
  after := h
  sight := by
    right; right
    cases hanswer with
    | refused fault => rfl
    | returned same =>
      unfold SameSight at same
      simp [Transition.sight, sightOf, answered, Except.map, same]

theorem changed_alike (h : vault.Alike vault') {outcome outcome' : Except Fault (Vault × Value)}
    (houtcome : Related (fun result result' => result.1.Alike result'.1 ∧
      SameSight result.2 result'.2) outcome outcome') :
    (changed vault outcome).Alike (changed vault' outcome') := by
  cases houtcome with
  | refused fault => exact ⟨h, .inr (.inr rfl)⟩
  | returned same =>
    obtain ⟨hafter, hsight⟩ := same
    unfold SameSight at hsight
    refine ⟨hafter, .inr (.inr ?_)⟩
    simp [Transition.sight, sightOf, changed, Except.map, hsight]

/-- A key that is made from what an input offers. -/
theorem makeKey_alike (h : vault.Alike vault') {input input' : Input}
    (hinput : input.Alike input') (held : List Nat) (name : String) :
    (makeKey held vault name input).Alike (makeKey held vault' name input') := by
  have hread := hinput.read h
  have hspent := hinput.spend h
  unfold makeKey
  generalize input.read vault = read, input'.read vault' = read' at hread
  cases hread with
  | refused fault => exact ⟨h, .inr (.inr rfl)⟩
  | @returned offer offer' hoffer =>
    have hmade := hoffer.ofOffer
    -- From here on the inputs are spent, whether or not they make keys.
    dsimp only
    generalize PrivateKey.ofOffer offer = made, PrivateKey.ofOffer offer' = made' at hmade
    cases hmade with
    | refused fault => exact ⟨hspent, .inr (.inr rfl)⟩
    | returned hkey => exact ⟨hspent.store held name hkey, .inr (.inr rfl)⟩

/-- What is seen of a signature in a session is what is seen of it anyway. -/
theorem answer_of_sign (result : Except KeyFault Octets) :
    (((lifted result).map Value.octets).map Value.veiled).mapError Fault.refusal =
      ((result.map List.length).mapError KeyFault.refusal).map fun length =>
        .octets (Octets.zeros length) := by
  cases result with
  | error cause => rfl
  | ok signature => rfl

theorem sign_alike (h : vault.Alike vault') (derivation : Derivation) (held : List Nat)
    (key : String) (digest : Octets) (curve : Selector Curve) :
    ((Action.sign key digest curve).perform derivation held vault).Alike
      ((Action.sign key digest curve).perform derivation held vault') := by
  have hkey := h.privateKey key
  simp only [Action.perform]
  generalize privateKey vault key = found, privateKey vault' key = found' at hkey
  cases hkey with
  | refused fault => exact ⟨h, .inr (.inr rfl)⟩
  | returned hkey =>
    refine ⟨h, ?_⟩
    rcases hkey.sign_sight_eq derivation digest curve with hlimit | hlimit | hsight
    · left
      simp [Transition.Unfinished, hlimit, lifted, Except.map]
    · right; left
      simp [Transition.Unfinished, hlimit, lifted, Except.map]
    · right; right
      simp only [Outcome.sight, sightOf, Sight.mk.injEq] at hsight
      simp only [Transition.sight, sightOf, answer_of_sign, hsight]

/-- A public key that is derived can be kept, and is seen to be of its type. -/
theorem keepPublic_derived (vault : Vault) (target : String) {key : PrivateKey}
    {choice : Selector KeyType} {derived : PublicKey}
    (h : (key.publicKey choice).result = .ok derived) :
    ∃ octets, keepPublic vault target derived =
        .ok ({ vault with publics := vault.publics.set target derived }, .octets octets) ∧
      octets.length = derived.type.length := by
  obtain ⟨octets, hwritten, hlength⟩ := PrivateKey.exists_octets_of_publicKey h
  refine ⟨octets, ?_, hlength⟩
  rw [keepPublic, hwritten]
  rfl

theorem derive_alike (h : vault.Alike vault') (derivation : Derivation) (held : List Nat)
    (key : String) (type : Selector KeyType) (target : String) :
    ((Action.derive key type target).perform derivation held vault).Alike
      ((Action.derive key type target).perform derivation held vault') := by
  have hkey := h.privateKey key
  simp only [Action.perform]
  generalize privateKey vault key = found, privateKey vault' key = found' at hkey
  cases hkey with
  | refused fault => exact ⟨h, .inr (.inr rfl)⟩
  | @returned inner inner' hkey =>
    have hsight := hkey.publicKey_sight_eq type
    simp only [Outcome.sight, sightOf, Sight.mk.injEq] at hsight
    obtain ⟨hlines, hanswer⟩ := hsight
    dsimp only
    -- If only one of the two was refused, that would be seen.
    cases hresult : (inner.publicKey type).result <;>
      cases hresult' : (inner'.publicKey type).result <;>
      simp only [hresult, hresult', Except.map, Except.mapError, reduceCtorEq,
        Except.error.injEq, Except.ok.injEq] at hanswer
    · refine ⟨h, .inr (.inr ?_)⟩
      show Sight.mk (visibleLines (inner.publicKey type).log) (.error _) = Sight.mk _ (.error _)
      rw [hlines]
      exact congrArg _ (congrArg _ hanswer)
    · obtain ⟨octets, hkept, hlength⟩ := keepPublic_derived vault target hresult
      obtain ⟨octets', hkept', hlength'⟩ := keepPublic_derived vault' target hresult'
      have hsame : octets.length = octets'.length := by rw [hlength, hlength', hanswer]
      simp only [lifted, Except.bind, hkept, hkept', changed]
      refine ⟨h.setPublics _ _, .inr (.inr ?_)⟩
      simp only [Transition.sight, sightOf, Except.map, Value.veiled, hlines, hsame]

/-- Every action keeps the vaults alike, and the same is seen of it. One case for each kind
    of action. -/
theorem Action.Alike.perform {action action' : Action} (haction : action.Alike action')
    (h : vault.Alike vault') (derivation : Derivation) (held : List Nat) :
    (action.perform derivation held vault).Alike (action'.perform derivation held vault') := by
  cases haction with
  | newBuffer name same => exact ⟨h.setBuffer name same, .inr (.inr rfl)⟩
  | newKey name same => exact makeKey_alike h same held name
  | dropKey name =>
    apply changed_alike h
    refine (h.namedKey name).bind ?_
    intro _ _ _
    exact .returned ⟨h.drop held name, rfl⟩
  | view key target =>
    apply changed_alike h
    refine (h.namedKey key).bind ?_
    intro i j hij
    rw [hij]
    refine (window_alike (h.cells j)).lifted.bind ?_
    intro shown shown' hlength
    exact .returned ⟨h.setView target j, congrArg (Value.window ∘ Octets.zeros) hlength⟩
  | writeView name =>
    apply answered_alike h
    refine (h.namedView name).bind ?_
    intro _ _ _
    exact .refused Fault.readOnly
  | close key =>
    apply changed_alike h
    refine (h.namedKey key).bind ?_
    intro i j hij
    rw [hij]
    exact .returned ⟨h.close j, rfl⟩
  | isClosed key =>
    apply answered_alike h
    refine (h.privateKey key).bind ?_
    intro inner inner' hkey
    rw [hkey.isOpen_eq]
    exact .returned rfl
  | describe key =>
    apply answered_alike h
    refine (h.privateKey key).bind ?_
    intro inner inner' hkey
    rw [hkey.description_eq]
    exact .returned rfl
  | isValidGeneral same =>
    apply answered_alike h
    refine (same.read h).bind ?_
    intro offer offer' hoffer
    rw [hoffer.looksValid_eq]
    exact Related.refl SameSight.refl _
  | isValid same curve =>
    apply answered_alike h
    refine (same.read h).bind ?_
    intro offer offer' hoffer
    rw [hoffer.isValidOffer_eq]
    exact Related.refl SameSight.refl _
  | sign key digest curve => exact sign_alike h derivation held key digest curve
  | derive key type target => exact derive_alike h derivation held key type target

end

/-! ## Section 6: Sessions -/

/-- Two actions of sessions were reported of which the same is seen, unless a search was
    given up. -/
inductive Report.Alike : Report → Report → Prop where
  | action {transition transition' : Transition}
      (sight : transition.Unfinished ∨ transition'.Unfinished ∨
        transition.sight = transition'.sight) :
      Alike (.action transition) (.action transition')

/-- Vaults that cannot be told apart stay so. By induction on what is done in both. -/
theorem runAll_alike (derivation : Derivation) {actions actions' : List Action}
    (hactions : List.Forall₂ Action.Alike actions actions') {vault vault' : Vault}
    (h : vault.Alike vault') :
    List.Forall₂ Report.Alike (runAll derivation vault (actions.map .action))
      (runAll derivation vault' (actions'.map .action)) := by
  induction hactions generalizing vault vault' with
  | nil => exact .nil
  | @cons action action' rest rest' haction _ ih =>
    have hstep := haction.perform h derivation []
    simp only [List.map_cons, runAll, Step.run]
    exact .cons (.action hstep.sight) (ih hstep.after)

/-- Two sessions that do the same with keys from secrets of one class show the same. Every
    call is refused in both or in none, and for the same reason; descriptions, answers, and
    the lengths of what is given out are equal, and so are the lines of the log that are
    not about nonces. A call is left out of this if its search is given up. -/
theorem secrets_not_disclosed (derivation : Derivation) {actions actions' : List Action}
    (h : List.Forall₂ Action.Alike actions actions') :
    List.Forall₂ Report.Alike (runAll derivation .empty (actions.map .action))
      (runAll derivation .empty (actions'.map .action)) :=
  runAll_alike derivation h .empty

/-- A session with a key and a view of it, which is used on both curves before and after
    it is closed. -/
def usedAndClosed (secret digest : Octets) : List Action := [
  .newKey "k" (.given (.octets secret)),
  .view "k" "v",
  .describe "k",
  .isValid (.view "v") (.known .starkex),
  .sign "k" digest (.known .secp256k1),
  .sign "k" digest (.known .starkex),
  .derive "k" (.known .starkex) "p",
  .close "k",
  .isClosed "k",
  .sign "k" digest (.known .secp256k1)]

/-- The secrets 5 and 5 more than the order of the STARK curve are of one class, although
    their points on that curve are the same and those on the other one are not. -/
theorem secrets_not_disclosed_beyond_order :
    let secret := Octets.ofNat 32 5
    let secret' := Octets.ofNat 32 (Stark.order + 5)
    let digest : Octets := List.replicate 32 1;
    SameClass secret secret' ∧ secret ≠ secret' ∧
      List.Forall₂ Report.Alike
        (runAll .standard .empty ((usedAndClosed secret digest).map .action))
        (runAll .standard .empty ((usedAndClosed secret' digest).map .action)) := by
  intro secret secret' digest
  have hsame : SameClass secret secret' :=
    ⟨by decide +kernel, by decide +kernel, by decide +kernel, by decide +kernel⟩
  refine ⟨hsame, by decide +kernel, secrets_not_disclosed .standard ?_⟩
  exact .cons (.newKey "k" (.octets hsame)) <| .cons (.view "k" "v") <| .cons (.describe "k") <|
    .cons (.isValid (.same _) _) <| .cons (.sign ..) <| .cons (.sign ..) <|
    .cons (.derive ..) <| .cons (.close "k") <| .cons (.isClosed "k") <| .cons (.sign ..) .nil

end Session

end WalletKeys
