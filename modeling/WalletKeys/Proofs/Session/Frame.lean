import WalletKeys.Proofs.Session.Lifecycle

/-! # What an action leaves alone

    Buffers and keys are separate at every moment of a session (`keys_do_not_alias`). A
    buffer that a key is made from gives its contents away: it is all zeros afterwards,
    also if they were no secret. Other inputs are only looked at. A new key has its octets
    to itself, so that nothing a caller does to buffers reaches it, and what is done to one
    key reaches no other key and no buffer.

    To give a key the name of another one is to give up the other one. This is the only way
    in which making a key concerns another key, and it is what happens if the other one is
    dropped.
-/

namespace WalletKeys.Session

open WalletKeys.Nonce (Derivation)
open PrivateKey (isValidGeneral)

/-! ## Section 1: Making a key -/

/-- Two vaults that differ in buffers at most. -/
def BuffersOnly (before after : Vault) : Prop := after = { before with buffers := after.buffers }

namespace BuffersOnly

variable {before between after : Vault}

theorem refl (vault : Vault) : BuffersOnly vault vault := rfl

theorem set (vault : Vault) (buffers : Table Octets) :
    BuffersOnly vault { vault with buffers := buffers } := rfl

theorem trans (first : BuffersOnly before between) (second : BuffersOnly between after) :
    BuffersOnly before after := by
  unfold BuffersOnly at first second ⊢
  rw [second, first]

end BuffersOnly

/-- From one vault to the next a key was made from some octets and given a name. -/
structure Makes (held : List Nat) (name : String) (contents : Octets) (before after : Vault) :
    Prop where
  /-- The key is a new one. -/
  named : after.keys.get? name = some before.cells.length
  /-- It holds the octets. -/
  holds : after.cell before.cells.length = ⟨contents, true⟩
  /-- Keys keep their names, except for the one that had the name before. -/
  keys : ∀ other ≠ name, after.keys.get? other = before.keys.get? other
  /-- The making by itself changes no key, not even one whose view it is made from: the
      keys are as if the name had only been given up. -/
  cells : ∀ i < before.cells.length, after.cell i = (before.drop held name).cell i
  /-- This closes the key that had the name unless a block holds it. -/
  replaced : ∀ i < before.cells.length, before.keys.get? name = some i →
    after.cell i = if i ∈ held then before.cell i else (before.cell i).close
  /-- The others are as before. -/
  others : ∀ i < before.cells.length, before.keys.get? name ≠ some i →
    after.cell i = before.cell i
  views : after.views = before.views
  publics : after.publics = before.publics

/-- A key was made, or octets that are no secret were refused, which concerns buffers at
    most. -/
def Constructs (held : List Nat) (name : String) (contents : Octets) (before : Vault)
    (transition : Transition) : Prop :=
  isValidGeneral contents = true ∧ transition.answer = .ok .nothing ∧
      Makes held name contents before transition.after ∨
    isValidGeneral contents = false ∧
      (∃ fault, transition.answer = .error fault ∧ fault.category = .secretKey) ∧
        BuffersOnly before transition.after

section

variable (held : List Nat) (vault : Vault) (name : String)

theorem makes_store (contents : Octets) :
    Makes held name contents vault (vault.store held name ⟨contents, true⟩) where
  named := by simp [store_eq, Table.get?_set, length_cells_drop]
  holds := by simp [cell_store]
  keys other hother := by
    simp [store_eq, Table.get?_set, keys_drop, Table.get?_erase, hother]
  cells i hi := by rw [cell_store, if_neg (Nat.ne_of_lt hi)]
  replaced i hi hname := by
    rw [cell_store, if_neg (Nat.ne_of_lt hi), cell_drop held vault hname]
    by_cases hheld : i ∈ held
    · simp [hheld]
    · simp [hheld]
  others i hi hname := by
    rw [cell_store, if_neg (Nat.ne_of_lt hi), cell_drop_of_ne held vault name hname]
  views := by simp [store_eq, views_drop]
  publics := by simp [store_eq, publics_drop]

theorem buffers_store (key : PrivateKey) :
    (vault.store held name key).buffers = vault.buffers := by
  simp [store_eq, buffers_drop]

/-- Giving up a name has nothing to do with buffers. -/
theorem cell_drop_of_buffers (buffers : Table Octets) (i : Nat) :
    ({ vault with buffers := buffers }.drop held name).cell i = (vault.drop held name).cell i := by
  unfold Vault.drop Vault.release
  dsimp only
  split
  · rfl
  · split
    · rfl
    · rfl

/-- Buffers do not matter for what making a key changes. -/
theorem Makes.of_buffers {held : List Nat} {before between after : Vault} {name : String}
    {contents : Octets} (h : Makes held name contents between after)
    (same : BuffersOnly before between) : Makes held name contents before after := by
  rw [same] at h
  refine ⟨h.named, h.holds, h.keys, ?_, h.replaced, h.others, h.views, h.publics⟩
  intro i hi
  rw [h.cells i hi, cell_drop_of_buffers]

end

/-- What an input has to offer is what is read. -/
theorem Input.read_of_octets? {vault : Vault} {input : Input} {contents : Octets}
    (h : input.octets? vault = some contents) : input.read vault = .ok (.octets contents) := by
  cases input with
  | given offer =>
    cases offer with
    | octets contents' =>
      cases h
      rfl
    | foreign kind items => cases h
  | buffer name | bufferView name =>
    simp only [octets?] at h
    simp [Input.read, Vault.named, h]
  | view name =>
    simp only [octets?, Option.map_eq_some_iff] at h
    obtain ⟨i, hname, rfl⟩ := h
    simp [Input.read, Vault.named, hname]

/-- Taking an input concerns buffers only. -/
theorem Input.buffersOnly_spend (vault : Vault) (input : Input) :
    BuffersOnly vault (input.spend vault) := by
  cases input with
  | buffer name =>
    simp only [spend]
    split
    · rfl
    · rfl
  | given | bufferView | view => rfl

/-- Making a key from what an input offers, which is all that is done to buffers. -/
theorem makeKey_constructs (held : List Nat) {vault : Vault} (name : String) {input : Input}
    {contents : Octets} (h : input.octets? vault = some contents) :
    (makeKey held vault name input).after.buffers = (input.spend vault).buffers ∧
      Constructs held name contents vault (makeKey held vault name input) := by
  have hspent : BuffersOnly vault (input.spend vault) := input.buffersOnly_spend vault
  have hmade : PrivateKey.ofOffer (.octets contents) = PrivateKey.ofOctets contents := rfl
  unfold makeKey
  rw [Input.read_of_octets? h]
  dsimp only
  by_cases hvalid : isValidGeneral contents = true
  · rw [hmade, PrivateKey.ofOctets_eq_ok_iff.mpr ⟨hvalid, rfl⟩]
    refine ⟨buffers_store .., .inl ⟨hvalid, rfl, ?_⟩⟩
    exact (makes_store held (input.spend vault) name contents).of_buffers hspent
  · rw [hmade, PrivateKey.ofOctets, if_neg hvalid]
    exact ⟨rfl, .inr ⟨by simpa using hvalid, ⟨_, rfl, rfl⟩, hspent⟩⟩

/-! ## Section 2: Writing to buffers -/

/-- What a caller does to buffers: making them, writing to them and resizing them. -/
def Action.IsWrite : Action → Prop
  | .newBuffer _ _ | .setOctet _ _ _ | .assign _ _ => True
  | _ => False

/-- The vault after some steps, whether they are refused or not. -/
def afterAll (derivation : Derivation) (held : List Nat) (vault : Vault) : List Step → Vault
  | [] => vault
  | step :: rest => afterAll derivation held (step.run derivation held vault).after rest

section

variable (derivation : Derivation) (held : List Nat) (vault : Vault)

/-- What holds before a change, and after it if it is not refused, holds in any case. -/
theorem after_changed {P : Vault → Prop} {outcome : Except Fault (Vault × Value)}
    (before : P vault) (h : ∀ after value, outcome = .ok (after, value) → P after) :
    P (changed vault outcome).after := by
  cases outcome with
  | error fault => exact before
  | ok result => exact h result.1 result.2 rfl

/-- A write concerns buffers only. -/
theorem after_write {action : Action} (h : action.IsWrite) :
    BuffersOnly vault (action.perform derivation held vault).after := by
  cases action with
  | newBuffer name contents => exact .set vault _
  | setOctet name index value =>
    apply after_changed vault (.refl vault)
    intro after answer hok
    obtain ⟨old, _, hrest⟩ := bind_eq_ok_iff.mp hok
    obtain ⟨new, _, hafter⟩ := bind_eq_ok_iff.mp hrest
    cases hafter
    exact .set vault _
  | assign name contents =>
    apply after_changed vault (.refl vault)
    intro after answer hok
    obtain ⟨old, _, hafter⟩ := bind_eq_ok_iff.mp hok
    cases hafter
    exact .set vault _
  | _ => exact h.elim

/-- So does any number of writes. -/
theorem afterAll_writes {writes : List Action} (h : ∀ action ∈ writes, action.IsWrite) :
    BuffersOnly vault (afterAll derivation held vault (writes.map .action)) := by
  induction writes generalizing vault with
  | nil => exact .refl vault
  | cons action rest ih =>
    simp only [List.forall_mem_cons] at h
    obtain ⟨haction, hrest⟩ := h
    simp only [List.map_cons, afterAll, Step.run, Report.after]
    exact (after_write derivation held vault haction).trans (ih _ hrest)

end

/-! ## Section 3: Using a key -/

/-- What a caller does with one private key. -/
def Action.IsOn (key : String) : Action → Prop
  | .dropKey name | .view name _ | .close name | .isClosed name | .describe name
  | .sign name _ _ | .derive name _ _ => name = key
  | _ => False

mutual

/-- The same of a step. A block has to hold the key, and to do nothing with others. -/
def Step.IsOn (key : String) : Step → Prop
  | .action action => action.IsOn key
  | .block name body => name = key ∧ allOn key body

def allOn (key : String) : List Step → Prop
  | [] => True
  | step :: rest => step.IsOn key ∧ allOn key rest

end

/-- From one vault to the next only one key was used. -/
structure OnlyKey (key : String) (before after : Vault) : Prop where
  buffers : after.buffers = before.buffers
  /-- Other keys are as before, and so is what their views show. -/
  cells : ∀ i, before.keys.get? key ≠ some i → after.cell i = before.cell i
  /-- They have their names. -/
  keys : ∀ other ≠ key, after.keys.get? other = before.keys.get? other
  /-- The name of the key stands for no other key, although it may be lost. -/
  named : ∀ i, after.keys.get? key = some i → before.keys.get? key = some i
  /-- A name of a view is left alone, or given to a view of the key. -/
  views : ∀ name, after.views.get? name = before.views.get? name ∨
    ∃ i, before.keys.get? key = some i ∧ after.views.get? name = some i

namespace OnlyKey

variable {key : String} {before between after vault : Vault} {i : Nat}

theorem refl (vault : Vault) : OnlyKey key vault vault :=
  ⟨rfl, fun _ _ => rfl, fun _ _ => rfl, fun _ h => h, fun _ => .inl rfl⟩

theorem trans (first : OnlyKey key before between) (second : OnlyKey key between after) :
    OnlyKey key before after where
  buffers := second.buffers.trans first.buffers
  cells i hi := by
    -- A key without the name does not come to have it.
    have hbetween : between.keys.get? key ≠ some i := fun h => hi (first.named i h)
    rw [second.cells i hbetween, first.cells i hi]
  keys other hother := (second.keys other hother).trans (first.keys other hother)
  named i hi := first.named i (second.named i hi)
  views name := by
    rcases second.views name with hsame | ⟨i, hi, hview⟩
    · rw [hsame]
      exact first.views name
    · exact .inr ⟨i, first.named i hi, hview⟩

theorem close (h : OnlyKey key before after) (named : before.keys.get? key = some i) :
    OnlyKey key before (after.close i) where
  buffers := h.buffers
  cells j hj := by
    have hji : j ≠ i := by
      intro hji
      exact hj (hji ▸ named)
    rw [cell_close, if_neg hji, h.cells j hj]
  keys := h.keys
  named := h.named
  views := h.views

theorem drop (held : List Nat) (vault : Vault) (key : String) :
    OnlyKey key vault (vault.drop held key) where
  buffers := buffers_drop held vault key
  cells i hi := cell_drop_of_ne held vault key hi
  keys other hother := by simp [keys_drop, Table.get?_erase, hother]
  named i hi := by simp [keys_drop, Table.get?_erase] at hi
  views name := by simp [views_drop]

theorem view (target : String) (named : vault.keys.get? key = some i) :
    OnlyKey key vault { vault with views := vault.views.set target i } where
  buffers := rfl
  cells _ _ := rfl
  keys _ _ := rfl
  named _ h := h
  views name := by
    by_cases hname : name = target
    · simp [Table.get?_set, hname, named]
    · simp [Table.get?_set, hname]

theorem publics (vault : Vault) (publics : Table PublicKey) :
    OnlyKey key vault { vault with publics := publics } :=
  ⟨rfl, fun _ _ => rfl, fun _ _ => rfl, fun _ h => h, fun _ => .inl rfl⟩

end OnlyKey

section

variable {key : String} (derivation : Derivation) (held : List Nat) (vault : Vault)

/-- What is done with a key concerns that key. One case for each kind of action. -/
theorem Action.onlyKey {action : Action} (h : action.IsOn key) :
    OnlyKey key vault (action.perform derivation held vault).after := by
  cases action with
  | dropKey name =>
    obtain rfl : name = key := h
    apply after_changed vault (.refl vault)
    intro after answer hok
    obtain ⟨i, _, hafter⟩ := bind_eq_ok_iff.mp hok
    cases hafter
    exact .drop held vault name
  | view name target =>
    obtain rfl : name = key := h
    apply after_changed vault (.refl vault)
    intro after answer hok
    obtain ⟨i, hnamed, hrest⟩ := bind_eq_ok_iff.mp hok
    obtain ⟨octets, _, hafter⟩ := bind_eq_ok_iff.mp hrest
    cases hafter
    exact .view target (named_eq_ok_iff.mp hnamed)
  | close name =>
    obtain rfl : name = key := h
    apply after_changed vault (.refl vault)
    intro after answer hok
    obtain ⟨i, hnamed, hafter⟩ := bind_eq_ok_iff.mp hok
    cases hafter
    exact (OnlyKey.refl vault).close (named_eq_ok_iff.mp hnamed)
  | isClosed | describe => exact .refl vault
  | sign name digest curve =>
    simp only [Action.perform]
    split
    · exact .refl vault
    · exact .refl vault
  | derive name type target =>
    simp only [Action.perform]
    split
    · exact .refl vault
    · apply after_changed vault (.refl vault)
      intro after answer hok
      obtain ⟨derived, _, hkept⟩ := bind_eq_ok_iff.mp hok
      obtain ⟨octets, _, hafter⟩ := bind_eq_ok_iff.mp hkept
      cases hafter
      exact .publics vault _
  | _ => exact h.elim

end

mutual

/-- So does what is done with it in blocks. By induction on the step, since a block runs a
    body. -/
theorem Step.onlyKey {key : String} (derivation : Derivation) (held : List Nat)
    (vault : Vault) : (step : Step) → step.IsOn key →
      OnlyKey key vault (step.run derivation held vault).after
  | .action action, h => by
    rw [Step.run]
    exact Action.onlyKey derivation held vault (by rwa [Step.IsOn] at h)
  | .block name body, h => by
    rw [Step.IsOn] at h
    obtain ⟨rfl, hbody⟩ := h
    cases hname : vault.keys.get? name with
    | none =>
      rw [Step.run_block_barred derivation held vault hname]
      exact .refl vault
    | some i =>
      rw [Step.run_block derivation held vault hname]
      exact (runBody_onlyKey derivation (i :: held) vault body hbody).close hname

theorem runBody_onlyKey {key : String} (derivation : Derivation) (held : List Nat)
    (vault : Vault) : (steps : List Step) → allOn key steps →
      OnlyKey key vault (runBody derivation held vault steps).2.2
  | [], _ => by
    rw [runBody]
    exact .refl vault
  | step :: rest, h => by
    rw [allOn] at h
    have hstep := Step.onlyKey derivation held vault step h.1
    have hrest := runBody_onlyKey derivation held (step.run derivation held vault).after rest h.2
    cases hfault : (step.run derivation held vault).fault? with
    | some fault =>
      rw [runBody_of_fault _ _ _ hfault]
      exact hstep
    | none =>
      rw [runBody_of_no_fault _ _ _ hfault]
      exact hstep.trans hrest

end

theorem afterAll_onlyKey {key : String} (derivation : Derivation) (held : List Nat)
    (vault : Vault) {steps : List Step} (h : allOn key steps) :
    OnlyKey key vault (afterAll derivation held vault steps) := by
  induction steps generalizing vault with
  | nil => exact .refl vault
  | cons step rest ih =>
    rw [allOn] at h
    exact (Step.onlyKey derivation held vault step h.1).trans (ih _ h.2)

/-! ## Section 4: Every session -/

/-- Nothing that is done with a key looks at buffers. -/
theorem BuffersOnly.perform_eq {before after : Vault} (h : BuffersOnly before after)
    (derivation : Derivation) (held : List Nat) {key : String} {action : Action}
    (haction : action.IsOn key) :
    (action.perform derivation held after).log = (action.perform derivation held before).log ∧
      (action.perform derivation held after).answer =
        (action.perform derivation held before).answer := by
  rw [h]
  generalize after.buffers = buffers
  cases action with
  | dropKey name | close name =>
    simp only [Action.perform]
    cases Vault.named before.keys name with
    | error fault => exact ⟨rfl, rfl⟩
    | ok i => exact ⟨rfl, rfl⟩
  | isClosed name | describe name => exact ⟨rfl, rfl⟩
  | view name target =>
    simp only [Action.perform]
    cases Vault.named before.keys name with
    | error fault => exact ⟨rfl, rfl⟩
    | ok i =>
      -- The cell is looked up in a vault with other buffers.
      have hcell : ({ before with buffers := buffers } : Vault).cell i = before.cell i := rfl
      simp only [ok_bind, hcell]
      cases (before.cell i).window with
      | error fault => exact ⟨rfl, rfl⟩
      | ok octets => exact ⟨rfl, rfl⟩
  | sign name digest curve =>
    have hkey : privateKey { before with buffers := buffers } name = privateKey before name := rfl
    simp only [Action.perform, hkey]
    cases privateKey before name with
    | error fault => exact ⟨rfl, rfl⟩
    | ok inner => exact ⟨rfl, rfl⟩
  | derive name type target =>
    have hkey : privateKey { before with buffers := buffers } name = privateKey before name := rfl
    simp only [Action.perform, hkey]
    cases privateKey before name with
    | error fault => exact ⟨rfl, rfl⟩
    | ok inner =>
      refine ⟨rfl, ?_⟩
      dsimp only
      cases (inner.publicKey type).result with
      | error fault => rfl
      | ok derived =>
        simp only [lifted, Except.bind, keepPublic]
        cases KeyFault.passing derived.toOctets with
        | error fault => rfl
        | ok octets => rfl
  | _ => exact haction.elim

/-- What a caller can rely on at a moment of a session. -/
structure Moment.Separate (derivation : Derivation) (m : Moment) : Prop where
  /-- A buffer that a key is made from, whether or not this is refused, keeps its length and
      is all zeros afterwards. Other buffers stay as they are. -/
  moved : ∀ name buffer contents, m.vault.buffers.get? buffer = some contents →
    let transition := (Action.newKey name (.buffer buffer)).perform derivation m.held m.vault
    transition.after.buffers.get? buffer = some (Octets.zeros contents.length) ∧
      (∀ other ≠ buffer,
        transition.after.buffers.get? other = m.vault.buffers.get? other) ∧
      Constructs m.held name contents m.vault transition
  /-- Any other input is copied, and all buffers stay as they are. -/
  copied : ∀ name input contents, input.octets? m.vault = some contents →
    (∀ buffer, input ≠ .buffer buffer) →
    let transition := (Action.newKey name input).perform derivation m.held m.vault
    transition.after.buffers = m.vault.buffers ∧
      Constructs m.held name contents m.vault transition
  /-- After any writes to buffers there are the same keys with the same secrets, views show
      the same, and whatever is done with a key is answered as without the writes. -/
  written : ∀ writes : List Action, (∀ action ∈ writes, action.IsWrite) →
    let after := afterAll derivation m.held m.vault (writes.map .action)
    BuffersOnly m.vault after ∧ after.snapshot.views = m.vault.snapshot.views ∧
      ∀ key, ∀ action : Action, action.IsOn key →
        (action.perform derivation m.held after).log =
            (action.perform derivation m.held m.vault).log ∧
          (action.perform derivation m.held after).answer =
            (action.perform derivation m.held m.vault).answer
  /-- After any use of one key all other keys and their views are as before, and so are
      the buffers. -/
  used : ∀ key steps, allOn key steps →
    let after := afterAll derivation m.held m.vault steps
    OnlyKey key m.vault after ∧
      (∀ other ≠ key, privateKey after other = privateKey m.vault other) ∧
      ∀ i, m.vault.keys.get? key ≠ some i → after.shown i = m.vault.shown i

namespace Moment.Invariant

variable {m : Moment}

/-- No two names stand for one key, so using a key leaves the keys of other names alone. -/
theorem privateKey_of_onlyKey (h : m.Invariant) {key other : String} {after : Vault}
    (hafter : OnlyKey key m.vault after) (hother : other ≠ key) :
    privateKey after other = privateKey m.vault other := by
  unfold privateKey Vault.named
  rw [hafter.keys other hother]
  cases hname : m.vault.keys.get? other with
  | none => rfl
  | some i =>
    have hkey : m.vault.keys.get? key ≠ some i := fun hi =>
      hother (h.distinct other key i hname hi)
    simp [hafter.cells i hkey]

theorem separate (h : m.Invariant) (derivation : Derivation) : m.Separate derivation where
  moved name buffer contents hbuffer := by
    have hinput : (Input.buffer buffer).octets? m.vault = some contents := hbuffer
    obtain ⟨hbuffers, hconstructs⟩ := makeKey_constructs m.held name hinput
    have hspent : (Input.spend m.vault (.buffer buffer)).buffers =
        m.vault.buffers.set buffer (Octets.zeros contents.length) := by
      simp only [Input.spend, hbuffer]
      rfl
    rw [hspent] at hbuffers
    refine ⟨?_, ?_, hconstructs⟩
    · simp only [Action.perform, hbuffers, Table.get?_set, if_true]
    · intro other hother
      simp only [Action.perform, hbuffers, Table.get?_set, if_neg hother]
  copied name input contents hinput hbuffer := by
    obtain ⟨hbuffers, hconstructs⟩ := makeKey_constructs m.held name hinput
    have hspent : (input.spend m.vault).buffers = m.vault.buffers := by
      cases input with
      | buffer name => exact absurd rfl (hbuffer name)
      | given | bufferView | view => rfl
    exact ⟨hbuffers.trans hspent, hconstructs⟩
  written writes hwrites := by
    intro after
    have hafter : BuffersOnly m.vault after := afterAll_writes derivation m.held m.vault hwrites
    refine ⟨hafter, ?_, ?_⟩
    · rw [hafter]
      rfl
    · intro key action haction
      exact hafter.perform_eq derivation m.held haction
  used key steps hsteps := by
    intro after
    have hafter : OnlyKey key m.vault after := afterAll_onlyKey derivation m.held m.vault hsteps
    refine ⟨hafter, ?_, ?_⟩
    · intro other hother
      exact h.privateKey_of_onlyKey hafter hother
    · intro i hi
      unfold Vault.shown
      rw [hafter.cells i hi]

end Moment.Invariant

/-- Buffers and keys do not alias, at any moment of any session, in blocks and after
    faults: a buffer is moved into the key that is made from it, other inputs are copied,
    writing to buffers reaches no key, and using a key reaches no other key and no
    buffer. -/
theorem keys_do_not_alias (derivation : Derivation) (steps : List Step) :
    ∀ m ∈ (course derivation steps).moments, m.Separate derivation := by
  intro m hm
  exact (course_invariant derivation steps m hm).separate derivation

/-- A session with a key, a view of it, and a buffer that is too short for a secret. -/
def keyAndBuffer (secret : Octets) : List Step := [
  .action (.newKey "k" (.given (.octets secret))),
  .action (.view "k" "v"),
  .action (.newBuffer "b" [1, 2, 3])]

/-- A key that is replaced by a key from its own view is closed and leaves the other one
    its secret. A buffer that is refused is overwritten, and nothing else happens. -/
theorem keys_do_not_alias_replaced_by_own_view :
    let secret := Octets.ofNat 32 5
    let m := (course .standard (keyAndBuffer secret)).present
    let replaced := (Action.newKey "k" (.view "v")).perform .standard m.held m.vault
    let refused := (Action.newKey "k" (.buffer "b")).perform .standard m.held m.vault;
    (replaced.after.cell 0 = PrivateKey.erased ∧ replaced.after.cell 1 = ⟨secret, true⟩) ∧
      (refused.after.buffers.get? "b" = some [0, 0, 0] ∧
        refused.after.cell 0 = ⟨secret, true⟩) := by
  intro secret m replaced refused
  have hseparate : m.Separate .standard :=
    keys_do_not_alias .standard (keyAndBuffer secret) m (Course.present_mem _)
  obtain ⟨_, hreplaced⟩ := hseparate.copied "k" (.view "v") secret (by decide) nofun
  obtain ⟨hzeros, _, hrefused⟩ := hseparate.moved "k" "b" [1, 2, 3] (by decide)
  constructor
  · rcases hreplaced with ⟨_, _, hmakes⟩ | ⟨hinvalid, _⟩
    · refine ⟨(hmakes.replaced 0 (by decide) (by decide)).trans (by decide), hmakes.holds⟩
    · exact absurd hinvalid (by decide)
  · rcases hrefused with ⟨hvalid, _⟩ | ⟨_, _, hbuffers⟩
    · exact absurd hvalid (by decide)
    · refine ⟨hzeros, ?_⟩
      rw [hbuffers]
      decide

end WalletKeys.Session
