import WalletKeys.Proofs.Session.Course

/-! # The life of a secret

    At every moment of a session a private key is in one of two states, and its
    history tells in which. It is open with the octets it was made from, or it was
    retired and is erased. A key is retired by being closed, by leaving a block
    that held it, and by losing its name outside of such a block.

    A key that loses its name inside of a block that holds it is still open there.
    It is retired at the latest when the block is left.

    Each kind of change preserves this (`Invariant.of_change`) and takes nothing
    back (`Before.of_change`), and a session is a course of changes.
-/

namespace WalletKeys.Session

open WalletKeys.Nonce (Derivation)
open PrivateKey (erased isValidGeneral)

/-! ## Section 1: What a moment keeps -/

/-- The cell that an event is about. -/
def Event.cell : Event → Nat
  | .made i _ | .viewed i _ | .closed i | .left i | .released i => i

theorem Event.cell_of_viewUnder? {name : String} {e : Event} {i : Nat}
    (h : e.viewUnder? name = some i) : e.cell = i := by
  cases e with
  | viewed j target =>
    rw [viewUnder?] at h
    split at h
    · cases h
      rfl
    · cases h
  | made | closed | left | released => cases h

namespace Moment

/-- A key that was closed, that was held by a block which is left, or whose name is
    lost while no block that is being run holds it. -/
def Retired (m : Moment) (i : Nat) : Prop :=
  .closed i ∈ m.past ∨ .left i ∈ m.past ∨ .released i ∈ m.past ∧ i ∉ m.held

/-- The state of a key that was made from certain octets. -/
structure Holds (m : Moment) (i : Nat) (contents : Octets) : Prop where
  valid : isValidGeneral contents = true
  erased_of_retired : m.Retired i → m.vault.cell i = erased
  intact : ¬m.Retired i → m.vault.cell i = ⟨contents, true⟩

/-- What holds at every moment of a session. -/
structure Invariant (m : Moment) : Prop where
  /-- Only keys that exist have a history. -/
  events : ∀ e ∈ m.past, e.cell < m.vault.cells.length
  /-- Only keys that exist are held. -/
  held : ∀ i ∈ m.held, i < m.vault.cells.length
  /-- Only keys that exist and never lost their name have one. -/
  named : ∀ name i, m.vault.keys.get? name = some i →
    i < m.vault.cells.length ∧ .released i ∉ m.past
  /-- No key has two names. -/
  distinct : ∀ name other i, m.vault.keys.get? name = some i →
    m.vault.keys.get? other = some i → name = other
  /-- Every key was made from some octets. -/
  made : ∀ i < m.vault.cells.length, ∃ contents, .made i contents ∈ m.past
  holds : ∀ i contents, .made i contents ∈ m.past → m.Holds i contents
  /-- A name of a view stands for the key that was viewed under it last. -/
  views : ∀ name, m.vault.views.get? name = m.past.findSome? (Event.viewUnder? name)

variable {m m' : Moment} {i : Nat} {contents : Octets}

theorem Holds.of_same (h : m.Holds i contents) (hcell : m'.vault.cell i = m.vault.cell i)
    (hretired : m'.Retired i ↔ m.Retired i) : m'.Holds i contents where
  valid := h.valid
  erased_of_retired hi := by rw [hcell, h.erased_of_retired (hretired.mp hi)]
  intact hi := by rw [hcell, h.intact (mt hretired.mpr hi)]

/-- Closing a key retires it, also when it is closed already. -/
theorem Holds.of_closed (h : m.Holds i contents)
    (hcell : m'.vault.cell i = (m.vault.cell i).close) (hretired : m'.Retired i) :
    m'.Holds i contents where
  valid := h.valid
  erased_of_retired _ := by
    rw [hcell]
    by_cases hi : m.Retired i
    · rw [h.erased_of_retired hi, PrivateKey.close_of_closed rfl]
    · rw [h.intact hi, PrivateKey.close_of_open h.valid]
  intact hi := absurd hretired hi

/-- A change that may close a key has to retire it exactly then. -/
theorem Holds.of_ite {closes : Prop} [Decidable closes] (h : m.Holds i contents)
    (hcell : m'.vault.cell i = if closes then (m.vault.cell i).close else m.vault.cell i)
    (hcloses : closes → m'.Retired i) (hsame : ¬closes → (m'.Retired i ↔ m.Retired i)) :
    m'.Holds i contents := by
  split at hcell
  · rename_i hc
    exact h.of_closed hcell (hcloses hc)
  · rename_i hc
    exact h.of_same hcell (hsame hc)

end Moment

/-! ## Section 2: Every change preserves it -/

namespace Moment.Invariant

variable {held : List Nat} {past : List Event} {vault after : Vault} {key : String} {i : Nat}

theorem start : Moment.start.Invariant where
  events e he := absurd he List.not_mem_nil
  held i hi := absurd hi List.not_mem_nil
  named name i h := by cases h
  distinct name other i h := by cases h
  made i hi := absurd hi (Nat.not_lt_zero i)
  holds i contents h := absurd h List.not_mem_nil
  views name := rfl

theorem quiet (h : Invariant ⟨held, past, vault⟩) (still : Quiet vault after) :
    Invariant ⟨held, past, after⟩ where
  events := by simpa only [still.cells] using h.events
  held := by simpa only [still.cells] using h.held
  named name i hi := by simpa only [still.cells] using h.named name i (still.keys name i hi)
  distinct name other i hname hother :=
    h.distinct name other i (still.keys name i hname) (still.keys other i hother)
  made := by simpa only [still.cells] using h.made
  holds i contents hmade :=
    (h.holds i contents hmade).of_same (cell_of_cells_eq still.cells i) Iff.rfl
  views := by simpa only [still.views] using h.views

theorem retired_lt {m : Moment} (h : m.Invariant) (hi : m.Retired i) :
    i < m.vault.cells.length := by
  rcases hi with hclosed | hleft | ⟨hreleased, _⟩
  · exact h.events _ hclosed
  · exact h.events _ hleft
  · exact h.events _ hreleased

theorem make (h : Invariant ⟨held, past, vault⟩) {contents : Octets} (name : String)
    (hvalid : isValidGeneral contents = true)
    (hcells : after.cells = vault.cells ++ [⟨contents, true⟩])
    (hkeys : after.keys = vault.keys.set name vault.cells.length)
    (hviews : after.views = vault.views) :
    Invariant ⟨held, .made vault.cells.length contents :: past, after⟩ := by
  have hlength : after.cells.length = vault.cells.length + 1 := by
    rw [hcells, List.length_append, List.length_singleton]
  refine ⟨?events, ?held, ?named, ?distinct, ?made, ?holds, ?views⟩
  case events =>
    intro e he
    rw [hlength]
    rcases List.mem_cons.mp he with rfl | he
    · exact Nat.lt_succ_self _
    · exact Nat.lt_succ_of_lt (h.events e he)
  case held =>
    intro j hj
    rw [hlength]
    exact Nat.lt_succ_of_lt (h.held j hj)
  case named =>
    intro other j hj
    rw [hkeys, Table.get?_set] at hj
    rw [hlength]
    split at hj
    · cases hj
      refine ⟨Nat.lt_succ_self _, ?_⟩
      intro hreleased
      have hold : .released vault.cells.length ∈ past := by simpa using hreleased
      exact absurd (h.events _ hold) (Nat.lt_irrefl _)
    · obtain ⟨hlt, hpast⟩ := h.named other j hj
      exact ⟨Nat.lt_succ_of_lt hlt, by simpa using hpast⟩
  case distinct =>
    intro other another j hother hanother
    rw [hkeys, Table.get?_set] at hother hanother
    -- The new key has one name, and no other name stands for its cell.
    split at hother <;> split at hanother
    · rename_i h₁ h₂
      rw [h₁, h₂]
    · cases hother
      exact absurd (h.named another _ hanother).1 (Nat.lt_irrefl _)
    · cases hanother
      exact absurd (h.named other _ hother).1 (Nat.lt_irrefl _)
    · exact h.distinct other another j hother hanother
  case made =>
    intro j hj
    rw [hlength] at hj
    rcases Nat.lt_succ_iff_lt_or_eq.mp hj with hlt | rfl
    · obtain ⟨old, hold⟩ := h.made j hlt
      exact ⟨old, List.mem_cons_of_mem _ hold⟩
    · exact ⟨contents, List.mem_cons_self ..⟩
  case holds =>
    intro j old hmem
    have hretired (k : Nat) : Retired ⟨held, .made vault.cells.length contents :: past, after⟩ k ↔
        Retired ⟨held, past, vault⟩ k := by
      simp [Retired]
    rcases List.mem_cons.mp hmem with heq | hmem
    · cases heq
      have hnew : ¬Retired ⟨held, past, vault⟩ vault.cells.length :=
        fun hr => Nat.lt_irrefl _ (h.retired_lt hr)
      refine ⟨hvalid, fun hr => absurd ((hretired _).mp hr) hnew, fun _ => ?_⟩
      show after.cell vault.cells.length = _
      rw [cell_of_append hcells, if_pos rfl]
    · have hlt : j < vault.cells.length := h.events _ hmem
      refine (h.holds j old hmem).of_same ?_ (hretired j)
      show after.cell j = vault.cell j
      rw [cell_of_append hcells, if_neg (Nat.ne_of_lt hlt)]
  case views =>
    intro other
    rw [hviews, List.findSome?_cons]
    exact h.views other

theorem view (h : Invariant ⟨held, past, vault⟩) (target : String)
    (named : vault.keys.get? key = some i) :
    Invariant ⟨held, .viewed i target :: past,
      { vault with views := vault.views.set target i }⟩ where
  events e he := by
    rcases List.mem_cons.mp he with rfl | he
    · exact (h.named key i named).1
    · exact h.events e he
  held := h.held
  named name j hj := by
    simpa using h.named name j hj
  distinct := h.distinct
  made j hj := by
    simpa using h.made j hj
  holds j contents hmade := by
    refine (h.holds j contents (by simpa using hmade)).of_same rfl ?_
    simp [Retired]
  views name := by
    rw [Table.get?_set, List.findSome?_cons, Event.viewUnder?]
    by_cases hname : name = target
    · rw [if_pos hname, if_pos hname.symm]
    · rw [if_neg hname, if_neg (Ne.symm hname)]
      exact h.views name

/-- An event of a retirement needs a look at the cells and the names only. -/
theorem retire (h : Invariant ⟨held, past, vault⟩) {held' : List Nat} {e : Event}
    (hevent : e.cell < vault.cells.length) (hmade : ∀ j contents, .made j contents ≠ e)
    (hview : ∀ name, e.viewUnder? name = none) (hheld : ∀ j ∈ held', j ∈ held)
    (hlength : after.cells.length = vault.cells.length) (hviews : after.views = vault.views)
    (hnamed : ∀ name j, after.keys.get? name = some j →
      vault.keys.get? name = some j ∧ .released j ≠ e)
    (hholds : ∀ j contents, Holds ⟨held, past, vault⟩ j contents →
      Holds ⟨held', e :: past, after⟩ j contents) :
    Invariant ⟨held', e :: past, after⟩ where
  events e' he := by
    rw [hlength]
    rcases List.mem_cons.mp he with rfl | he
    · exact hevent
    · exact h.events e' he
  held j hj := by
    rw [hlength]
    exact h.held j (hheld j hj)
  named name j hj := by
    obtain ⟨hj, hne⟩ := hnamed name j hj
    obtain ⟨hlt, hpast⟩ := h.named name j hj
    rw [hlength]
    exact ⟨hlt, List.not_mem_cons_of_ne_of_not_mem hne hpast⟩
  distinct name other j hname hother :=
    h.distinct name other j (hnamed name j hname).1 (hnamed other j hother).1
  made j hj := by
    obtain ⟨contents, hmem⟩ := h.made j (by simpa only [hlength] using hj)
    exact ⟨contents, List.mem_cons_of_mem e hmem⟩
  holds j contents hmem := by
    rcases List.mem_cons.mp hmem with heq | hmem
    · exact absurd heq (hmade j contents)
    · exact hholds j contents (h.holds j contents hmem)
  views name := by
    rw [List.findSome?_cons, hview name, hviews]
    exact h.views name

theorem close (h : Invariant ⟨held, past, vault⟩) (named : vault.keys.get? key = some i) :
    Invariant ⟨held, .closed i :: past, vault.close i⟩ := by
  refine h.retire (h.named key i named).1 nofun (fun _ => rfl) (fun _ hj => hj)
    (length_cells_close vault i) rfl (fun _ _ hj => ⟨hj, nofun⟩) ?_
  intro j contents hj
  refine hj.of_ite (cell_close vault i j) ?_ ?_
  · rintro rfl
    exact .inl (List.mem_cons_self ..)
  · intro hji
    simp [Retired, hji]

theorem leave (h : Invariant ⟨i :: held, past, vault⟩) :
    Invariant ⟨held, .left i :: past, vault.close i⟩ := by
  refine h.retire (h.held i (List.mem_cons_self ..)) nofun (fun _ => rfl)
    (fun _ hj => List.mem_cons_of_mem i hj) (length_cells_close vault i) rfl
    (fun _ _ hj => ⟨hj, nofun⟩) ?_
  intro j contents hj
  refine hj.of_ite (cell_close vault i j) ?_ ?_
  · rintro rfl
    exact .inr (.inl (List.mem_cons_self ..))
  · -- Only for the cell `i` does it matter that the block no longer holds it.
    intro hji
    simp [Retired, hji]

theorem drop (h : Invariant ⟨held, past, vault⟩) (named : vault.keys.get? key = some i) :
    Invariant ⟨held, .released i :: past, vault.drop held key⟩ := by
  refine h.retire (h.named key i named).1 nofun (fun _ => rfl) (fun _ hj => hj)
    (length_cells_drop held vault key) (views_drop held vault key) ?_ ?_
  · intro name j hj
    rw [keys_drop, Table.get?_erase] at hj
    split at hj
    · cases hj
    · rename_i hname
      refine ⟨hj, ?_⟩
      intro heq
      cases heq
      exact hname (h.distinct name key i hj named)
  · intro j contents hj
    refine hj.of_ite (cell_drop held vault named j) ?_ ?_
    · rintro ⟨rfl, hfree⟩
      exact .inr (.inr ⟨List.mem_cons_self .., hfree⟩)
    · -- A key that is held is not retired by the loss of its name.
      intro hkept
      by_cases hji : j = i
      · have hheld : i ∈ held := by simpa [hji] using hkept
        simp [Retired, hji, hheld]
      · simp [Retired, hji]

/-- A block holds a key that has a name, and so was not released. -/
theorem enter (h : Invariant ⟨held, past, vault⟩) (named : vault.keys.get? key = some i) :
    Invariant ⟨i :: held, past, vault⟩ where
  events := h.events
  held j hj := by
    rcases List.mem_cons.mp hj with rfl | hj
    · exact (h.named key j named).1
    · exact h.held j hj
  named := h.named
  distinct := h.distinct
  made := h.made
  holds j contents hmem := by
    refine (h.holds j contents hmem).of_same rfl ?_
    have hi : .released i ∉ past := (h.named key i named).2
    by_cases hreleased : .released j ∈ past
    · have hji : j ≠ i := by
        rintro rfl
        exact hi hreleased
      simp [Retired, hji]
    · simp [Retired, hreleased]
  views := h.views

theorem of_change {m m' : Moment} (h : m.Invariant) (change : Change m m') : m'.Invariant := by
  cases change with
  | quiet still => exact h.quiet still
  | make name made =>
    obtain ⟨hvalid, rfl⟩ := PrivateKey.ofOctets_eq_ok_iff.mp made
    exact h.make name hvalid rfl rfl rfl
  | view target named => exact h.view target named
  | close named => exact h.close named
  | drop named => exact h.drop named
  | enter named => exact h.enter named
  | leave => exact h.leave

end Moment.Invariant

/-! ## Section 3: Nothing is taken back -/

/-- What an earlier moment settles for a later one. -/
structure Moment.Before (earlier later : Moment) : Prop where
  /-- What has happened has happened. -/
  past : earlier.past <:+ later.past
  cells : earlier.vault.cells.length ≤ later.vault.cells.length
  /-- A closed key stays as it is. -/
  closed : ∀ i < earlier.vault.cells.length, (earlier.vault.cell i).isOpen = false →
    later.vault.cell i = earlier.vault.cell i

namespace Moment.Before

theorem refl (m : Moment) : m.Before m := ⟨List.suffix_refl _, Nat.le_refl _, fun _ _ _ => rfl⟩

theorem trans {m₁ m₂ m₃ : Moment} (first : m₁.Before m₂) (second : m₂.Before m₃) :
    m₁.Before m₃ where
  past := first.past.trans second.past
  cells := Nat.le_trans first.cells second.cells
  closed i hi hclosed := by
    have heq : m₂.vault.cell i = m₁.vault.cell i := first.closed i hi hclosed
    rw [← heq] at hclosed ⊢
    exact second.closed i (Nat.lt_of_lt_of_le hi first.cells) hclosed

theorem of_change {m m' : Moment} (change : Change m m') : m.Before m' := by
  cases change with
  | quiet still =>
    refine ⟨List.suffix_refl _, Nat.le_of_eq (by rw [still.cells]), ?_⟩
    intro i _ _
    exact cell_of_cells_eq still.cells i
  | make name made =>
    refine ⟨List.suffix_cons .., by simp, ?_⟩
    intro i hi _
    exact (cell_of_append rfl i).trans (if_neg (Nat.ne_of_lt hi))
  | view => exact ⟨List.suffix_cons .., Nat.le_refl _, fun _ _ _ => rfl⟩
  | @close held past vault key j _ =>
    refine ⟨List.suffix_cons .., by simp, ?_⟩
    intro i _ hclosed
    have hcell := cell_close vault j i
    rwa [PrivateKey.close_of_closed hclosed, ite_self] at hcell
  | @drop held past vault key j named =>
    refine ⟨List.suffix_cons .., Nat.le_of_eq (length_cells_drop held vault key).symm, ?_⟩
    intro i _ hclosed
    have hcell := cell_drop held vault named i
    rwa [PrivateKey.close_of_closed hclosed, ite_self] at hcell
  | enter => exact ⟨List.suffix_refl _, Nat.le_refl _, fun _ _ _ => rfl⟩
  | @leave held past vault j =>
    refine ⟨List.suffix_cons .., by simp, ?_⟩
    intro i _ hclosed
    have hcell := cell_close vault j i
    rwa [PrivateKey.close_of_closed hclosed, ite_self] at hcell

end Moment.Before

/-! ## Section 4: Every session -/

/-- What a caller can rely on at a moment of a session. -/
structure Moment.Kept (m : Moment) : Prop where
  /-- Every key was made from some octets. -/
  made : ∀ i < m.vault.cells.length, ∃ contents, .made i contents ∈ m.past
  /-- An open key holds the octets it was made from, 32 of them and not all zero. -/
  intact : ∀ i contents, .made i contents ∈ m.past → (m.vault.cell i).isOpen = true →
    (m.vault.cell i).buffer = contents ∧ contents.length = 32 ∧ ∃ octet ∈ contents, octet ≠ 0
  /-- A retired key is closed, and its buffer is all zeros. -/
  erased : ∀ i, m.Retired i → m.vault.cell i = ⟨Octets.zeros 32, false⟩
  /-- No other key is closed. -/
  retired : ∀ i < m.vault.cells.length, (m.vault.cell i).isOpen = false → m.Retired i
  /-- A view shows the buffer of its key, also when its own name is given away. -/
  shown : ∀ i name, .viewed i name ∈ m.past →
    m.vault.shown i = (m.vault.cell i).buffer ∧ (m.vault.shown i).length = 32
  /-- What is seen under a name is the view that was returned under it last. -/
  seen : ∀ name, m.vault.snapshot.views.get? name =
    (m.past.findSome? (Event.viewUnder? name)).map fun i => (m.vault.cell i).buffer

namespace Moment.Invariant

variable {m : Moment} {i : Nat}

/-- A key is either retired and erased, or holds the octets it was made from. -/
theorem cell_cases (h : m.Invariant) (hi : i < m.vault.cells.length) :
    m.Retired i ∧ m.vault.cell i = erased ∨
      ∃ contents, isValidGeneral contents = true ∧ m.vault.cell i = ⟨contents, true⟩ := by
  obtain ⟨contents, hmade⟩ := h.made i hi
  have hholds : m.Holds i contents := h.holds i contents hmade
  by_cases hretired : m.Retired i
  · exact .inl ⟨hretired, hholds.erased_of_retired hretired⟩
  · exact .inr ⟨contents, hholds.valid, hholds.intact hretired⟩

theorem length_buffer (h : m.Invariant) (hi : i < m.vault.cells.length) :
    (m.vault.cell i).buffer.length = 32 := by
  rcases h.cell_cases hi with ⟨_, hcell⟩ | ⟨contents, hvalid, hcell⟩
  · rw [hcell]
    rfl
  · rw [hcell]
    exact (PrivateKey.isValidGeneral_iff.mp hvalid).1

theorem shown_eq (h : m.Invariant) (hi : i < m.vault.cells.length) :
    m.vault.shown i = (m.vault.cell i).buffer :=
  List.take_of_length_le (Nat.le_of_eq (h.length_buffer hi))

theorem kept (h : m.Invariant) : m.Kept where
  made := h.made
  intact i contents hmade hopen := by
    have hholds : m.Holds i contents := h.holds i contents hmade
    have hactive : ¬m.Retired i := by
      intro hretired
      rw [hholds.erased_of_retired hretired] at hopen
      cases hopen
    rw [hholds.intact hactive]
    exact ⟨rfl, PrivateKey.isValidGeneral_iff.mp hholds.valid⟩
  erased i hretired := by
    obtain ⟨contents, hmade⟩ := h.made i (h.retired_lt hretired)
    exact (h.holds i contents hmade).erased_of_retired hretired
  retired i hi hclosed := by
    rcases h.cell_cases hi with ⟨hretired, _⟩ | ⟨contents, _, hcell⟩
    · exact hretired
    · rw [hcell] at hclosed
      cases hclosed
  shown i name hviewed := by
    have hi : i < m.vault.cells.length := h.events _ hviewed
    rw [h.shown_eq hi]
    exact ⟨rfl, h.length_buffer hi⟩
  seen name := by
    show (m.vault.views.map m.vault.shown).get? name = _
    rw [Table.get?_map, h.views name]
    cases hlast : m.past.findSome? (Event.viewUnder? name) with
    | none => rfl
    | some i =>
      obtain ⟨e, hpast, hview⟩ := List.exists_of_findSome?_eq_some hlast
      have hi : i < m.vault.cells.length := by
        rw [← Event.cell_of_viewUnder? hview]
        exact h.events e hpast
      simp [h.shown_eq hi]

end Moment.Invariant

theorem course_invariant (derivation : Derivation) (steps : List Step) :
    ∀ m ∈ (course derivation steps).moments, m.Invariant :=
  (course_connected derivation steps).forall_moments .start fun _ _ h change => h.of_change change

/-- The assertion about the buffer of a key holds at every moment of every session: a key
    shows its buffer until it is closed. -/
theorem course_window (derivation : Derivation) (steps : List Step) :
    ∀ m ∈ (course derivation steps).moments, ∀ i < m.vault.cells.length,
      (m.vault.cell i).window =
        if (m.vault.cell i).isOpen then .ok (m.vault.cell i).buffer else .error .closed := by
  intro m hm i hi
  have hinvariant : m.Invariant := course_invariant derivation steps m hm
  exact PrivateKey.window_of_length fun _ => hinvariant.length_buffer hi

/-- The life of every secret in every session, faults included. What a session shows
    are moments of its course; at every moment the open keys hold what they were
    made from, the retired ones are erased, and views show the one or the other; and
    a key that is closed stays so. -/
theorem secrets_kept (derivation : Derivation) (steps : List Step) :
    (∀ report ∈ runAll derivation .empty steps, ∀ vault, report.Shows vault →
      ∃ m ∈ (course derivation steps).moments, m.vault = vault) ∧
    (∀ m ∈ (course derivation steps).moments, m.Kept) ∧
    (course derivation steps).moments.Pairwise fun later earlier => earlier.Before later := by
  refine ⟨?shows, ?kept, ?before⟩
  case shows =>
    intro report hreport vault hshows
    exact course_shows hreport hshows
  case kept =>
    intro m hm
    exact (course_invariant derivation steps m hm).kept
  case before =>
    exact (course_connected derivation steps).pairwise_moments .refl (fun _ _ _ => .trans)
      (fun _ _ => .of_change)

/-- A session that makes a key, views it, and gives up its name inside of a block. -/
def givenUpInside (secret : Octets) : List Step := [
  .action (.newKey "k" (.given (.octets secret))),
  .action (.view "k" "v"),
  .block "k" [.action (.dropKey "k")]]

theorem secrets_kept_given_up_inside :
    let c := course .standard (givenUpInside (Octets.ofNat 32 2))
    c.present.Kept ∧ c.present.Retired 0 ∧
      c.present.vault.snapshot.views.get? "v" = some (Octets.zeros 32) := by
  intro c
  have hkept : c.present.Kept := (secrets_kept .standard _).2.1 c.present c.present_mem
  have hretired : c.present.Retired 0 := .inr (.inl (by decide))
  have hlast : c.present.past.findSome? (Event.viewUnder? "v") = some 0 := by decide
  refine ⟨hkept, hretired, ?_⟩
  rw [hkept.seen, hlast, Option.map_some, hkept.erased 0 hretired]

/-- The loss of its name does not erase a key that a block holds. Inside of the block
    its view still shows the secret. -/
theorem shown_after_given_up_inside :
    let secret := Octets.ofNat 32 2
    ∃ m ∈ (course .standard (givenUpInside secret)).moments,
      (∃ report ∈ runAll .standard .empty (givenUpInside secret), report.Shows m.vault) ∧
        .released 0 ∈ m.past ∧ (m.vault.cell 0).buffer = secret ∧
        m.vault.snapshot.views.get? "v" = some secret ∧ secret ≠ Octets.zeros 32 := by
  intro secret
  -- The last moment but one is the one after the name was given up, and the last report
  -- is that of the block.
  let c := course .standard (givenUpInside secret)
  let reports := runAll .standard .empty (givenUpInside secret)
  have hshows : (reports.get ⟨2, by decide⟩).Shows (c.moments.get ⟨1, by decide⟩).vault :=
    .inside (List.mem_cons_self ..) (.after _)
  exact ⟨_, List.get_mem _ _, ⟨_, List.get_mem _ _, hshows⟩, by decide, by decide, by decide,
    by decide⟩

end WalletKeys.Session
