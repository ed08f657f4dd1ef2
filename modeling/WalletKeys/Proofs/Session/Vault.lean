import WalletKeys.Session.Vault

/-! # Changes of the vault

    How the changes of a vault look through its cells and its names. To close a key
    concerns its cell only, and to close it once more changes nothing. A new key gets
    a cell of its own. To give up a name is to close the key of the name, unless a
    block holds it, and to forget the name.
-/

namespace WalletKeys

/-! ## Section 1: Closing a key -/

namespace PrivateKey

/-- The key that is left after closing. -/
def erased : PrivateKey := ⟨Octets.zeros size, false⟩

/-- A closed key stays as it is. -/
theorem close_of_closed {key : PrivateKey} (h : key.isOpen = false) : key.close = key := by
  rw [close, h]
  simp

theorem close_of_open {contents : Octets} (h : isValidGeneral contents = true) :
    close ⟨contents, true⟩ = erased := by
  rw [close, if_pos rfl, wiped, (isValidGeneral_iff.mp h).1, erased]

end PrivateKey

namespace Session

/-! ## Section 2: Cells -/

theorem named_eq_ok_iff {α : Type} {table : Table α} {name : String} {value : α} :
    Vault.named table name = .ok value ↔ table.get? name = some value := by
  unfold Vault.named
  cases table.get? name with
  | none => simp
  | some value' => simp

/-- A name that was given a value has it, and the others are as before. -/
theorem named_set {α : Type} (table : Table α) (name other : String) (value : α) :
    Vault.named (table.set name value) other =
      if other = name then .ok value else Vault.named table other := by
  unfold Vault.named
  rw [Table.get?_set]
  by_cases hother : other = name
  · simp [hother]
  · simp [hother]

section

variable {before after : Vault} (held : List Nat) (vault : Vault) (name : String) (i : Nat)

theorem cell_of_cells_eq (h : after.cells = before.cells) (j : Nat) :
    after.cell j = before.cell j := by
  rw [Vault.cell, Vault.cell, h]

/-- A new cell leaves the others as they are. -/
theorem cell_of_append {key : PrivateKey} (h : after.cells = before.cells ++ [key]) (j : Nat) :
    after.cell j = if j = before.cells.length then key else before.cell j := by
  rw [Vault.cell, Vault.cell, h, List.getD_eq_getElem?_getD, List.getD_eq_getElem?_getD]
  rcases Nat.lt_trichotomy j before.cells.length with hlt | rfl | hgt
  · rw [if_neg (by omega), List.getElem?_append_left hlt]
  · simp
  · rw [if_neg (by omega), List.getElem?_eq_none (by simp; omega),
      List.getElem?_eq_none (by omega)]

@[simp] theorem length_cells_close : (vault.close i).cells.length = vault.cells.length :=
  List.length_modify ..

theorem cell_close (j : Nat) :
    (vault.close i).cell j = if j = i then (vault.cell j).close else vault.cell j := by
  rw [Vault.cell, Vault.cell, Vault.close, List.getD_eq_getElem?_getD,
    List.getD_eq_getElem?_getD, List.getElem?_modify]
  cases vault.cells[j]? with
  | none => simp [PrivateKey.close]
  | some key => simp [eq_comm (a := i)]

/-! ## Section 3: Names -/

/-- Giving up a name closes its key or changes nothing. -/
theorem release_cases : vault.release held name = vault ∨
    ∃ i, vault.release held name = vault.close i := by
  unfold Vault.release
  split
  · exact .inl rfl
  · split
    · exact .inl rfl
    · exact .inr ⟨_, rfl⟩

theorem length_cells_drop : (vault.drop held name).cells.length = vault.cells.length := by
  rcases release_cases held vault name with h | ⟨i, h⟩ <;> simp [Vault.drop, h]

theorem keys_drop : (vault.drop held name).keys = vault.keys.erase name := by
  rcases release_cases held vault name with h | ⟨i, h⟩ <;> simp [Vault.drop, h, Vault.close]

theorem views_drop : (vault.drop held name).views = vault.views := by
  rcases release_cases held vault name with h | ⟨i, h⟩ <;> simp [Vault.drop, h, Vault.close]

theorem buffers_drop : (vault.drop held name).buffers = vault.buffers := by
  rcases release_cases held vault name with h | ⟨i, h⟩ <;> simp [Vault.drop, h, Vault.close]

theorem publics_drop : (vault.drop held name).publics = vault.publics := by
  rcases release_cases held vault name with h | ⟨i, h⟩ <;> simp [Vault.drop, h, Vault.close]

/-- To store a key is to give up its name first. -/
theorem store_eq (key : PrivateKey) :
    vault.store held name key =
      { vault.drop held name with
        cells := (vault.drop held name).cells ++ [key]
        keys := (vault.drop held name).keys.set name (vault.drop held name).cells.length } := by
  unfold Vault.store Vault.drop
  rw [Table.set_erase]

/-- A new key gets the next cell, and the others are as its name was given up. -/
theorem cell_store (key : PrivateKey) (j : Nat) :
    (vault.store held name key).cell j =
      if j = vault.cells.length then key else (vault.drop held name).cell j := by
  rw [store_eq, ← length_cells_drop held vault name]
  exact cell_of_append rfl j

/-- A key that loses its name is closed unless a block holds it. -/
theorem cell_drop {name : String} {i : Nat} (named : vault.keys.get? name = some i) (j : Nat) :
    (vault.drop held name).cell j =
      if j = i ∧ i ∉ held then (vault.cell j).close else vault.cell j := by
  have hrelease : vault.release held name = if i ∈ held then vault else vault.close i := by
    rw [Vault.release, named]
  have hcells : (vault.drop held name).cells = (vault.release held name).cells := rfl
  rw [cell_of_cells_eq hcells, hrelease]
  by_cases hheld : i ∈ held
  · simp [hheld]
  · simp [hheld, cell_close]

/-- A key without the name stays as it is. -/
theorem cell_drop_of_ne {i : Nat} (h : vault.keys.get? name ≠ some i) :
    (vault.drop held name).cell i = vault.cell i := by
  cases hname : vault.keys.get? name with
  | none =>
    unfold Vault.drop Vault.release
    rw [hname]
    rfl
  | some j =>
    have hij : i ≠ j := by
      intro hij
      exact h (hij ▸ hname)
    simp [cell_drop held vault hname, hij]

end

end Session

end WalletKeys
