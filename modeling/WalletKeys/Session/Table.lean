/-! # Name tables

    A table gives values to names, each name at most once. Its view is `get?`:
    `get?_set` and `get?_erase` say how the two changes look through it, and
    nothing else about a table matters.
-/

namespace WalletKeys.Session

/-- Values by name. -/
structure Table (α : Type) where
  /-- The entries, last change first. -/
  entries : List (String × α)
  deriving Repr

namespace Table

variable {α β : Type}

/-- The table without names. -/
def empty : Table α := ⟨[]⟩

/-- The value of a name. -/
def get? (table : Table α) (name : String) : Option α := table.entries.lookup name

/-- The table without a name. -/
def erase (table : Table α) (name : String) : Table α :=
  ⟨table.entries.filter fun entry => entry.1 ≠ name⟩

/-- The table with a value given to a name, in place of any other. -/
def set (table : Table α) (name : String) (value : α) : Table α :=
  ⟨(name, value) :: (table.erase name).entries⟩

/-- The table with all values changed. -/
def map (f : α → β) (table : Table α) : Table β :=
  ⟨table.entries.map fun entry => (entry.1, f entry.2)⟩

@[simp] theorem erase_erase (table : Table α) (name : String) :
    (table.erase name).erase name = table.erase name := by
  simp [erase]

theorem set_erase (table : Table α) (name : String) (value : α) :
    (table.erase name).set name value = table.set name value := by
  rw [set, erase_erase, set]

/-- A look-up passes over an entry of another name. -/
theorem lookup_cons_of_ne {name key : String} (h : name ≠ key) (value : α)
    (rest : List (String × α)) : ((key, value) :: rest).lookup name = rest.lookup name := by
  have hbeq : (name == key) = false := by simpa using h
  rw [List.lookup_cons, hbeq]

theorem get?_erase (table : Table α) (name other : String) :
    (table.erase name).get? other = if other = name then none else table.get? other := by
  obtain ⟨entries⟩ := table
  unfold get? erase
  induction entries with
  | nil => simp
  | cons entry rest ih =>
    obtain ⟨key, value⟩ := entry
    by_cases hkey : key = name
    · -- The entry goes, so the rest decides.
      rw [List.filter_cons_of_neg (by simpa using hkey), ih]
      by_cases hother : other = name
      · simp [hother]
      · rw [if_neg hother, if_neg hother,
          lookup_cons_of_ne (fun h => hother (h.trans hkey))]
    · rw [List.filter_cons_of_pos (by simpa using hkey)]
      by_cases hother : other = key
      · subst hother
        simp [hkey]
      · rw [lookup_cons_of_ne hother, lookup_cons_of_ne hother, ih]

theorem get?_set (table : Table α) (name other : String) (value : α) :
    (table.set name value).get? other = if other = name then some value else table.get? other := by
  by_cases hname : other = name
  · subst hname
    simp [set, get?]
  · have herase := get?_erase table name other
    rw [if_neg hname] at herase ⊢
    rw [← herase]
    exact lookup_cons_of_ne hname value _

theorem get?_map (f : α → β) (table : Table α) (name : String) :
    (table.map f).get? name = (table.get? name).map f := by
  obtain ⟨entries⟩ := table
  unfold get? map
  induction entries with
  | nil => rfl
  | cons entry rest ih =>
    obtain ⟨key, value⟩ := entry
    by_cases hname : name = key
    · subst hname
      simp
    · rw [List.map_cons, lookup_cons_of_ne hname, lookup_cons_of_ne hname, ih]

end Table

end WalletKeys.Session
