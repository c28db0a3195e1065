/-! # Maps from names

A map from names to values that keeps its entries in the order of the names, code point by code
point. The order is part of the type, so two maps with the same entries are equal, and a listing
of a map needs no sorting.

* `NameMap.find?` looks a name up.
* `NameMap.insert` gives a name a value, in place of the one it had.
* `find?_insert_self` and `find?_insert_of_ne` say what a look-up finds afterwards. -/

namespace PackageCheck

/-- Entries in the strictly ascending order of their names. -/
structure NameMap (α : Type u) where
  entries : List (String × α)
  ascending : entries.Pairwise (fun a b => a.1 < b.1)

namespace NameMap

variable {α : Type u}

/-- The map without entries. -/
def empty : NameMap α := ⟨[], .nil⟩

instance : EmptyCollection (NameMap α) := ⟨empty⟩

instance : Inhabited (NameMap α) := ⟨empty⟩

/-- The value of the first entry of `name`. -/
def findEntry (name : String) : List (String × α) → Option α
  | [] => none
  | (key, value) :: rest => if name = key then some value else findEntry name rest

/-- The value of `name`. -/
def find? (m : NameMap α) (name : String) : Option α :=
  findEntry name m.entries

/-- Whether `name` has a value. -/
def contains (m : NameMap α) (name : String) : Bool :=
  (m.find? name).isSome

/-- The names that have a value, in ascending order. -/
def names (m : NameMap α) : List String :=
  m.entries.map (·.1)

/-! ## Insertion -/

/-- Puts an entry at its place among ascending entries. -/
def insertEntry (name : String) (value : α) : List (String × α) → List (String × α)
  | [] => [(name, value)]
  | (key, old) :: rest =>
    if name = key then (name, value) :: rest
    else if name < key then (name, value) :: (key, old) :: rest
    else (key, old) :: insertEntry name value rest

/-- The names after an insertion are the new one and those before. -/
theorem mem_insertEntry {name : String} {value : α} {x : String × α} :
    ∀ {entries : List (String × α)}, x ∈ insertEntry name value entries →
      x = (name, value) ∨ x ∈ entries
  | [], h => by
    simp only [insertEntry, List.mem_singleton] at h
    exact Or.inl h
  | (key, old) :: rest, h => by
    simp only [insertEntry] at h
    split at h
    · rcases List.mem_cons.mp h with h | h
      · exact Or.inl h
      · exact Or.inr (List.mem_cons_of_mem _ h)
    · split at h
      · exact List.mem_cons.mp h
      · rcases List.mem_cons.mp h with h | h
        · exact Or.inr (h ▸ List.mem_cons_self)
        · exact (mem_insertEntry h).imp id (List.mem_cons_of_mem _)

/-- An insertion keeps the entries ascending. -/
theorem ascending_insertEntry (name : String) (value : α) :
    ∀ {entries : List (String × α)}, entries.Pairwise (fun a b => a.1 < b.1) →
      (insertEntry name value entries).Pairwise (fun a b => a.1 < b.1)
  | [], _ => by simp [insertEntry]
  | (key, old) :: rest, h => by
    obtain ⟨hkey, hrest⟩ := List.pairwise_cons.mp h
    simp only [insertEntry]
    split
    next heq => exact List.pairwise_cons.mpr ⟨fun x hx => heq ▸ hkey x hx, hrest⟩
    next hne =>
      split
      next hlt =>
        refine List.pairwise_cons.mpr ⟨fun x hx => ?_, h⟩
        rcases List.mem_cons.mp hx with rfl | hx
        · exact hlt
        · exact String.lt_trans hlt (hkey x hx)
      next hnlt =>
        refine List.pairwise_cons.mpr ⟨fun x hx => ?_, ascending_insertEntry name value hrest⟩
        rcases mem_insertEntry hx with rfl | hx
        · exact Std.lt_of_le_of_ne (String.not_lt.mp hnlt) (Ne.symm hne)
        · exact hkey x hx

/-- Gives `name` the value `value`. -/
def insert (m : NameMap α) (name : String) (value : α) : NameMap α :=
  ⟨insertEntry name value m.entries, ascending_insertEntry name value m.ascending⟩

/-- The map of the given entries, where the last entry of a name counts. -/
def ofList (entries : List (String × α)) : NameMap α :=
  entries.foldl (fun m entry => m.insert entry.1 entry.2) empty

/-! ## Looking up after an insertion -/

@[simp]
theorem find?_empty (name : String) : (empty : NameMap α).find? name = none := rfl

theorem findEntry_insertEntry_self (name : String) (value : α) :
    ∀ entries : List (String × α), findEntry name (insertEntry name value entries) = some value
  | [] => by simp [insertEntry, findEntry]
  | (key, old) :: rest => by
    simp only [insertEntry]
    split
    next => simp [findEntry]
    next hne =>
      split
      next => simp [findEntry]
      next => simp [findEntry, hne, findEntry_insertEntry_self name value rest]

theorem findEntry_insertEntry_of_ne {name other : String} (value : α) (h : other ≠ name) :
    ∀ entries : List (String × α),
      findEntry other (insertEntry name value entries) = findEntry other entries
  | [] => by simp [insertEntry, findEntry, h]
  | (key, old) :: rest => by
    simp only [insertEntry]
    split
    next heq => subst heq; simp [findEntry, h]
    next =>
      split
      next => simp [findEntry, h]
      next => simp [findEntry, findEntry_insertEntry_of_ne value h rest]

@[simp]
theorem find?_insert_self (m : NameMap α) (name : String) (value : α) :
    (m.insert name value).find? name = some value :=
  findEntry_insertEntry_self name value m.entries

theorem find?_insert_of_ne (m : NameMap α) {name other : String} (value : α)
    (h : other ≠ name) : (m.insert name value).find? other = m.find? other :=
  findEntry_insertEntry_of_ne value h m.entries

theorem mem_of_find?_foldl {name : String} {value : α} : ∀ {entries : List (String × α)}
    {m : NameMap α},
    (entries.foldl (fun m entry => m.insert entry.1 entry.2) m).find? name = some value →
      (name, value) ∈ entries ∨ m.find? name = some value
  | [], m, found => Or.inr found
  | (key, old) :: rest, m, found => by
    rw [List.foldl_cons] at found
    rcases mem_of_find?_foldl found with member | found
    · exact Or.inl (List.mem_cons_of_mem _ member)
    · by_cases same : name = key
      · subst same
        rw [find?_insert_self, Option.some.injEq] at found
        exact Or.inl (found ▸ List.mem_cons_self)
      · rw [find?_insert_of_ne m old same] at found
        exact Or.inr found

/-- A value in the map of a list is in the list. -/
theorem mem_of_find?_ofList {entries : List (String × α)} {name : String} {value : α}
    (found : (ofList entries).find? name = some value) : (name, value) ∈ entries :=
  (mem_of_find?_foldl found).resolve_right nofun

end NameMap

end PackageCheck
