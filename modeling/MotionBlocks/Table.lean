namespace MotionBlocks

/-!
# Tables by name

A small table from names to values: the fields of a block and its value slots.
A name occurs at most once, and putting a value under a known name replaces the
old one in its place.
-/

structure Table (α : Type) where
  entries : List (String × α)
deriving BEq, DecidableEq, Repr

namespace Table

variable {α : Type}

def empty : Table α where
  entries := []

instance : EmptyCollection (Table α) where
  emptyCollection := empty

/-- The value under a name. -/
def get? (table : Table α) (name : String) : Option α :=
  table.entries.lookup name

/-- Replaces the value of a listed name, or appends the name. -/
def putEntry (name : String) (value : α) : List (String × α) → List (String × α)
  | [] => [(name, value)]
  | (listed, old) :: rest =>
    if name == listed then (name, value) :: rest else (listed, old) :: putEntry name value rest

/-- Puts a value under a name. -/
def put (table : Table α) (name : String) (value : α) : Table α where
  entries := putEntry name value table.entries

/-- Keeps the entries whose value passes a test. -/
def keep (table : Table α) (test : α → Bool) : Table α where
  entries := table.entries.filter fun entry => test entry.2

/-- All values, in the order of their names' first entry. -/
def values (table : Table α) : List α :=
  table.entries.map (·.2)

theorem lookup_putEntry (name other : String) (value : α) (entries : List (String × α)) :
    (putEntry name value entries).lookup other =
      if other == name then some value else entries.lookup other := by
  induction entries with
  | nil => cases same : other == name <;> simp [putEntry, List.lookup_cons, same]
  | cons entry rest ih =>
    obtain ⟨listed, old⟩ := entry
    by_cases known : name = listed
    · subst known
      cases same : other == name <;> simp [putEntry, List.lookup_cons, same]
    · cases same : other == listed with
      | false => simp [putEntry, known, List.lookup_cons, same, ih]
      | true =>
        have distinct : other ≠ name := fun equal => known (equal ▸ eq_of_beq same)
        simp [putEntry, known, List.lookup_cons, same, distinct]

@[simp] theorem get?_empty (name : String) : (∅ : Table α).get? name = none := rfl

theorem get?_put (table : Table α) (name other : String) (value : α) :
    (table.put name value).get? other = if other == name then some value else table.get? other :=
  lookup_putEntry name other value table.entries

/-! ## Tables that list no name twice -/

/-- No name is listed twice. -/
def Distinct (table : Table α) : Prop :=
  (table.entries.map (·.1)).Nodup

theorem distinct_empty : (∅ : Table α).Distinct :=
  List.nodup_nil

theorem map_fst_putEntry (name : String) (value : α) (entries : List (String × α)) :
    (putEntry name value entries).map (·.1) =
      if name ∈ entries.map (·.1) then entries.map (·.1) else entries.map (·.1) ++ [name] := by
  induction entries with
  | nil => simp [putEntry]
  | cons entry rest ih =>
    obtain ⟨listed, old⟩ := entry
    by_cases same : name = listed
    · subst same
      simp [putEntry]
    · have different : (name == listed) = false := by simpa using same
      simp only [putEntry, different, Bool.false_eq_true, if_false, List.map_cons, ih,
        List.mem_cons, same, false_or]
      split <;> simp

/-- A name that is not listed is appended. -/
theorem entries_put_of_free {table : Table α} {name : String} (free : table.get? name = none)
    (value : α) : (table.put name value).entries = table.entries ++ [(name, value)] := by
  obtain ⟨entries⟩ := table
  unfold get? at free
  unfold put
  dsimp only at free ⊢
  induction entries with
  | nil => rfl
  | cons entry rest ih =>
    obtain ⟨listed, old⟩ := entry
    rw [List.lookup_cons] at free
    cases same : name == listed with
    | true => simp [same] at free
    | false =>
      rw [same] at free
      simp [putEntry, same, ih free]

theorem Distinct.put {table : Table α} (distinct : table.Distinct) (name : String) (value : α) :
    (table.put name value).Distinct := by
  unfold Distinct Table.put at *
  rw [map_fst_putEntry]
  split
  · exact distinct
  · rename_i fresh
    refine List.nodup_append.mpr ⟨distinct, by simp, ?_⟩
    intro listed member other last equal
    rw [List.mem_singleton] at last
    exact fresh (last ▸ equal ▸ member)

theorem Distinct.keep {table : Table α} (distinct : table.Distinct) (test : α → Bool) :
    (table.keep test).Distinct :=
  distinct.sublist (List.filter_sublist.map _)

theorem lookup_eq_some_iff {entries : List (String × α)} (distinct : (entries.map (·.1)).Nodup)
    (name : String) (value : α) : entries.lookup name = some value ↔ (name, value) ∈ entries := by
  induction entries with
  | nil => simp
  | cons entry rest ih =>
    obtain ⟨listed, old⟩ := entry
    obtain ⟨fresh, others⟩ := List.nodup_cons.mp distinct
    by_cases same : name = listed
    · subst same
      have absent : (name, value) ∉ rest :=
        fun member => fresh (List.mem_map.mpr ⟨_, member, rfl⟩)
      simp [absent, eq_comm]
    · have different : (name == listed) = false := by simpa using same
      simp [List.lookup_cons, different, ih others, same]

/-- With distinct names, what is found under a name is what is listed under it. -/
theorem Distinct.get?_eq_some_iff {table : Table α} (distinct : table.Distinct) (name : String)
    (value : α) : table.get? name = some value ↔ (name, value) ∈ table.entries :=
  lookup_eq_some_iff distinct name value

theorem Distinct.mem_values_iff {table : Table α} (distinct : table.Distinct) (value : α) :
    value ∈ table.values ↔ ∃ name, table.get? name = some value := by
  simp only [distinct.get?_eq_some_iff, Table.values, List.mem_map, Prod.exists, exists_eq_right]

/-- With distinct names, dropping entries drops exactly the values that fail. -/
theorem Distinct.get?_keep {table : Table α} (distinct : table.Distinct) (test : α → Bool)
    (name : String) : (table.keep test).get? name = (table.get? name).filter test := by
  apply Option.ext
  intro value
  rw [(distinct.keep test).get?_eq_some_iff, Option.filter_eq_some_iff, distinct.get?_eq_some_iff]
  exact List.mem_filter

end Table
end MotionBlocks
