import MotionBlocks.Block.Basic

namespace MotionBlocks

/-!
# The block store

One cell for every block that was ever created, in the order of creation.  A
deleted block leaves its cell empty, so the number of cells names the next block
and no number is used twice.
-/

structure BlockStore where
  cells : Array (Option Block)
  /-- The number of blocks that are there. -/
  size : Nat
  size_eq : size = cells.countP Option.isSome

namespace BlockStore

def empty : BlockStore where
  cells := #[]
  size := 0
  size_eq := rfl

/-! ## Counting cells -/

theorem countP_isSome_modify {α : Type} (cells : Array (Option α)) (serial : Nat)
    (change : α → α) :
    (cells.modify serial (Option.map change)).countP Option.isSome =
      cells.countP Option.isSome := by
  rw [← Array.countP_toList, ← Array.countP_toList, Array.toList_modify]
  induction cells.toList generalizing serial with
  | nil => simp
  | cons cell rest ih => cases serial <;> simp [List.countP_cons, ih]

theorem countP_isSome_set_none {α : Type} (cells : Array (Option α)) (serial : Nat) :
    (cells.setIfInBounds serial none).countP Option.isSome =
      if (cells[serial]?).join.isSome then cells.countP Option.isSome - 1
      else cells.countP Option.isSome := by
  by_cases inside : serial < cells.size
  · rw [Array.setIfInBounds_def, dif_pos inside, Array.countP_set]
    cases read : cells[serial] <;> simp [inside, read]
  · simp [Array.setIfInBounds_def, inside]

/-! ## Operations -/

/-- The block with an identifier, if it is there. -/
def get? (store : BlockStore) : BlockId → Option Block
  | .numbered serial => (store.cells[serial]?).join
  | .named _ => none

def contains (store : BlockStore) (id : BlockId) : Bool :=
  (store.get? id).isSome

/-- The identifier that the next block will get. -/
def nextId (store : BlockStore) : BlockId :=
  .numbered store.cells.size

/-- Adds a block under the next identifier. -/
def push (store : BlockStore) (block : Block) : BlockStore where
  cells := store.cells.push (some block)
  size := store.size + 1
  size_eq := by simp [store.size_eq]

/-- Changes the block with an identifier; without such a block, nothing. -/
def modify (store : BlockStore) (id : BlockId) (change : Block → Block) : BlockStore :=
  match id with
  | .numbered serial =>
    { cells := store.cells.modify serial (Option.map change)
      size := store.size
      size_eq := by rw [countP_isSome_modify, store.size_eq] }
  | .named _ => store

/-- Empties the cell of one block. -/
def erase (store : BlockStore) (id : BlockId) : BlockStore :=
  match id with
  | .numbered serial =>
    { cells := store.cells.setIfInBounds serial none
      size := if (store.cells[serial]?).join.isSome then store.size - 1 else store.size
      size_eq := by rw [countP_isSome_set_none, store.size_eq] }
  | .named _ => store

/-- Empties every cell. -/
def wipe (store : BlockStore) : BlockStore where
  cells := Array.replicate store.cells.size none
  size := 0
  size_eq := by simp [Array.countP_replicate]

/-- The blocks with their identifiers, in the order of creation. -/
def toList (store : BlockStore) : List (BlockId × Block) :=
  store.cells.toList.zipIdx.filterMap fun (cell, serial) =>
    cell.map fun block => (.numbered serial, block)

/-! ## What each operation does to a lookup -/

@[simp] theorem get?_empty (id : BlockId) : empty.get? id = none := by
  cases id <;> simp [empty, get?]

theorem get?_push (store : BlockStore) (block : Block) (id : BlockId) :
    (store.push block).get? id = if id = store.nextId then some block else store.get? id := by
  cases id with
  | named text => simp [get?, nextId]
  | numbered serial =>
    simp only [get?, push, nextId, BlockId.numbered.injEq, Array.getElem?_push]
    split <;> rfl

theorem get?_modify (store : BlockStore) (id other : BlockId) (change : Block → Block) :
    (store.modify id change).get? other =
      if other = id then (store.get? other).map change else store.get? other := by
  cases id with
  | named text => cases other <;> simp [get?, modify]
  | numbered serial =>
    cases other with
    | named text => simp [get?]
    | numbered otherSerial =>
      simp only [get?, modify, Array.getElem?_modify, BlockId.numbered.injEq]
      by_cases same : serial = otherSerial
      · subst same
        cases store.cells[serial]? <;> simp
      · simp [same, Ne.symm same]

/-- A change matters only for the block that is there. -/
theorem modify_congr {store : BlockStore} {id : BlockId} {change other : Block → Block}
    (same : ∀ block, store.get? id = some block → change block = other block) :
    store.modify id change = store.modify id other := by
  cases id with
  | named text => rfl
  | numbered serial =>
    have cells : store.cells.modify serial (Option.map change) =
        store.cells.modify serial (Option.map other) := by
      refine Array.ext_getElem? fun index => ?_
      rw [Array.getElem?_modify, Array.getElem?_modify]
      by_cases here : serial = index
      · subst here
        rw [if_pos rfl, if_pos rfl]
        cases read : store.cells[serial]? with
        | none => rfl
        | some cell =>
          cases cell with
          | none => rfl
          | some block => simp [same block (by simp [get?, read])]
      · rw [if_neg here, if_neg here]
    simp only [modify, cells]

/-- Changes of different blocks may be made in any order. -/
theorem modify_comm {store : BlockStore} {first second : BlockId} (different : first ≠ second)
    (change other : Block → Block) : (store.modify first change).modify second other =
      (store.modify second other).modify first change := by
  cases first with
  | named text => cases second <;> rfl
  | numbered serial =>
    cases second with
    | named text => rfl
    | numbered otherSerial =>
      have apart : serial ≠ otherSerial := fun same => different (congrArg _ same)
      have cells : (store.cells.modify serial (Option.map change)).modify otherSerial
          (Option.map other) = (store.cells.modify otherSerial (Option.map other)).modify serial
            (Option.map change) := by
        refine Array.ext_getElem? fun index => ?_
        simp only [Array.getElem?_modify]
        by_cases here : serial = index
        · subst here
          simp [apart.symm]
        · simp [here]
      simp only [modify, cells]

theorem get?_erase (store : BlockStore) (id other : BlockId) :
    (store.erase id).get? other = if other = id then none else store.get? other := by
  cases id with
  | named text => cases other <;> simp [get?, erase]
  | numbered serial =>
    cases other with
    | named text => simp [get?]
    | numbered otherSerial =>
      simp only [get?, erase, Array.getElem?_setIfInBounds, BlockId.numbered.injEq]
      by_cases same : serial = otherSerial
      · subst same
        by_cases inside : serial < store.cells.size <;> simp [inside]
      · simp [same, Ne.symm same]

@[simp] theorem get?_wipe (store : BlockStore) (id : BlockId) : store.wipe.get? id = none := by
  cases id with
  | named text => rfl
  | numbered serial =>
    simp only [get?, wipe, Array.getElem?_replicate]
    split <;> rfl

/-! ## The list of a store -/

theorem mem_toList_iff (store : BlockStore) (id : BlockId) (block : Block) :
    (id, block) ∈ store.toList ↔ store.get? id = some block := by
  simp only [toList, List.mem_filterMap, Prod.exists, List.mem_zipIdx_iff_getElem?,
    Option.map_eq_some_iff, Prod.mk.injEq]
  constructor
  · rintro ⟨cell, serial, read, found, rfl, rfl, rfl⟩
    simp_all [get?]
  · intro read
    cases id with
    | named text => simp [get?] at read
    | numbered serial =>
      simp only [get?, Option.join_eq_some_iff] at read
      exact ⟨some block, serial, by simpa using read, block, rfl, rfl, rfl⟩

theorem length_toList (store : BlockStore) : store.toList.length = store.size := by
  have cells : store.cells.toList = store.cells.toList.zipIdx.map Prod.fst := by
    rw [List.zipIdx_map_fst]
  rw [store.size_eq, ← Array.countP_toList, cells, List.countP_map, toList,
    List.length_filterMap_eq_countP]
  congr 1
  funext entry
  simp

/-- The list of a store is in the order of creation. -/
theorem pairwise_toList (store : BlockStore) :
    (store.toList.map (·.1)).Pairwise BlockId.Before := by
  have serials : store.cells.toList.zipIdx.Pairwise fun first second => first.2 < second.2 := by
    refine List.pairwise_map.mp ?_
    rw [List.zipIdx_map_snd]
    exact List.pairwise_lt_range'
  rw [List.pairwise_map, toList, List.pairwise_filterMap]
  refine serials.imp ?_
  intro first second less firstEntry firstFound secondEntry secondFound
  obtain ⟨_, -, rfl⟩ := Option.map_eq_some_iff.mp firstFound
  obtain ⟨_, -, rfl⟩ := Option.map_eq_some_iff.mp secondFound
  exact less

end BlockStore
end MotionBlocks
