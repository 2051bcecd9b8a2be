import MotionBlocks.Proofs.Forest.Links
import MotionBlocks.Workspace.Edit

namespace MotionBlocks

/-!
# The links of a workspace

The blocks of a workspace, read as links in both directions.  A change of one
block changes the links that start at it, and nothing else; from that follows
what each piece of an edit does to the links.
-/

/-- A block that holds nested chains only if its kind does, and lists each slot
once. -/
structure Block.Regular (block : Block) : Prop where
  loop_of_body : block.body ≠ none → block.kind = .loop
  distinct : block.slots.Distinct

namespace Workspace

/-- The links that the blocks store. -/
def links (workspace : Workspace) : Links where
  child above place := (workspace.block? above).bind (·.child? place)
  previous below := (workspace.block? below).bind (·.previous)
  parent below := (workspace.block? below).bind (·.parent)

/-- The state that edits keep a workspace in. -/
structure WellFormed (workspace : Workspace) : Prop where
  sound : workspace.links.Sound
  regular : ∀ {id block}, workspace.block? id = some block → block.Regular

/-! ## Reading a changed workspace -/

section

variable {workspace : Workspace}

@[simp] theorem block?_empty (id : BlockId) : empty.block? id = none :=
  BlockStore.get?_empty id

theorem block?_revise (id other : BlockId) (change : Block → Block) (workspace : Workspace) :
    (workspace.revise id change).block? other =
      if other = id then (workspace.block? other).map change else workspace.block? other :=
  workspace.store.get?_modify id other change

theorem block?_reviseLinked (link : Option BlockId) (other : BlockId) (change : Block → Block)
    (workspace : Workspace) :
    (workspace.reviseLinked link change).block? other =
      if link = some other then (workspace.block? other).map change
      else workspace.block? other := by
  cases link with
  | none => simp [reviseLinked]
  | some id => simp [reviseLinked, block?_revise, eq_comm]

theorem announce_store (kind : ChangeKind) (id : BlockId) (workspace : Workspace) :
    (workspace.announce kind id).store = workspace.store := by
  unfold announce
  generalize (⟨kind, id, workspace.origin⟩ : Change) = change
  induction workspace.observers.entries generalizing workspace with
  | nil => rfl
  | cons observer rest ih =>
    refine (ih _).trans ?_
    rcases observer with ⟨number, audience⟩
    cases audience <;> rfl

@[simp] theorem block?_announce (kind : ChangeKind) (id other : BlockId) (workspace : Workspace) :
    (workspace.announce kind id).block? other = workspace.block? other := by
  unfold block?
  rw [announce_store]

theorem size_announce (kind : ChangeKind) (id : BlockId) (workspace : Workspace) :
    (workspace.announce kind id).size = workspace.size := by
  rw [size, announce_store, size]

theorem create_fst (kind : BlockKind) (workspace : Workspace) :
    (workspace.create kind).1 = workspace.store.nextId := rfl

/-- The identifier that the next block will get is free. -/
theorem block?_nextId (workspace : Workspace) :
    workspace.block? workspace.store.nextId = none := by
  simp [block?, BlockStore.get?, BlockStore.nextId]

theorem block?_create (kind : BlockKind) (workspace : Workspace) (id : BlockId) :
    (workspace.create kind).2.block? id =
      if id = workspace.store.nextId then some (.ofKind kind) else workspace.block? id := by
  simp only [create, block?_announce]
  exact workspace.store.get?_push (.ofKind kind) id

theorem block?_remove (doomed : List BlockId) (workspace : Workspace) (id : BlockId) :
    (workspace.remove doomed).block? id = if id ∈ doomed then none else workspace.block? id := by
  unfold remove block?
  generalize workspace.store = store
  induction doomed generalizing store with
  | nil => simp
  | cons first rest ih =>
    rw [List.foldl_cons, ih, BlockStore.get?_erase]
    by_cases inRest : id ∈ rest <;> by_cases isFirst : id = first <;> simp [inRest, isFirst]

theorem clear_store (workspace : Workspace) : workspace.clear.store = workspace.store.wipe := by
  unfold clear
  generalize wiped : ({ workspace with store := workspace.store.wipe } : Workspace) = start
  have store : start.store = workspace.store.wipe := by rw [← wiped]
  rw [← store]
  clear store wiped
  induction workspace.tops generalizing start with
  | nil => rfl
  | cons top rest ih =>
    rw [List.foldl_cons, ih, announce_store]

@[simp] theorem block?_clear (workspace : Workspace) (id : BlockId) :
    workspace.clear.block? id = none := by
  unfold block?
  rw [clear_store]
  exact BlockStore.get?_wipe _ id

theorem links_congr {first second : Workspace} (same : ∀ id, first.block? id = second.block? id) :
    first.links = second.links := by
  simp only [links, same]

@[simp] theorem links_announce (kind : ChangeKind) (id : BlockId) (workspace : Workspace) :
    (workspace.announce kind id).links = workspace.links :=
  links_congr fun other => block?_announce kind id other workspace

theorem WellFormed.congr {first second : Workspace} (wellFormed : first.WellFormed)
    (same : ∀ id, second.block? id = first.block? id) : second.WellFormed where
  sound := links_congr same ▸ wellFormed.sound
  regular := by
    intro id block found
    exact wellFormed.regular (same id ▸ found)

end

/-! ## Blocks at the ends of links -/

section

variable {workspace : Workspace} {id above below : BlockId} {upper lower : Block} {place : Place}

theorem child_eq_some_iff :
    workspace.links.child above place = some below ↔
      ∃ block, workspace.block? above = some block ∧ block.child? place = some below := by
  simp [links, Option.bind_eq_some_iff]

theorem child_of_block (found : workspace.block? above = some upper) (place : Place) :
    workspace.links.child above place = upper.child? place := by
  simp [links, found]

theorem previous_of_block (found : workspace.block? below = some lower) :
    workspace.links.previous below = lower.previous := by
  simp [links, found]

theorem parent_of_block (found : workspace.block? below = some lower) :
    workspace.links.parent below = lower.parent := by
  simp [links, found]

theorem WellFormed.isSome_above (held : workspace.links.Holds above below) :
    (workspace.block? above).isSome := by
  rcases held with ⟨place, held⟩
  rcases child_eq_some_iff.mp held with ⟨block, found, -⟩
  simp [found]

theorem WellFormed.isSome_below (wellFormed : workspace.WellFormed)
    (held : workspace.links.Holds above below) : (workspace.block? below).isSome := by
  rcases held with ⟨place, held⟩
  have anchored := wellFormed.sound.previous_or_parent_of_child held
  cases found : workspace.block? below with
  | none => simp [links, found] at anchored
  | some block => rfl

/-- Whatever a block is linked to, in either direction, is there. -/
theorem WellFormed.isSome_linked (wellFormed : workspace.WellFormed) {other : BlockId}
    (linked : (∃ place, workspace.links.child id place = some other) ∨
      workspace.links.previous id = some other ∨ workspace.links.parent id = some other) :
    (workspace.block? other).isSome := by
  rcases linked with ⟨place, held⟩ | before | owner
  · exact wellFormed.isSome_below ⟨place, held⟩
  · exact WellFormed.isSome_above ⟨.next, (wellFormed.sound.next_iff _ _).mpr before⟩
  · rcases (wellFormed.sound.plugged_iff _ _).mpr owner with ⟨place, -, held⟩
    exact WellFormed.isSome_above ⟨place, held⟩

theorem WellFormed.isSome_previous (wellFormed : workspace.WellFormed)
    (found : workspace.block? below = some lower) (before : lower.previous = some above) :
    (workspace.block? above).isSome :=
  wellFormed.isSome_linked (.inr (.inl ((previous_of_block found).trans before)))

theorem WellFormed.isSome_parent (wellFormed : workspace.WellFormed)
    (found : workspace.block? below = some lower) (owner : lower.parent = some above) :
    (workspace.block? above).isSome :=
  wellFormed.isSome_linked (.inr (.inr ((parent_of_block found).trans owner)))

/-- Two blocks tell the same of the link from the one to its successor. -/
theorem WellFormed.next_iff_previous (wellFormed : workspace.WellFormed)
    (foundAbove : workspace.block? above = some upper)
    (foundBelow : workspace.block? below = some lower) :
    upper.next = some below ↔ lower.previous = some above := by
  have linked := wellFormed.sound.next_iff above below
  rwa [child_of_block foundAbove, previous_of_block foundBelow] at linked

/-- A block that is plugged into another one names it. -/
theorem WellFormed.parent_of_plugged (wellFormed : workspace.WellFormed)
    (foundAbove : workspace.block? above = some upper)
    (foundBelow : workspace.block? below = some lower) (plugged : place ≠ .next)
    (held : upper.child? place = some below) : lower.parent = some above := by
  rw [← parent_of_block foundBelow, ← wellFormed.sound.plugged_iff]
  exact ⟨place, plugged, (child_of_block foundAbove place).trans held⟩

end

/-! ## What pieces of an edit do to the links -/

section

variable {workspace : Workspace}

/-- Taking a block off its place changes the block, what it followed and what it
was plugged into. -/
theorem block?_detach {id : BlockId} {block : Block} (found : workspace.block? id = some block)
    (other : BlockId) :
    (workspace.detach id).block? other = (workspace.block? other).map fun old =>
      { old with
        previous := if other = id then none else old.previous
        parent := if other = id then none else old.parent
        next := if block.previous = some other then none else old.next
        body := if block.parent = some other ∧ old.body = some id then none else old.body
        slots := if block.parent = some other then old.slots.keep (· != id) else old.slots } := by
  simp only [detach, found, block?_reviseLinked, block?_revise]
  cases workspace.block? other with
  | none => simp
  | some old =>
    by_cases here : other = id <;> by_cases before : block.previous = some other <;>
      by_cases owner : block.parent = some other <;> simp [here, before, owner] <;> simp_all

theorem WellFormed.links_detach (wellFormed : workspace.WellFormed) (id : BlockId) :
    (workspace.detach id).links = workspace.links.detach id := by
  cases found : workspace.block? id with
  | none =>
    have unheld : ∀ above place, workspace.links.child above place ≠ some id := by
      intro above place held
      have := wellFormed.isSome_below ⟨place, held⟩
      simp [found] at this
    have same : workspace.detach id = workspace := by simp [detach, found]
    rw [same]
    ext other
    · rename_i place below
      rw [Links.detach_child_eq_some_iff]
      exact ⟨fun held => ⟨held, fun equal => unheld other place (equal ▸ held)⟩, (·.1)⟩
    · by_cases here : other = id <;> simp [links, Links.detach, here, found]
    · by_cases here : other = id <;> simp [links, Links.detach, here, found]
  | some block =>
    have read := block?_detach found
    ext other
    · rename_i place below
      rw [Links.detach_child_eq_some_iff]
      cases there : workspace.block? other with
      | none => simp [links, read, there]
      | some old =>
        have followed := wellFormed.next_iff_previous there found
        have kept := (wellFormed.regular there).distinct.get?_keep (· != id)
        rw [child_of_block there]
        simp only [links, read, there, Option.map_some, Option.bind_some]
        cases place with
        | next =>
          simp only [Block.child?] at *
          grind
        | body =>
          have owned := wellFormed.parent_of_plugged there found (by simp : Place.body ≠ .next)
          simp only [Block.child?] at *
          grind
        | slot name =>
          have owned := wellFormed.parent_of_plugged there found (by simp : Place.slot name ≠ .next)
          simp only [Block.child?] at *
          split
          · rw [kept]
            simp [Option.filter_eq_some_iff]
          · grind
    · cases old : workspace.block? other <;> simp [links, Links.detach, read, old]
    · cases old : workspace.block? other <;> simp [links, Links.detach, read, old]

theorem WellFormed.detach (wellFormed : workspace.WellFormed) (id : BlockId) :
    (workspace.detach id).WellFormed where
  sound := wellFormed.links_detach id ▸ wellFormed.sound.detach id
  regular := by
    intro other block found
    cases here : workspace.block? id with
    | none => exact wellFormed.regular (by simpa [Workspace.detach, here] using found)
    | some old =>
      rw [block?_detach here] at found
      rcases Option.map_eq_some_iff.mp found with ⟨before, there, rfl⟩
      have regular := wellFormed.regular there
      constructor
      · intro owns
        exact regular.loop_of_body (by grind)
      · simp only
        split
        · exact regular.distinct.keep _
        · exact regular.distinct

end

end Workspace

namespace Block

/-- A block with another one put at a place of it. -/
def attach (place : Place) (child : BlockId) (block : Block) : Block :=
  match place with
  | .next => { block with next := some child }
  | .body => { block with body := some child }
  | .slot name => { block with slots := block.slots.put name child }

@[simp] theorem child?_ofKind (kind : BlockKind) (place : Place) :
    (ofKind kind).child? place = none := by
  cases place <;> rfl

/-- A block that knows that it hangs from a place of another one. -/
def anchor (place : Place) (holder : BlockId) (block : Block) : Block :=
  match place with
  | .next => { block with previous := some holder }
  | _ => { block with parent := some holder }

@[simp] theorem child?_attach (place other : Place) (child : BlockId) (block : Block) :
    (block.attach place child).child? other =
      if other = place then some child else block.child? other := by
  cases place <;> cases other <;> simp [attach, child?, Table.get?_put]

@[simp] theorem previous_attach (place : Place) (child : BlockId) (block : Block) :
    (block.attach place child).previous = block.previous := by
  cases place <;> rfl

@[simp] theorem parent_attach (place : Place) (child : BlockId) (block : Block) :
    (block.attach place child).parent = block.parent := by
  cases place <;> rfl

@[simp] theorem child?_anchor (place other : Place) (holder : BlockId) (block : Block) :
    (block.anchor place holder).child? other = block.child? other := by
  cases place <;> cases other <;> rfl

theorem previous_anchor (place : Place) (holder : BlockId) (block : Block) :
    (block.anchor place holder).previous =
      if place = .next then some holder else block.previous := by
  cases place <;> simp [anchor]

theorem parent_anchor (place : Place) (holder : BlockId) (block : Block) :
    (block.anchor place holder).parent = if place = .next then block.parent else some holder := by
  cases place <;> simp [anchor]

end Block

namespace Workspace

/-- Links a block in at a place of another one. -/
def hang (above : BlockId) (place : Place) (below : BlockId) (workspace : Workspace) : Workspace :=
  (workspace.revise above (·.attach place below)).revise below (·.anchor place above)

section

variable {workspace : Workspace}

theorem links_hang {above below : BlockId} (place : Place)
    (presentAbove : (workspace.block? above).isSome)
    (presentBelow : (workspace.block? below).isSome) (top : workspace.links.IsTop below) :
    (workspace.hang above place below).links = workspace.links.hang above place below := by
  rcases Option.isSome_iff_exists.mp presentAbove with ⟨upper, foundAbove⟩
  rcases Option.isSome_iff_exists.mp presentBelow with ⟨lower, foundBelow⟩
  have topPrevious : lower.previous = none := by simpa [links, foundBelow] using top.1
  have topParent : lower.parent = none := by simpa [links, foundBelow] using top.2
  ext other
  · simp only [links, hang, Links.hang, block?_revise]
    grind [Block.child?_attach, Block.child?_anchor]
  · simp only [links, hang, Links.hang, block?_revise]
    grind [Block.previous_attach, Block.previous_anchor]
  · simp only [links, hang, Links.hang, block?_revise]
    grind [Block.parent_attach, Block.parent_anchor]

end
end Workspace
end MotionBlocks
