import MotionBlocks.Proofs.Forest.Kept
import MotionBlocks.Proofs.Unrolling.Meaning

namespace MotionBlocks

/-!
# Blocks that a rebuild adds

A rebuild only adds blocks and links them to the last one it added, so each of
its pieces leaves the older blocks as they were.  What such a piece added is
described here without regard to the identifiers it got: that they are new is
all that matters.
-/

namespace Workspace

/-- A workspace grew out of another one, all of whose blocks are as they were. -/
structure Grows (before after : Workspace) : Prop where
  kept : ∀ {id block}, before.block? id = some block → after.block? id = some block

section

variable {first second : Workspace}

/-- Nothing that is new holds anything that is old. -/
theorem Grows.absent_of_reaches (grows : Grows first second) (old : first.WellFormed)
    (new : second.WellFormed) {root id : BlockId} (absent : first.block? root = none)
    (path : second.links.Reaches root id) : first.block? id = none := by
  induction path with
  | refl => exact absent
  | @tail above below _ step ih =>
    rcases step with ⟨place, held⟩
    cases found : first.block? below with
    | none => rfl
    | some block =>
      have upwards : block.previous = some above ∨ block.parent = some above := by
        have same := grows.kept found
        have linked := new.sound.previous_or_parent_of_child held
        rwa [previous_of_block same, parent_of_block same] at linked
      have present : (first.block? above).isSome := by
        rcases upwards with previous | parent
        · exact old.isSome_previous found previous
        · exact old.isSome_parent found parent
      simp [ih] at present

end

/-! ## Hanging a new block -/

section

variable {workspace : Workspace} {above below : BlockId} {upper lower : Block} {place : Place}

/-- Taking a block that is linked to nothing off its place changes nothing. -/
theorem block?_detach_of_top (found : workspace.block? below = some lower)
    (top : lower.isTop = true) (other : BlockId) :
    (workspace.detach below).block? other = workspace.block? other := by
  have unlinked : lower.previous = none ∧ lower.parent = none := by
    simpa [Block.isTop] using top
  rw [block?_detach found]
  cases there : workspace.block? other with
  | none => rfl
  | some old =>
    by_cases itself : other = below
    · subst itself
      rcases Option.some.inj (found.symm.trans there) with rfl
      rcases lower with ⟨kind, fields, slots, body, next, previous, parent, position⟩
      simp only at unlinked
      simp [unlinked]
    · simp [itself, unlinked]

theorem block?_hang (different : above ≠ below) (foundAbove : workspace.block? above = some upper)
    (foundBelow : workspace.block? below = some lower) (other : BlockId) :
    (workspace.hang above place below).block? other =
      if other = below then some (lower.anchor place above)
      else if other = above then some (upper.attach place below)
      else workspace.block? other := by
  simp only [hang, block?_revise]
  by_cases isBelow : other = below
  · simp [isBelow, different.symm, foundBelow]
  · by_cases isAbove : other = above
    · simp [isAbove, different, foundAbove]
    · simp [isBelow, isAbove]

/-- A block was linked in at a place of another one, and nothing else has changed. -/
structure Joins (before after : Workspace) (above : BlockId) (place : Place) (below : BlockId)
    (upper lower : Block) : Prop where
  wellFormed : after.WellFormed
  size : after.size = before.size
  different : above ≠ below
  holder : after.block? above = some (upper.attach place below)
  newcomer : after.block? below = some (lower.anchor place above)
  others : ∀ other, other ≠ above → other ≠ below → after.block? other = before.block? other

/-- A block that is linked to nothing is linked in at a free place. -/
theorem WellFormed.apply_connect_new (wellFormed : workspace.WellFormed)
    (connectable : workspace.Connectable above below) (unnested : place ≠ .body)
    (foundAbove : workspace.block? above = some upper)
    (foundBelow : workspace.block? below = some lower) (top : lower.isTop = true)
    (free : upper.child? place = none) :
    ∃ changed, (connect above place below).apply workspace = (.ok (), changed) ∧
      Joins workspace changed above place below upper lower := by
  have apart : workspace.links.child above place ≠ some below := by
    rw [child_of_block foundAbove, free]
    exact nofun
  have unlinked : (workspace.detach below).links.child above place = none :=
    (child_of_block ((block?_detach_of_top foundBelow top above).trans foundAbove) place).trans free
  have applied : (connect above place below).apply workspace = _ :=
    wellFormed.apply_connect connectable foundAbove
  rw [if_neg fun unfit => unnested unfit.1, if_neg apart] at applied
  have kept := keeps_connect above place below workspace wellFormed
  rw [applied] at kept
  have read : ∀ other, ((workspace.put above place below).announce .move below).block? other =
      if other = below then some (lower.anchor place above)
      else if other = above then some (upper.attach place below)
      else workspace.block? other := by
    intro other
    have same := block?_detach_of_top foundBelow top
    simp only [block?_announce, Workspace.put, unlinked]
    rw [block?_hang connectable.different ((same above).trans foundAbove)
      ((same below).trans foundBelow), same]
  refine ⟨_, applied, kept, ?_, connectable.different, ?_, ?_, fun other away new => ?_⟩
  · simp only [Workspace.put, unlinked, size_announce, size_hang, size_detach]
  · rw [read, if_neg connectable.different, if_pos rfl]
  · rw [read, if_pos rfl]
  · rw [read, if_neg new, if_neg away]

end

section

variable {before after : Workspace} {above below : BlockId} {place : Place} {upper lower : Block}

/-- Linking in neither adds blocks nor takes any out. -/
theorem Joins.isSome_eq (joins : Joins before after above place below upper lower)
    (foundAbove : before.block? above = some upper)
    (foundBelow : before.block? below = some lower) (other : BlockId) :
    (after.block? other).isSome = (before.block? other).isSome := by
  by_cases isAbove : other = above
  · rw [isAbove, joins.holder, foundAbove]
    rfl
  · by_cases isBelow : other = below
    · rw [isBelow, joins.newcomer, foundBelow]
      rfl
    · rw [joins.others other isAbove isBelow]

end

/-! ## Literals -/

end Workspace

/-- The literal of a number in a slot of another block. -/
def Block.literal (owner : BlockId) (number : Float) : Block :=
  { ofKind .numberLiteral with
    fields := (∅ : Table FieldValue).put FieldName.number (.number number)
    parent := some owner }

namespace Workspace

/-- The slots of a block that have a number hold its literal, and the others are free. -/
def Fills (workspace : Workspace) (id : BlockId) (slots : Table BlockId) (numbers : Table Float) :
    Prop :=
  ∀ slot, (slots.get? slot).map workspace.block? =
    (numbers.get? slot).map fun number => some (.literal id number)

section

variable {workspace changed : Workspace} {id : BlockId} {slots : Table BlockId}
  {numbers : Table Float} {slot : String}

theorem fills_empty (workspace : Workspace) (id : BlockId) : workspace.Fills id ∅ ∅ :=
  fun _ => rfl

theorem Fills.free_iff (fills : workspace.Fills id slots numbers) (slot : String) :
    slots.get? slot = none ↔ numbers.get? slot = none := by
  rw [← Option.map_eq_none_iff, fills slot, Option.map_eq_none_iff]

theorem Fills.present {child : BlockId} (fills : workspace.Fills id slots numbers)
    (held : slots.get? slot = some child) :
    ∃ number, numbers.get? slot = some number ∧
      workspace.block? child = some (.literal id number) := by
  have read := fills slot
  rw [held, Option.map_some] at read
  rcases Option.map_eq_some_iff.mp read.symm with ⟨number, given, found⟩
  exact ⟨number, given, found.symm⟩

theorem Fills.held {number : Float} (fills : workspace.Fills id slots numbers)
    (given : numbers.get? slot = some number) :
    ∃ child, slots.get? slot = some child ∧
      workspace.block? child = some (.literal id number) := by
  have read := fills slot
  rw [given, Option.map_some] at read
  exact Option.map_eq_some_iff.mp read

/-- Slots stay filled for as long as what they hold stays as it is. -/
theorem Fills.congr (fills : workspace.Fills id slots numbers)
    (kept : ∀ slot child, slots.get? slot = some child →
      changed.block? child = workspace.block? child) :
    changed.Fills id slots numbers := by
  intro slot
  rw [← fills slot]
  cases held : slots.get? slot with
  | none => rfl
  | some child => rw [Option.map_some, kept slot child held, Option.map_some]

theorem Fills.put (fills : workspace.Fills id slots numbers) {child : BlockId} {number : Float}
    (found : workspace.block? child = some (.literal id number)) (slot : String) :
    workspace.Fills id (slots.put slot child) (numbers.put slot number) := by
  intro other
  rw [Table.get?_put, Table.get?_put]
  split
  · rw [Option.map_some, found, Option.map_some]
  · exact fills other

end

/-! ## A block under construction -/

/-- A workspace grew by a block that is linked to no older one, and by the literals in its
slots. -/
structure Adds (before after : Workspace) (id : BlockId) (block : Block)
    (numbers : Table Float) : Prop where
  grows : Grows before after
  older : before.WellFormed
  wellFormed : after.WellFormed
  new : before.block? id = none
  found : after.block? id = some block
  top : block.isTop = true
  last : block.next = none
  fills : after.Fills id block.slots numbers
  exact : ∀ other, (after.block? other).isSome → (before.block? other).isSome ∨ other = id ∨
    ∃ slot, block.slots.get? slot = some other
  size : after.size = before.size + 1 + numbers.entries.length

section

variable {before after : Workspace} {id : BlockId} {block : Block} {numbers : Table Float}

theorem WellFormed.adds_create (wellFormed : before.WellFormed) (kind : BlockKind) :
    Adds before (before.create kind).2 before.store.nextId (.ofKind kind) ∅ where
  grows.kept := by
    intro id block found
    rw [block?_create, if_neg]
    · exact found
    · rintro rfl
      simp [block?_nextId] at found
  older := wellFormed
  wellFormed := wellFormed.create kind
  new := before.block?_nextId
  found := by rw [block?_create, if_pos rfl]
  top := rfl
  last := rfl
  fills := fills_empty _ _
  exact other present := by
    rw [block?_create] at present
    split at present
    · rename_i new
      exact .inr (.inl new)
    · exact .inl present
  size := size_announce _ _ _

theorem Adds.ne_of_found (adds : Adds before after id block numbers) {above : BlockId}
    {upper : Block} (found : before.block? above = some upper) : above ≠ id := by
  rintro rfl
  exact absurd (found.symm.trans adds.new) (by simp)

/-- What is plugged into the new block is neither that block nor an older one. -/
theorem Adds.plugged (adds : Adds before after id block numbers) {slot : String} {child : BlockId}
    (held : block.slots.get? slot = some child) :
    child ≠ id ∧ before.block? child = none ∧ (after.block? child).isSome := by
  have holds : after.links.Holds id child :=
    ⟨.slot slot, (child_of_block adds.found (.slot slot)).trans held⟩
  refine ⟨?_, ?_, adds.wellFormed.isSome_below holds⟩
  · rintro rfl
    exact adds.wellFormed.sound.not_returns _ (.single holds)
  · exact adds.grows.absent_of_reaches adds.older adds.wellFormed adds.new (.single holds)

theorem apply_annotate (found : after.block? id = some block) (kind : ChangeKind)
    (change : Block → Block) :
    ∃ changed, (do Edit.update id change; Edit.tell kind id : Edit Unit).apply after =
        (.ok (), changed) ∧ changed.size = after.size ∧
      ∀ other, changed.block? other =
        if other = id then some (change block) else after.block? other := by
  have present : (after.block? id).isSome := by simp [found]
  refine ⟨(after.revise id change).announce kind id, ?_, ?_, fun other => ?_⟩
  · simp only [Edit.apply_bind, apply_update_of_present present, Edit.apply_tell]
  · rw [size_announce, size_revise]
  rw [block?_announce, block?_revise]
  split
  · rename_i here
    rw [here, found]
    rfl
  · rfl

theorem Adds.setField (adds : Adds before after id block numbers) (name : String)
    (value : FieldValue) :
    ∃ changed, (setField id name value).apply after = (.ok (), changed) ∧
      Adds before changed id { block with fields := block.fields.put name value } numbers := by
  rcases apply_annotate adds.found .field
      (fun block => { block with fields := block.fields.put name value }) with
    ⟨changed, applied, size, read⟩
  have wellFormed := keeps_setField id name value after adds.wellFormed
  rw [show (Workspace.setField id name value).apply after = _ from applied] at wellFormed
  have others : ∀ other, other ≠ id → changed.block? other = after.block? other :=
    fun other different => (read other).trans (if_neg different)
  refine ⟨changed, applied, ⟨fun found => ?_⟩, adds.older, wellFormed, adds.new, ?_, adds.top,
    adds.last, ?_, fun other present => ?_, size.trans adds.size⟩
  · rw [others _ (adds.ne_of_found found)]
    exact adds.grows.kept found
  · rw [read, if_pos rfl]
  · exact adds.fills.congr fun slot child held => others child (adds.plugged held).1
  · refine adds.exact other ?_
    by_cases itself : other = id
    · simp [itself, adds.found]
    · rwa [others other itself] at present

end

/-! ## Linking in what was added -/

section

variable {first second third : Workspace} {above below : BlockId} {upper lower : Block}
  {place : Place} {numbers : Table Float}

theorem Adds.connectable (adds : Adds first second below lower numbers)
    (found : first.block? above = some upper) : second.Connectable above below where
  different := adds.ne_of_found found
  presentAbove := by simp [adds.grows.kept found]
  presentBelow := by simp [adds.found]
  outside := by
    intro path
    have absent := adds.grows.absent_of_reaches adds.older adds.wellFormed adds.new path
    exact absurd (found.symm.trans absent) (by simp)

/-- A new block is linked in at a free place of an old one. -/
theorem Adds.join (adds : Adds first second below lower numbers)
    (found : first.block? above = some upper) (unnested : place ≠ .body)
    (free : upper.child? place = none) :
    ∃ changed, (connect above place below).apply second = (.ok (), changed) ∧
      Joins second changed above place below upper lower :=
  adds.wellFormed.apply_connect_new (adds.connectable found) unnested (adds.grows.kept found)
    adds.found adds.top free

/-- Linking a new block in at an old one leaves the other old blocks as they were. -/
theorem Adds.kept_of_join (adds : Adds first second below lower numbers)
    (joins : Joins second third above place below upper lower) {other : BlockId} {old : Block}
    (away : other ≠ above) (there : first.block? other = some old) :
    third.block? other = some old := by
  rw [joins.others other away (adds.ne_of_found there)]
  exact adds.grows.kept there

end

section

variable {before after : Workspace} {id : BlockId} {block : Block} {numbers : Table Float}

/-- A literal that was added after the new block is plugged into a free slot of it. -/
theorem Adds.plug {filled : Workspace} {literal : BlockId} {content : Block} {number : Float}
    (adds : Adds before after id block numbers) (filling : Adds after filled literal content ∅)
    (hangs : ∀ slot, content.anchor (.slot slot) id = .literal id number)
    (slot : String) (free : numbers.get? slot = none) :
    ∃ changed, (connectValue id slot literal).apply filled = (.ok (), changed) ∧
      Adds before changed id { block with slots := block.slots.put slot literal }
        (numbers.put slot number) := by
  have empty := (adds.fills.free_iff slot).mpr free
  rcases filling.join adds.found (show Place.slot slot ≠ .body from nofun) empty with
    ⟨changed, applied, joins⟩
  have kept : ∀ {other old}, other ≠ id → after.block? other = some old →
      changed.block? other = some old :=
    fun away there => filling.kept_of_join joins away there
  have present := joins.isSome_eq (filling.grows.kept adds.found) filling.found
  refine ⟨changed, applied, ⟨fun found => ?_⟩, adds.older, joins.wellFormed, adds.new,
    joins.holder, adds.top, adds.last, ?_, fun other there => ?_, ?_⟩
  · exact kept (adds.ne_of_found found) (adds.grows.kept found)
  · refine (adds.fills.congr fun other child held => ?_).put
      (joins.newcomer.trans (congrArg some (hangs slot))) slot
    rcases adds.plugged held with ⟨away, -, there⟩
    rcases Option.isSome_iff_exists.mp there with ⟨lower, found⟩
    rw [found]
    exact kept away found
  · rw [present] at there
    rcases filling.exact other there with old | rfl | ⟨name, held⟩
    · rcases adds.exact other old with older | itself | ⟨name, held⟩
      · exact .inl older
      · exact .inr (.inl itself)
      · refine .inr (.inr ⟨name, ?_⟩)
        -- The slot was free, so the literal takes the place of none.
        have different : name ≠ slot := by
          rintro rfl
          exact absurd (held.symm.trans empty) (by simp)
        rw [Table.get?_put, if_neg (by simpa using different)]
        exact held
    · exact .inr (.inr ⟨slot, by simp [Table.get?_put]⟩)
    · exact absurd ((filling.fills.free_iff name).mpr rfl) (by simp [held])
  · rw [joins.size, filling.size, adds.size, Table.entries_put_of_free free, List.length_append]
    rfl

/-- A new literal goes into a free slot. -/
theorem Adds.attachLiteral (adds : Adds before after id block numbers) (slot : String)
    (free : numbers.get? slot = none) (number : Float) :
    ∃ changed slots, (attachLiteral id slot number).apply after = (.ok (), changed) ∧
      Adds before changed id { block with slots } (numbers.put slot number) := by
  have created := adds.wellFormed.adds_create .numberLiteral
  rcases created.setField FieldName.number (.number number) with ⟨filled, filledApplied, filling⟩
  rcases adds.plug filling (fun _ => rfl) slot free with ⟨changed, applied, plugged⟩
  refine ⟨changed, _, ?_, plugged⟩
  simp only [Workspace.attachLiteral, Edit.apply_bind, Edit.apply_modifyGet, create_fst,
    filledApplied, applied]

end

end Workspace
end MotionBlocks
