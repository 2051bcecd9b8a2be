import MotionBlocks.Proofs.Forest.Traversal

namespace MotionBlocks

/-!
# Connecting blocks

Every connection takes the newcomer off its place first.  After that it hangs
from nothing, and what it displaces at its new place is dealt with from there:
a displaced chain follows the end of the newcomer's chain, which is found in a
workspace that is only half way through the edit, and a displaced value becomes
a top block.  No step of a connection can be refused once the check at its
beginning has passed.

The edits that connect differ in the place at which they put the newcomer.  They are
shown to be one edit that is given the place, and what else there is to say is said of
that one.
-/

namespace Workspace

/-! ## Blocks that stay -/

section

variable (workspace : Workspace)

@[simp] theorem size_revise (id : BlockId) (change : Block → Block) :
    (workspace.revise id change).size = workspace.size := by
  cases id <;> rfl

@[simp] theorem size_reviseLinked (link : Option BlockId) (change : Block → Block) :
    (workspace.reviseLinked link change).size = workspace.size := by
  cases link with
  | none => rfl
  | some id => exact workspace.size_revise id change

@[simp] theorem size_detach (id : BlockId) : (workspace.detach id).size = workspace.size := by
  unfold detach
  split
  · rfl
  · rw [size_reviseLinked, size_reviseLinked, size_revise]

@[simp] theorem size_hang (above below : BlockId) (place : Place) :
    (workspace.hang above place below).size = workspace.size := by
  simp [hang]

@[simp] theorem isSome_revise (id other : BlockId) (change : Block → Block) :
    ((workspace.revise id change).block? other).isSome = (workspace.block? other).isSome := by
  rw [block?_revise]
  split <;> simp

@[simp] theorem isSome_detach (id other : BlockId) :
    ((workspace.detach id).block? other).isSome = (workspace.block? other).isSome := by
  cases found : workspace.block? id with
  | none => simp [detach, found]
  | some block => simp [block?_detach found]

@[simp] theorem isSome_hang (above below other : BlockId) (place : Place) :
    ((workspace.hang above place below).block? other).isSome = (workspace.block? other).isSome := by
  simp [hang]

end

/-! ## What a connection needs -/

/-- Two different blocks, of which the holder does not lie below the newcomer. -/
structure Connectable (workspace : Workspace) (above below : BlockId) : Prop where
  different : above ≠ below
  presentAbove : (workspace.block? above).isSome
  presentBelow : (workspace.block? below).isSome
  outside : ¬ workspace.links.Reaches below above

/-- What stands in the way of a connection, whatever the place.  Of several obstacles the
first one counts. -/
inductive Obstacle (workspace : Workspace) (above below : BlockId) : EditError → Prop where
  | itself : above = below → Obstacle workspace above below (.selfConnection above)
  | missingAbove : above ≠ below → workspace.block? above = none →
    Obstacle workspace above below (.blockNotFound above)
  | missingBelow : above ≠ below → (workspace.block? above).isSome →
    workspace.block? below = none → Obstacle workspace above below (.blockNotFound below)
  | cycle : above ≠ below → (workspace.block? above).isSome → (workspace.block? below).isSome →
    workspace.links.Reaches below above → Obstacle workspace above below (.cycle above below)

section

variable {workspace : Workspace} {above below : BlockId} {place : Place}

theorem WellFormed.apply_checkConnectable (wellFormed : workspace.WellFormed)
    (connectable : workspace.Connectable above below) :
    (checkConnectable above below).apply workspace = (.ok (), workspace) := by
  rcases Option.isSome_iff_exists.mp connectable.presentAbove with ⟨upper, foundAbove⟩
  rcases Option.isSome_iff_exists.mp connectable.presentBelow with ⟨lower, foundBelow⟩
  have outside : workspace.reaches below above = false := by
    rw [Bool.eq_false_iff]
    intro path
    exact connectable.outside ((wellFormed.reaches_iff connectable.presentBelow).mp path)
  simp [checkConnectable, Edit.apply_bind, connectable.different, Edit.apply_fetch, foundAbove,
    foundBelow, outside]

/-- Blocks that cannot be connected have an obstacle, and the check names it. -/
theorem WellFormed.apply_checkConnectable_of_not (wellFormed : workspace.WellFormed)
    (refused : ¬ workspace.Connectable above below) :
    ∃ error, workspace.Obstacle above below error ∧
      (checkConnectable above below).apply workspace = (.error error, workspace) := by
  by_cases same : above = below
  · exact ⟨_, .itself same, by simp [checkConnectable, same]⟩
  · cases foundAbove : workspace.block? above with
    | none =>
      exact ⟨_, .missingAbove same foundAbove, by
        simp [checkConnectable, Edit.apply_bind, Edit.apply_fetch, same, foundAbove]⟩
    | some upper =>
      cases foundBelow : workspace.block? below with
      | none =>
        exact ⟨_, .missingBelow same (by simp [foundAbove]) foundBelow, by
          simp [checkConnectable, Edit.apply_bind, Edit.apply_fetch, same, foundAbove, foundBelow]⟩
      | some lower =>
        have presentBelow : (workspace.block? below).isSome := by simp [foundBelow]
        have path : workspace.links.Reaches below above := by
          by_contra outside
          exact refused ⟨same, by simp [foundAbove], presentBelow, outside⟩
        have found : workspace.reaches below above = true :=
          (wellFormed.reaches_iff presentBelow).mpr path
        exact ⟨_, .cycle same (by simp [foundAbove]) presentBelow path, by
          simp [checkConnectable, Edit.apply_bind, Edit.apply_fetch, same, foundAbove, foundBelow,
            found]⟩

/-- Taking the newcomer off its place keeps it connectable and makes it a top
block. -/
theorem WellFormed.connectable_detach (wellFormed : workspace.WellFormed)
    (connectable : workspace.Connectable above below) :
    (workspace.detach below).Connectable above below ∧
      (workspace.detach below).links.IsTop below := by
  rw [wellFormed.links_detach]
  refine ⟨⟨connectable.different, ?_, ?_, ?_⟩, Links.isTop_detach⟩
  · simpa using connectable.presentAbove
  · simpa using connectable.presentBelow
  · rw [wellFormed.links_detach]
    exact fun path => connectable.outside (Links.reaches_of_detach path)

/-! ## The end of the newcomer's chain -/

theorem WellFormed.isSome_of_reaches (wellFormed : workspace.WellFormed) {root id : BlockId}
    (present : (workspace.block? root).isSome) (path : workspace.links.Reaches root id) :
    (workspace.block? id).isSome := by
  rcases Relation.ReflTransGen.cases_tail path with equal | ⟨holder, -, held⟩
  · exact equal ▸ present
  · exact wellFormed.isSome_below held

/-- The new link does not lead into the newcomer's chain, so the end of the
chain is the same before and after. -/
theorem WellFormed.chain_hang (wellFormed : workspace.WellFormed) (place : Place)
    (connectable : workspace.Connectable above below) (top : workspace.links.IsTop below) :
    ∃ front, workspace.links.Chain (some below)
      (front ++ [(workspace.hang above place below).chainEnd below]) := by
  refine chain_lastWithin ?_ ?_
  · intro id path
    rw [links_hang place connectable.presentAbove connectable.presentBelow top]
    have different : id ≠ above := fun equal => connectable.outside (equal ▸ path)
    simp [Links.hang, different]
  · rw [size_hang]
    exact wellFormed.shallow connectable.presentBelow

theorem WellFormed.reaches_chainEnd_hang (wellFormed : workspace.WellFormed) (place : Place)
    (connectable : workspace.Connectable above below) (top : workspace.links.IsTop below) :
    workspace.links.Reaches below ((workspace.hang above place below).chainEnd below) := by
  rcases wellFormed.chain_hang place connectable top with ⟨front, chain⟩
  exact chain.reaches_of_mem List.mem_concat_self

end

/-! ## Joining a chain in -/

/-- Puts a block that was linked elsewhere behind the last block of a chain. -/
def follow (last displaced : BlockId) (workspace : Workspace) : Workspace :=
  (workspace.revise last fun block => { block with next := some displaced }).revise displaced
    fun block => { block with parent := none, previous := some last }

/-- Moves a chain to a place; what hung there follows the end of the chain. -/
def join (above : BlockId) (place : Place) (below : BlockId) (workspace : Workspace) : Workspace :=
  let freed := workspace.detach below
  let hung := freed.hang above place below
  match freed.links.child above place with
  | none => hung
  | some displaced => hung.follow (hung.chainEnd below) displaced

section

variable {workspace : Workspace} {above below : BlockId} {place : Place}

theorem links_follow {last displaced : BlockId} (presentLast : (workspace.block? last).isSome)
    (presentDisplaced : (workspace.block? displaced).isSome) :
    (workspace.follow last displaced).links = workspace.links.hang last .next displaced := by
  rcases Option.isSome_iff_exists.mp presentLast with ⟨_, foundLast⟩
  rcases Option.isSome_iff_exists.mp presentDisplaced with ⟨_, foundDisplaced⟩
  ext other
  · rename_i place id
    simp only [links, follow, Links.hang, block?_revise]
    cases place <;> grind [Block.child?]
  · simp only [links, follow, Links.hang, block?_revise]
    grind
  · simp only [links, follow, Links.hang, block?_revise]
    grind

theorem regular_follow {last displaced : BlockId}
    (regular : ∀ {id block}, workspace.block? id = some block → block.Regular) {id : BlockId}
    {block : Block} (found : (workspace.follow last displaced).block? id = some block) :
    block.Regular := by
  simp only [follow, block?_revise] at found
  cases old : workspace.block? id with
  | none => grind
  | some before =>
    have kept := regular old
    have loop := kept.loop_of_body
    have distinct := kept.distinct
    constructor <;> grind

theorem regular_hang {upper : Block} (foundAbove : workspace.block? above = some upper)
    (nested : place = .body → upper.kind = .loop)
    (regular : ∀ {id block}, workspace.block? id = some block → block.Regular) {id : BlockId}
    {block : Block} (found : (workspace.hang above place below).block? id = some block) :
    block.Regular := by
  simp only [hang, block?_revise] at found
  cases old : workspace.block? id with
  | none => grind
  | some before =>
    have kept := regular old
    have loop := kept.loop_of_body
    have distinct := kept.distinct
    have put := fun name => distinct.put name below
    cases place <;> simp only [Block.attach, Block.anchor] at found <;> constructor <;> grind

/-- Joining a chain in does to the links what it says, and finds the end of the
newcomer's chain. -/
theorem WellFormed.links_join (wellFormed : workspace.WellFormed) (place : Place)
    (connectable : workspace.Connectable above below) :
    ∃ front last, (workspace.links.detach below).Chain (some below) (front ++ [last]) ∧
      (workspace.join above place below).links =
        (workspace.links.detach below).join above place below last := by
  have freedWellFormed := wellFormed.detach below
  rcases wellFormed.connectable_detach connectable with ⟨free, top⟩
  rw [← wellFormed.links_detach]
  unfold Workspace.join
  generalize workspace.detach below = freed at *
  have links := links_hang place free.presentAbove free.presentBelow top
  rcases freedWellFormed.chain_hang place free top with ⟨front, chain⟩
  refine ⟨front, _, chain, ?_⟩
  dsimp only [Links.join]
  cases taken : freed.links.child above place with
  | none => exact links
  | some displaced =>
    have path := freedWellFormed.reaches_chainEnd_hang place free top
    have presentLast := freedWellFormed.isSome_of_reaches free.presentBelow path
    have presentDisplaced := freedWellFormed.isSome_below ⟨place, taken⟩
    dsimp only
    rw [links_follow (by simpa using presentLast) (by simpa using presentDisplaced), links]

/-- Joining a chain in keeps the links sound, whether the place was taken or
not. -/
theorem WellFormed.join (wellFormed : workspace.WellFormed)
    (connectable : workspace.Connectable above below)
    (nested : place = .body → ∀ upper, workspace.block? above = some upper → upper.kind = .loop) :
    (workspace.join above place below).WellFormed := by
  rcases wellFormed.connectable_detach connectable with ⟨free, top⟩
  constructor
  · have freedSound := (wellFormed.detach below).sound
    have outside := free.outside
    rcases wellFormed.links_join place connectable with ⟨front, last, chain, links⟩
    rw [wellFormed.links_detach] at freedSound top outside
    rw [links]
    exact freedSound.join top outside (chain.reaches_of_mem List.mem_concat_self) chain.next_last
  · rcases Option.isSome_iff_exists.mp connectable.presentBelow with ⟨lower, foundBelow⟩
    rcases Option.isSome_iff_exists.mp free.presentAbove with ⟨upper, foundAbove⟩
    have loop : place = .body → upper.kind = .loop := by
      intro isBody
      rw [block?_detach foundBelow] at foundAbove
      rcases Option.map_eq_some_iff.mp foundAbove with ⟨before, old, rfl⟩
      exact nested isBody before old
    have regular : ∀ {id block}, ((workspace.detach below).hang above place below).block? id =
        some block → block.Regular := fun found =>
      regular_hang foundAbove loop (wellFormed.detach below).regular found
    intro id block found
    unfold Workspace.join at found
    cases taken : (workspace.detach below).links.child above place with
    | none => exact regular (by simpa only [taken] using found)
    | some displaced => exact regular_follow regular (by simpa only [taken] using found)

theorem WellFormed.child_join (wellFormed : workspace.WellFormed)
    (connectable : workspace.Connectable above below) :
    (workspace.join above place below).links.child above place = some below := by
  rcases wellFormed.links_join place connectable with ⟨front, last, chain, links⟩
  have path := Links.reaches_of_detach (chain.reaches_of_mem List.mem_concat_self)
  have apart : above ≠ last := fun equal => connectable.outside (equal ▸ path)
  simp [links, Links.child_join, apart]

end

/-! ## Plugging a value in -/

/-- Makes a block that was plugged in somewhere a top block, and tells. -/
def bump (bumped : BlockId) (workspace : Workspace) : Workspace :=
  (workspace.revise bumped fun block => { block with parent := none }).announce .move bumped

/-- Moves a block into a value slot; what was plugged in there becomes a top
block. -/
def plug (above : BlockId) (slot : String) (below : BlockId) (workspace : Workspace) : Workspace :=
  let freed := workspace.detach below
  let hung := freed.hang above (.slot slot) below
  match freed.links.child above (.slot slot) with
  | none => hung
  | some bumped => hung.bump bumped

section

variable {workspace : Workspace} {above below : BlockId} {slot : String}

theorem block?_bump (bumped id : BlockId) :
    (workspace.bump bumped).block? id =
      if id = bumped then
        (workspace.block? id).map fun block => { block with parent := none }
      else workspace.block? id := by
  rw [bump, block?_announce, block?_revise]

@[simp] theorem child_bump (bumped id : BlockId) (place : Place) :
    (workspace.bump bumped).links.child id place = workspace.links.child id place := by
  simp only [links, block?_bump]
  cases workspace.block? id <;> split <;> cases place <;> simp [Block.child?]

@[simp] theorem previous_bump (bumped id : BlockId) :
    (workspace.bump bumped).links.previous id = workspace.links.previous id := by
  simp only [links, block?_bump]
  cases workspace.block? id <;> split <;> simp

@[simp] theorem parent_bump (bumped id : BlockId) :
    (workspace.bump bumped).links.parent id =
      if id = bumped then none else workspace.links.parent id := by
  simp only [links, block?_bump]
  cases workspace.block? id <;> split <;> simp

/-- What is bumped out of a slot hangs from nothing else. -/
theorem WellFormed.links_bump (wellFormed : workspace.WellFormed)
    (connectable : workspace.Connectable above below) (top : workspace.links.IsTop below)
    {bumped : BlockId} (taken : workspace.links.child above (.slot slot) = some bumped) :
    ((workspace.hang above (.slot slot) below).bump bumped).links =
      (workspace.links.detach bumped).hang above (.slot slot) below := by
  have sound := wellFormed.sound
  have hung := links_hang (.slot slot) connectable.presentAbove connectable.presentBelow top
  have unchained := (sound.upward_of_plugged (by simp) taken).1
  have different : bumped ≠ below := by
    intro equal
    exact (sound.isTop_iff below).mp top above ⟨.slot slot, equal ▸ taken⟩
  have only : ∀ id place, workspace.links.child id place = some bumped →
      id = above ∧ place = .slot slot := fun id place held => sound.holder_unique held taken
  ext id
  · rename_i place other
    have only := only id place
    simp only [child_bump, hung, Links.hang, Links.detach]
    cases old : workspace.links.child id place <;> grind
  · simp only [previous_bump, hung, Links.hang, Links.detach]
    grind
  · simp only [parent_bump, hung, Links.hang, Links.detach]
    grind

theorem WellFormed.links_plug (wellFormed : workspace.WellFormed)
    (connectable : workspace.Connectable above below) :
    (workspace.plug above slot below).links =
      ((workspace.links.detach below).vacate above (.slot slot)).hang above (.slot slot) below := by
  have freedWellFormed := wellFormed.detach below
  rcases wellFormed.connectable_detach connectable with ⟨free, top⟩
  rw [← wellFormed.links_detach]
  unfold Workspace.plug
  generalize workspace.detach below = freed at *
  dsimp only [Links.vacate]
  cases taken : freed.links.child above (.slot slot) with
  | none => exact links_hang (.slot slot) free.presentAbove free.presentBelow top
  | some bumped => exact freedWellFormed.links_bump free top taken

theorem WellFormed.plug (wellFormed : workspace.WellFormed)
    (connectable : workspace.Connectable above below) :
    (workspace.plug above slot below).WellFormed := by
  have freedWellFormed := wellFormed.detach below
  rcases wellFormed.connectable_detach connectable with ⟨free, top⟩
  constructor
  · rw [wellFormed.links_plug connectable, ← wellFormed.links_detach]
    exact freedWellFormed.sound.hang_instead top free.outside
  · rcases Option.isSome_iff_exists.mp free.presentAbove with ⟨upper, foundAbove⟩
    have regular : ∀ {id block}, ((workspace.detach below).hang above (.slot slot) below).block?
        id = some block → block.Regular := fun found =>
      regular_hang foundAbove (by simp) freedWellFormed.regular found
    intro id block found
    unfold Workspace.plug at found
    cases taken : (workspace.detach below).links.child above (.slot slot) with
    | none => exact regular (by simpa only [taken] using found)
    | some bumped =>
      simp only [taken, block?_bump] at found
      split at found
      · rcases Option.map_eq_some_iff.mp found with ⟨before, old, rfl⟩
        exact ⟨(regular old).loop_of_body, (regular old).distinct⟩
      · exact regular found

theorem WellFormed.child_plug (wellFormed : workspace.WellFormed)
    (connectable : workspace.Connectable above below) :
    (workspace.plug above slot below).links.child above (.slot slot) = some below := by
  rw [wellFormed.links_plug connectable]
  simp [Links.hang]

end

/-! ## One edit for every place -/

/-- The edit that moves a block to a place of another one. -/
def connect (above : BlockId) (place : Place) (below : BlockId) : Edit Unit :=
  match place with
  | .next => connectNext above below
  | .body => connectBody above below
  | .slot name => connectValue above name below

/-- Looks whether a block may be moved to a place of another one, and gives that one. -/
def holderFor (above : BlockId) (place : Place) (below : BlockId) : Edit Block := do
  checkConnectable above below
  let holder ← Edit.fetch above
  if place = .body ∧ !holder.kind.hasBody then
    throw (.notAContainer above holder.kind)
  return holder

/-- Finds a place for what a newcomer displaced: the end of the newcomer's chain for a
chain, and the top for a value. -/
def settle (place : Place) (below displaced : BlockId) : Edit Unit :=
  match place with
  | .slot _ => do
    Edit.update displaced fun block => { block with parent := none }
    Edit.tell .move displaced
  | .next => appendChain below displaced
  | .body => appendBody below displaced

/-- The work of a connection: takes a block off its place and links it in at another one. -/
def relink (above : BlockId) (place : Place) (below : BlockId) : Edit Unit := do
  modify (detach below)
  let displaced := (← Edit.fetch above).child? place
  Edit.update above (·.attach place below)
  Edit.update below (·.anchor place above)
  match displaced with
  | none => pure ()
  | some displaced => settle place below displaced
  Edit.tell .move below

/-- The three edits that connect differ in the place alone, and in that not every block
has a place for a nested chain. -/
theorem connect_eq (above : BlockId) (place : Place) (below : BlockId) :
    connect above place below = holderFor above place below >>= fun holder =>
      if holder.child? place = some below then pure () else relink above place below := by
  simp only [holderFor, bind_assoc]
  cases place with
  | next => exact bind_congr fun _ => bind_congr fun _ => rfl
  | slot name =>
    -- A bumped value is settled in two steps, which the edit takes one by one.
    refine bind_congr fun _ => bind_congr fun holder => ?_
    simp only [relink, settle, bind_assoc]
    rfl
  | body =>
    refine bind_congr fun _ => bind_congr fun holder => ?_
    simp only [true_and]
    split <;> rfl

/-- What `settle` makes of a workspace. -/
def rehome (place : Place) (below displaced : BlockId) (workspace : Workspace) : Workspace :=
  match place with
  | .slot _ => workspace.bump displaced
  | _ => workspace.follow (workspace.chainEnd below) displaced

/-- Moves a block to a place and finds another place for what hung there. -/
def put (above : BlockId) (place : Place) (below : BlockId) (workspace : Workspace) : Workspace :=
  let freed := workspace.detach below
  let hung := freed.hang above place below
  match freed.links.child above place with
  | none => hung
  | some displaced => hung.rehome place below displaced

section

variable {workspace : Workspace} {above below : BlockId} {place : Place} {upper : Block}

theorem put_slot (workspace : Workspace) (above : BlockId) (slot : String) (below : BlockId) :
    workspace.put above (.slot slot) below = workspace.plug above slot below := rfl

theorem put_of_chained (chained : place = .next ∨ place = .body) :
    workspace.put above place below = workspace.join above place below := by
  rcases chained with rfl | rfl <;> rfl

theorem WellFormed.put (wellFormed : workspace.WellFormed)
    (connectable : workspace.Connectable above below)
    (nested : place = .body → ∀ upper, workspace.block? above = some upper → upper.kind = .loop) :
    (workspace.put above place below).WellFormed := by
  cases place with
  | next => exact wellFormed.join connectable nested
  | body => exact wellFormed.join connectable nested
  | slot name => exact wellFormed.plug connectable

theorem WellFormed.child_put (wellFormed : workspace.WellFormed)
    (connectable : workspace.Connectable above below) :
    (workspace.put above place below).links.child above place = some below := by
  cases place with
  | next => exact wellFormed.child_join connectable
  | body => exact wellFormed.child_join connectable
  | slot name => exact wellFormed.child_plug connectable

theorem BlockKind.hasBody_iff (kind : BlockKind) : kind.hasBody = true ↔ kind = .loop := by
  cases kind <;> simp [BlockKind.hasBody]

/-- Every block has each place but that for a nested chain, which only loops have. -/
theorem not_unfit_iff (place : Place) (kind : BlockKind) :
    ¬ (place = .body ∧ !kind.hasBody) ↔ (place = .body → kind = .loop) := by
  simp [← BlockKind.hasBody_iff]

/-! ## How the edit runs -/

theorem apply_update_of_present {id : BlockId} (present : (workspace.block? id).isSome)
    (change : Block → Block) :
    (Edit.update id change).apply workspace = (.ok (), workspace.revise id change) := by
  rcases Option.isSome_iff_exists.mp present with ⟨block, found⟩
  simp [Edit.apply_update, found]

theorem apply_fetch_of_present {id : BlockId} {block : Block}
    (found : workspace.block? id = some block) :
    (Edit.fetch id).apply workspace = (.ok block, workspace) := by
  simp [Edit.apply_fetch, found]

/-- A change matters only for the block that is there. -/
theorem revise_congr {id : BlockId} {change other : Block → Block}
    (same : ∀ block, workspace.block? id = some block → change block = other block) :
    workspace.revise id change = workspace.revise id other := by
  rw [revise, revise, BlockStore.modify_congr same]

/-- Changes of different blocks may be made in any order. -/
theorem revise_comm {first second : BlockId} (different : first ≠ second)
    (change other : Block → Block) :
    (workspace.revise first change).revise second other =
      (workspace.revise second other).revise first change := by
  rw [revise, revise, revise, revise, BlockStore.modify_comm different]

/-- What followed a block had no parent to lose, so leaving its parent alone comes to the
same. -/
theorem apply_appendChain {head displaced : BlockId}
    (presentLast : (workspace.block? (workspace.chainEnd head)).isSome)
    (presentDisplaced : (workspace.block? displaced).isSome)
    (chained : workspace.links.parent displaced = none) :
    (appendChain head displaced).apply workspace =
      (.ok (), workspace.follow (workspace.chainEnd head) displaced) := by
  simp only [appendChain, Edit.apply_bind, Edit.apply_get, apply_update_of_present presentLast]
  rw [apply_update_of_present (by simpa using presentDisplaced), follow]
  refine congrArg _ (revise_congr fun block found => ?_)
  have parentless : block.parent = none := by
    rw [block?_revise] at found
    split at found
    · rcases Option.map_eq_some_iff.mp found with ⟨before, old, rfl⟩
      exact (parent_of_block old).symm.trans chained
    · exact (parent_of_block found).symm.trans chained
  rw [parentless]

/-- The head of a nested chain leaves the loop, and it is not the block that it follows. -/
theorem apply_appendBody {head displaced : BlockId}
    (presentLast : (workspace.block? (workspace.chainEnd head)).isSome)
    (presentDisplaced : (workspace.block? displaced).isSome)
    (apart : displaced ≠ workspace.chainEnd head) :
    (appendBody head displaced).apply workspace =
      (.ok (), workspace.follow (workspace.chainEnd head) displaced) := by
  simp only [appendBody, Edit.apply_bind, Edit.apply_get,
    apply_update_of_present presentDisplaced]
  rw [apply_update_of_present (by simpa using presentLast), follow, revise_comm apart]

/-- What a newcomer displaced is there, and so is the end of the newcomer's chain. -/
theorem WellFormed.apply_settle (wellFormed : workspace.WellFormed)
    (connectable : workspace.Connectable above below) (top : workspace.links.IsTop below)
    {displaced : BlockId} (taken : workspace.links.child above place = some displaced) :
    (settle place below displaced).apply (workspace.hang above place below) =
      (.ok (), (workspace.hang above place below).rehome place below displaced) := by
  have presentDisplaced := wellFormed.isSome_below ⟨place, taken⟩
  have path := wellFormed.reaches_chainEnd_hang place connectable top
  have presentLast := wellFormed.isSome_of_reaches connectable.presentBelow path
  have sound := wellFormed.sound
  cases place with
  | slot name =>
    simp only [settle, Edit.apply_bind]
    rw [apply_update_of_present (by simpa using presentDisplaced)]
    rfl
  | next =>
    have different : displaced ≠ below := fun equal =>
      (sound.isTop_iff below).mp top above ⟨.next, equal ▸ taken⟩
    have unplugged : (workspace.hang above .next below).links.parent displaced = none := by
      rw [links_hang .next connectable.presentAbove connectable.presentBelow top]
      simp [Links.hang, different, (sound.upward_of_next taken).2]
    exact apply_appendChain (by simpa using presentLast) (by simpa using presentDisplaced)
      unplugged
  | body =>
    have apart : displaced ≠ (workspace.hang above .body below).chainEnd below := fun equal =>
      sound.apart_of_displaced top taken connectable.outside path (equal ▸ .refl)
    exact apply_appendBody (by simpa using presentLast) (by simpa using presentDisplaced) apart

theorem WellFormed.apply_relink (wellFormed : workspace.WellFormed) (place : Place)
    (connectable : workspace.Connectable above below) :
    (relink above place below).apply workspace =
      (.ok (), (workspace.put above place below).announce .move below) := by
  have freedWellFormed := wellFormed.detach below
  rcases wellFormed.connectable_detach connectable with ⟨free, top⟩
  unfold Workspace.put
  simp only [relink, Edit.apply_bind, Edit.apply_modify]
  generalize workspace.detach below = freed at *
  rcases Option.isSome_iff_exists.mp free.presentAbove with ⟨upper, found⟩
  have hung : (freed.revise above (·.attach place below)).revise below (·.anchor place above) =
      freed.hang above place below := rfl
  simp only [apply_fetch_of_present found, apply_update_of_present free.presentAbove]
  rw [apply_update_of_present (by simpa using free.presentBelow)]
  simp only [hung, child_of_block found]
  cases taken : upper.child? place with
  | none => rfl
  | some displaced =>
    have settled := freedWellFormed.apply_settle free top ((child_of_block found place).trans taken)
    simp only [Edit.apply_bind, settled, Edit.apply_tell]

theorem WellFormed.apply_holderFor (wellFormed : workspace.WellFormed)
    (connectable : workspace.Connectable above below)
    (found : workspace.block? above = some upper) :
    (holderFor above place below).apply workspace =
      if place = .body ∧ !upper.kind.hasBody then
        (.error (.notAContainer above upper.kind), workspace)
      else (.ok upper, workspace) := by
  simp only [holderFor, Edit.apply_bind, wellFormed.apply_checkConnectable connectable,
    apply_fetch_of_present found]
  split <;> rfl

theorem apply_connect_of_refused {error : EditError}
    (refused : (checkConnectable above below).apply workspace = (.error error, workspace)) :
    (connect above place below).apply workspace = (.error error, workspace) := by
  simp only [connect_eq, holderFor, Edit.apply_bind, refused]

/-- A connection that passes the check moves the newcomer to its place, unless it is there
already or its holder has no such place. -/
theorem WellFormed.apply_connect (wellFormed : workspace.WellFormed)
    (connectable : workspace.Connectable above below)
    (found : workspace.block? above = some upper) :
    (connect above place below).apply workspace =
      if place = .body ∧ !upper.kind.hasBody then
        (.error (.notAContainer above upper.kind), workspace)
      else (.ok (), if workspace.links.child above place = some below then workspace
        else (workspace.put above place below).announce .move below) := by
  rw [connect_eq, Edit.apply_bind, wellFormed.apply_holderFor connectable found,
    child_of_block found]
  by_cases unfit : place = .body ∧ !upper.kind.hasBody
  · simp only [if_pos unfit]
  · simp only [if_neg unfit]
    by_cases already : upper.child? place = some below
    · simp only [if_pos already, Edit.apply_pure]
    · simp only [if_neg already, wellFormed.apply_relink place connectable]

end

/-! ## Unplugging -/

section

variable {workspace : Workspace}

theorem isTop_iff {id : BlockId} {block : Block} (found : workspace.block? id = some block) :
    block.isTop = true ↔ workspace.links.IsTop id := by
  simp [Block.isTop, Links.IsTop, previous_of_block found, parent_of_block found]

theorem apply_disconnect {id : BlockId} {block : Block}
    (found : workspace.block? id = some block) :
    (disconnect id).apply workspace = (.ok (),
      if block.isTop then workspace else (workspace.detach id).announce .move id) := by
  simp only [disconnect, Edit.apply_bind, apply_fetch_of_present found]
  split <;> rfl

end

end Workspace
end MotionBlocks
