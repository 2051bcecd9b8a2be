import Mathlib.Data.List.Nodup
import Mathlib.Data.List.Perm.Subperm
import MotionBlocks.Proofs.Forest.Chains
import MotionBlocks.Proofs.Forest.View

namespace MotionBlocks

/-!
# Looking along the links

The traversals of a workspace are cut off after as many steps as there are
blocks.  In a forest no path and no traversal meets a block twice, so the
cut-off is never reached: a traversal finds the whole subtree of each of its
starting points, a walk along a chain stops at the end of the chain, and no
nesting is deeper than the number of blocks.
-/

/-- With distinct names, values are distinct when each is found under one name. -/
theorem Table.Distinct.nodup_values {α : Type} {table : Table α} (distinct : table.Distinct)
    (single : ∀ first second value, table.get? first = some value →
      table.get? second = some value → first = second) : table.values.Nodup := by
  refine List.Nodup.map_on ?_ (List.Nodup.of_map _ distinct)
  rintro ⟨first, value⟩ firstListed ⟨second, other⟩ secondListed rfl
  rw [single first second value ((distinct.get?_eq_some_iff first value).mpr firstListed)
    ((distinct.get?_eq_some_iff second value).mpr secondListed)]

/-- There are no more different blocks than the store counts. -/
theorem BlockStore.length_le_size (store : BlockStore) {ids : List BlockId} (nodup : ids.Nodup)
    (present : ∀ id ∈ ids, (store.get? id).isSome) : ids.length ≤ store.size := by
  rw [← store.length_toList, ← List.length_map Prod.fst]
  refine (nodup.subperm ?_).length_le
  intro id member
  rcases Option.isSome_iff_exists.mp (present id member) with ⟨block, found⟩
  exact List.mem_map.mpr ⟨(id, block), (store.mem_toList_iff id block).mpr found, rfl⟩

/-! ## The blocks that hang from a block -/

theorem Block.Regular.mem_children_iff {block : Block} (regular : block.Regular) (id : BlockId) :
    id ∈ block.children ↔ ∃ place, block.child? place = some id := by
  simp only [Block.children, Block.owned, List.mem_append, Option.mem_toList,
    regular.distinct.mem_values_iff]
  constructor
  · rintro (chained | nested | ⟨name, plugged⟩)
    · exact ⟨.next, chained⟩
    · exact ⟨.body, nested⟩
    · exact ⟨.slot name, plugged⟩
  · rintro ⟨place, held⟩
    cases place with
    | next => exact Or.inl held
    | body => exact Or.inr (Or.inl held)
    | slot name => exact Or.inr (Or.inr ⟨name, held⟩)

theorem Block.Regular.mem_owned_iff {block : Block} (regular : block.Regular) (id : BlockId) :
    id ∈ block.owned ↔ ∃ place, place ≠ .next ∧ block.child? place = some id := by
  simp only [Block.owned, List.mem_append, Option.mem_toList, regular.distinct.mem_values_iff]
  constructor
  · rintro (nested | ⟨name, plugged⟩)
    · exact ⟨.body, by simp, nested⟩
    · exact ⟨.slot name, by simp, plugged⟩
  · rintro ⟨place, notNext, held⟩
    cases place with
    | next => exact absurd rfl notNext
    | body => exact Or.inl held
    | slot name => exact Or.inr ⟨name, held⟩

theorem Block.Regular.nodup_children {block : Block} (regular : block.Regular)
    (single : ∀ first second id, block.child? first = some id → block.child? second = some id →
      first = second) : block.children.Nodup := by
  have plugged : block.slots.values.Nodup := by
    refine regular.distinct.nodup_values fun first second id firstFound secondFound => ?_
    exact Place.slot.inj (single (.slot first) (.slot second) id firstFound secondFound)
  have toList : ∀ link : Option BlockId, link.toList.Nodup := fun link => by cases link <;> simp
  refine List.nodup_append'.mpr ⟨toList _, List.nodup_append'.mpr ⟨toList _, plugged, ?_⟩, ?_⟩
  · intro id nested member
    rcases (regular.distinct.mem_values_iff id).mp member with ⟨name, found⟩
    have := single .body (.slot name) id (Option.mem_toList.mp nested) found
    simp at this
  · intro id chained member
    rcases (regular.mem_owned_iff id).mp member with ⟨place, notNext, found⟩
    exact notNext (single .next place id (Option.mem_toList.mp chained) found).symm

/-! ## Depth -/

namespace Links

/-- No path from a block passes more than a number of blocks, itself counted. -/
def Shallow (links : Links) : Nat → BlockId → Prop
  | 0, _ => False
  | depth + 1, id => ∀ below, links.Holds id below → links.Shallow depth below

end Links

namespace Workspace

/-- Paths only pass blocks that are there, each once, so none is longer than the
number of blocks. -/
theorem WellFormed.shallow {workspace : Workspace} (wellFormed : workspace.WellFormed)
    {id : BlockId} (present : (workspace.block? id).isSome) :
    workspace.links.Shallow workspace.size id := by
  have general : ∀ (depth : Nat) (id : BlockId) (passed : List BlockId),
      (workspace.block? id).isSome → passed.Nodup →
      (∀ above ∈ passed, (workspace.block? above).isSome) →
      (∀ above ∈ passed, Relation.TransGen workspace.links.Holds above id) →
      workspace.size ≤ passed.length + depth → workspace.links.Shallow depth id := by
    intro depth
    induction depth with
    | zero =>
      intro id passed present nodup presentPassed paths enough
      have new : id ∉ passed := fun member => wellFormed.sound.not_returns id (paths id member)
      have bound := workspace.store.length_le_size (List.nodup_cons.mpr ⟨new, nodup⟩) (by
        simpa using ⟨present, presentPassed⟩)
      exact absurd (bound.trans enough) (by simp)
    | succ depth ih =>
      intro id passed present nodup presentPassed paths enough below held
      have new : id ∉ passed := fun member => wellFormed.sound.not_returns id (paths id member)
      refine ih below (id :: passed) (wellFormed.isSome_below held)
        (List.nodup_cons.mpr ⟨new, nodup⟩) (by simpa using ⟨present, presentPassed⟩) ?_ ?_
      · intro above member
        rcases List.mem_cons.mp member with equal | member
        · exact equal ▸ .single held
        · exact (paths above member).tail held
      · simp only [List.length_cons]
        omega
  exact general workspace.size id [] present List.nodup_nil (by simp) (by simp) (by simp)

/-! ## Ends of chains -/

/-- A walk along a chain that is not too long passes the whole chain.  Links elsewhere
do not matter to it. -/
theorem chain_lastWithin {workspace : Workspace} {links : Links} {steps : Nat} {head : BlockId}
    (same : ∀ id, links.Reaches head id → workspace.links.child id .next = links.child id .next)
    (shallow : links.Shallow steps head) :
    ∃ front, links.Chain (some head) (front ++ [workspace.lastWithin steps head]) := by
  induction steps generalizing head with
  | zero => exact absurd shallow id
  | succ steps ih =>
    have here : (workspace.block? head).bind (·.next) = links.child head .next := same head .refl
    cases following : links.child head .next with
    | none =>
      simp only [lastWithin, here, following]
      exact ⟨[], .block (following ▸ .ends)⟩
    | some next =>
      have held : links.Holds head next := ⟨.next, following⟩
      simp only [lastWithin, here, following]
      rcases ih (fun id path => same id (path.head held)) (shallow next held) with ⟨front, chain⟩
      exact ⟨head :: front, .block (following ▸ chain)⟩

/-- The chain that a link leads to ends. -/
theorem WellFormed.exists_chain {workspace : Workspace} (wellFormed : workspace.WellFormed)
    {start : Option BlockId} (present : ∀ head ∈ start, (workspace.block? head).isSome) :
    ∃ ids, workspace.links.Chain start ids := by
  cases start with
  | none => exact ⟨[], .ends⟩
  | some head =>
    rcases chain_lastWithin (fun _ _ => rfl) (wellFormed.shallow (present head rfl)) with
      ⟨front, chain⟩
    exact ⟨_, chain⟩

/-! ## Traversals -/

/-- Sound links that the blocks below some starting points store.  Blocks
elsewhere may store others, as they do half way through an edit. -/
def Stores (workspace : Workspace) (links : Links) (roots : List BlockId) : Prop :=
  ∀ root ∈ roots, ∀ id, links.Reaches root id → ∃ block, workspace.block? id = some block ∧
    block.Regular ∧ ∀ place, block.child? place = links.child id place

section

variable {workspace : Workspace} {links : Links}

theorem WellFormed.stores (wellFormed : workspace.WellFormed) {roots : List BlockId}
    (present : ∀ root ∈ roots, (workspace.block? root).isSome) :
    workspace.Stores workspace.links roots := by
  intro root member id path
  have here : (workspace.block? id).isSome := by
    rcases Relation.ReflTransGen.cases_tail path with equal | ⟨above, -, held⟩
    · exact equal ▸ present root member
    · exact wellFormed.isSome_below held
  rcases Option.isSome_iff_exists.mp here with ⟨block, found⟩
  exact ⟨block, found, wellFormed.regular found, fun place => (child_of_block found place).symm⟩

/-- The first visit of a traversal, and what is left to visit. -/
theorem Stores.visit {id : BlockId} {waiting : List BlockId}
    (stores : workspace.Stores links (id :: waiting)) (sound : links.Sound) :
    ∃ children : List BlockId, (∀ visits, workspace.visited (visits + 1) (id :: waiting) =
        id :: workspace.visited visits (children ++ waiting)) ∧
      children.Nodup ∧ (∀ child, child ∈ children ↔ links.Holds id child) ∧
      workspace.Stores links (children ++ waiting) := by
  rcases stores id List.mem_cons_self id .refl with ⟨block, found, regular, same⟩
  have member : ∀ child, child ∈ block.children ↔ links.Holds id child := by
    intro child
    rw [regular.mem_children_iff]
    simp only [same]
    rfl
  refine ⟨block.children, fun visits => ?_, regular.nodup_children ?_, member, ?_⟩
  · simp [visited, found]
  · intro first second child firstFound secondFound
    exact sound.place_unique (same first ▸ firstFound) (same second ▸ secondFound)
  · intro root listed other path
    rcases List.mem_append.mp listed with isChild | isWaiting
    · exact stores id List.mem_cons_self other (.head ((member root).mp isChild) path)
    · exact stores root (List.mem_cons_of_mem id isWaiting) other path

/-- Every block that a traversal meets lies below a starting point. -/
theorem Stores.reaches_of_mem_visited (sound : links.Sound) (visits : Nat) {roots : List BlockId}
    (stores : workspace.Stores links roots) {id : BlockId}
    (met : id ∈ workspace.visited visits roots) : ∃ root ∈ roots, links.Reaches root id := by
  induction visits generalizing roots with
  | zero => simp [visited] at met
  | succ visits ih =>
    cases roots with
    | nil => simp [visited] at met
    | cons first waiting =>
      rcases stores.visit sound with ⟨children, step, -, member, rest⟩
      rw [step, List.mem_cons] at met
      rcases met with equal | later
      · exact ⟨first, List.mem_cons_self, equal ▸ .refl⟩
      · rcases ih rest later with ⟨root, listed, path⟩
        rcases List.mem_append.mp listed with isChild | isWaiting
        · exact ⟨first, List.mem_cons_self, .head ((member root).mp isChild) path⟩
        · exact ⟨root, List.mem_cons_of_mem first isWaiting, path⟩

/-- A traversal that was not cut off has met everything below its starting
points. -/
theorem Stores.mem_visited_of_reaches (sound : links.Sound) (visits : Nat) {roots : List BlockId}
    (stores : workspace.Stores links roots)
    (notCut : (workspace.visited visits roots).length < visits) {root id : BlockId}
    (listed : root ∈ roots) (path : links.Reaches root id) :
    id ∈ workspace.visited visits roots := by
  induction visits generalizing roots root with
  | zero => exact absurd notCut (Nat.not_lt_zero _)
  | succ visits ih =>
    cases roots with
    | nil => simp at listed
    | cons first waiting =>
      rcases stores.visit sound with ⟨children, step, -, member, rest⟩
      rw [step] at notCut ⊢
      have restNotCut := Nat.lt_of_succ_lt_succ notCut
      rcases List.mem_cons.mp listed with equal | isWaiting
      · subst equal
        rcases Relation.ReflTransGen.cases_head path with equal | ⟨child, held, below⟩
        · exact equal ▸ List.mem_cons_self
        · have isChild := List.mem_append_left waiting ((member child).mpr held)
          exact List.mem_cons_of_mem _ (ih rest restNotCut isChild below)
      · exact List.mem_cons_of_mem _ (ih rest restNotCut (List.mem_append_right _ isWaiting) path)

/-- Starting points of which none lies below another one. -/
def Apart (links : Links) (roots : List BlockId) : Prop :=
  roots.Pairwise fun first second => ¬ links.Reaches first second ∧ ¬ links.Reaches second first

theorem Apart.children {id : BlockId} {children waiting : List BlockId} (sound : links.Sound)
    (nodup : children.Nodup) (member : ∀ child, child ∈ children ↔ links.Holds id child)
    (apart : Apart links (id :: waiting)) : Apart links (children ++ waiting) := by
  rcases List.pairwise_cons.mp apart with ⟨far, apart⟩
  refine List.pairwise_append.mpr ⟨?_, apart, ?_⟩
  · refine nodup.imp_of_mem ?_
    intro first second firstListed secondListed different
    have firstHeld := (member first).mp firstListed
    have secondHeld := (member second).mp secondListed
    exact ⟨sound.apart_of_holds firstHeld secondHeld different,
      sound.apart_of_holds secondHeld firstHeld different.symm⟩
  · intro child childListed other otherListed
    have held := (member child).mp childListed
    constructor
    · intro path
      exact (far other otherListed).1 (.head held path)
    · intro path
      by_cases equal : other = child
      · exact (far other otherListed).1 (equal ▸ .single held)
      · exact (far other otherListed).2 (sound.reaches_holder path held equal)

/-- A traversal from starting points that are apart meets no block twice. -/
theorem Stores.nodup_visited (sound : links.Sound) (visits : Nat) {roots : List BlockId}
    (stores : workspace.Stores links roots) (apart : Apart links roots) :
    (workspace.visited visits roots).Nodup := by
  induction visits generalizing roots with
  | zero => simp [visited]
  | succ visits ih =>
    cases roots with
    | nil => simp [visited]
    | cons first waiting =>
      rcases stores.visit sound with ⟨children, step, nodup, member, rest⟩
      rw [step, List.nodup_cons]
      refine ⟨fun again => ?_, ih rest (apart.children sound nodup member)⟩
      rcases rest.reaches_of_mem_visited sound visits again with ⟨root, listed, path⟩
      rcases List.mem_append.mp listed with isChild | isWaiting
      · exact sound.not_reaches_of_holds ((member root).mp isChild) path
      · exact ((List.pairwise_cons.mp apart).1 root isWaiting).2 path

theorem Stores.isSome_of_mem_visited (sound : links.Sound) (visits : Nat) {roots : List BlockId}
    (stores : workspace.Stores links roots) {id : BlockId}
    (met : id ∈ workspace.visited visits roots) : (workspace.block? id).isSome := by
  rcases stores.reaches_of_mem_visited sound visits met with ⟨root, listed, path⟩
  rcases stores root listed id path with ⟨block, found, -⟩
  simp [found]

/-- The test for being below a block is exact. -/
theorem WellFormed.reaches_iff (wellFormed : workspace.WellFormed) {root target : BlockId}
    (present : (workspace.block? root).isSome) :
    workspace.reaches root target = true ↔ workspace.links.Reaches root target := by
  have sound := wellFormed.sound
  have stores : workspace.Stores workspace.links [root] := by
    refine wellFormed.stores fun other listed => ?_
    exact List.mem_singleton.mp listed ▸ present
  have notCut : (workspace.visited (workspace.size + 1) [root]).length < workspace.size + 1 := by
    refine Nat.lt_succ_of_le (workspace.store.length_le_size ?_ ?_)
    · exact stores.nodup_visited sound _ (List.pairwise_singleton _ _)
    · intro id met
      exact stores.isSome_of_mem_visited sound _ met
  rw [reaches, List.contains_iff_mem]
  constructor
  · intro met
    rcases stores.reaches_of_mem_visited sound _ met with ⟨first, listed, path⟩
    exact List.mem_singleton.mp listed ▸ path
  · intro path
    exact stores.mem_visited_of_reaches sound _ notCut (List.mem_singleton_self root) path

end

end Workspace
end MotionBlocks
