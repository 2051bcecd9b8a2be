import Mathlib.Data.List.Sort
import MotionBlocks.Proofs.Forest.Delete

namespace MotionBlocks

/-!
# What edits of links leave alone

A block is more than its links: it has a kind, fields and a position, and a place
in the order of creation.  An edit of links keeps all that, although it writes
the blocks it links anew.  The inventory of a workspace is what is left of it when
links are not looked at.

That the order of creation is kept needs no proof about edits.  An inventory is in
the order of identifiers, so the blocks and what they hold determine it.
-/

/-- A block without its links. -/
def Block.bare (block : Block) : Block :=
  { ofKind block.kind with fields := block.fields, position := block.position }

namespace Workspace

/-- All blocks in the order of creation, without their links. -/
def inventory (workspace : Workspace) : List (BlockId × Block) :=
  workspace.blocks.map fun (id, block) => (id, block.bare)

section

variable {workspace first second : Workspace}

theorem mem_inventory_iff (id : BlockId) (content : Block) :
    (id, content) ∈ workspace.inventory ↔
      (workspace.block? id).map Block.bare = some content := by
  simp only [inventory, blocks, List.mem_map, Prod.exists, Prod.mk.injEq,
    BlockStore.mem_toList_iff, Option.map_eq_some_iff]
  constructor
  · rintro ⟨_, block, found, rfl, rfl⟩
    exact ⟨block, found, rfl⟩
  · rintro ⟨block, found, rfl⟩
    exact ⟨id, block, found, rfl, rfl⟩

theorem pairwise_inventory (workspace : Workspace) :
    workspace.inventory.Pairwise fun entry other => entry.1.Before other.1 :=
  List.pairwise_map.mpr (List.pairwise_map.mp workspace.store.pairwise_toList)

/-- What is left of the blocks is listed in the order in which they were listed. -/
theorem inventory_eq_filter (kept : ∀ id, (second.block? id).isSome →
      (second.block? id).map Block.bare = (first.block? id).map Block.bare) :
    second.inventory = first.inventory.filter fun entry => (second.block? entry.1).isSome := by
  let Earlier := fun entry other : BlockId × Block => entry.1.Before other.1
  have asymm : ∀ entry other, Earlier entry other → ¬ Earlier other entry :=
    fun _ _ before => before.asymm
  have : Std.Antisymm Earlier := ⟨fun _ _ before after => absurd after (asymm _ _ before)⟩
  have : Std.Irrefl Earlier := ⟨fun _ before => asymm _ _ before before⟩
  refine List.Pairwise.eq_of_mem_iff (r := Earlier) second.pairwise_inventory
    (first.pairwise_inventory.sublist List.filter_sublist) ?_
  rintro ⟨id, content⟩
  rw [List.mem_filter, mem_inventory_iff, mem_inventory_iff]
  constructor
  · intro found
    have present : (second.block? id).isSome := by
      rcases Option.map_eq_some_iff.mp found with ⟨block, there, -⟩
      simp [there]
    exact ⟨kept id present ▸ found, present⟩
  · rintro ⟨found, present⟩
    exact (kept id present).trans found

/-! ## The same blocks in another arrangement -/

/-- The same blocks with the same contents, whatever their links. -/
structure Rearranged (before after : Workspace) : Prop where
  bare : ∀ id, (after.block? id).map Block.bare = (before.block? id).map Block.bare

theorem Rearranged.isSome_eq (same : Rearranged first second) (id : BlockId) :
    (second.block? id).isSome = (first.block? id).isSome := by
  simpa using congrArg Option.isSome (same.bare id)

theorem Rearranged.inventory_eq (same : Rearranged first second) :
    second.inventory = first.inventory := by
  rw [inventory_eq_filter fun id _ => same.bare id, List.filter_eq_self]
  rintro ⟨id, content⟩ listed
  rw [same.isSome_eq]
  rcases Option.map_eq_some_iff.mp ((mem_inventory_iff id content).mp listed) with
    ⟨block, found, -⟩
  simp [found]

theorem rearranged_refl (workspace : Workspace) : Rearranged workspace workspace :=
  ⟨fun _ => rfl⟩

theorem Rearranged.revise (same : Rearranged first second) (id : BlockId)
    (change : Block → Block) (bare : ∀ block, (change block).bare = block.bare) :
    Rearranged first (second.revise id change) := by
  constructor
  intro other
  rw [block?_revise, ← same.bare other]
  cases second.block? other <;> split <;> simp [bare]

theorem Rearranged.announce (same : Rearranged first second) (kind : ChangeKind) (id : BlockId) :
    Rearranged first (second.announce kind id) := by
  constructor
  intro other
  rw [block?_announce, same.bare other]

theorem rearranged_detach (workspace : Workspace) (id : BlockId) :
    Rearranged workspace (workspace.detach id) := by
  cases found : workspace.block? id with
  | none => simpa [detach, found] using workspace.rearranged_refl
  | some block =>
    constructor
    intro other
    rw [block?_detach found]
    cases workspace.block? other <;> rfl

theorem Rearranged.hang (same : Rearranged first second) (above : BlockId) (place : Place)
    (below : BlockId) : Rearranged first (second.hang above place below) := by
  refine (same.revise above _ fun _ => ?_).revise below _ fun _ => ?_
  · cases place <;> rfl
  · cases place <;> rfl

theorem rearranged_put (workspace : Workspace) (above : BlockId) (place : Place)
    (below : BlockId) : Rearranged workspace (workspace.put above place below) := by
  have hung := (workspace.rearranged_detach below).hang above place below
  unfold Workspace.put
  dsimp only
  cases (workspace.detach below).links.child above place with
  | none => exact hung
  | some displaced =>
    cases place with
    | slot name =>
      refine (hung.revise displaced _ fun _ => ?_).announce .move displaced
      rfl
    | next | body =>
      refine (hung.revise _ _ fun _ => ?_).revise displaced _ fun _ => ?_
      · rfl
      · rfl

theorem WellFormed.rearranged_close (wellFormed : workspace.WellFormed) {id : BlockId}
    {block : Block} (found : workspace.block? id = some block) :
    Rearranged workspace (workspace.close id block) := by
  constructor
  intro other
  rw [wellFormed.block?_close found]
  cases workspace.block? other <;> rfl

end

end Workspace
end MotionBlocks
