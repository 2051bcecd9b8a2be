import MotionBlocks.Proofs.Forest.Connect

namespace MotionBlocks

/-!
# Deleting a block

A deletion closes the gap first and then takes out the block with all that is
plugged into it.  In between, the block that goes still stores its old links,
although nothing leads to it any more.  The traversal that collects what goes
with it starts below it and never meets it, so it reads the links as they are
after the gap has been closed.
-/

namespace Workspace

/-- The workspace after the gap that a block leaves has been closed. -/
def close (id : BlockId) (block : Block) (workspace : Workspace) : Workspace :=
  let raised := workspace.reviseLinked block.next fun successor =>
    { successor with previous := block.previous }
  match block.previous, block.parent with
  | some previous, _ => raised.revise previous fun before => { before with next := block.next }
  | none, none => raised
  | none, some parent =>
    if workspace.links.child parent .body = some id then
      (raised.revise parent fun owner => { owner with body := block.next }).reviseLinked block.next
        fun successor => { successor with parent := some parent }
    else raised.revise parent fun owner => { owner with slots := owner.slots.keep (· != id) }

section

variable {workspace : Workspace} {id : BlockId} {block : Block}

/-! ## Closing the gap -/

theorem WellFormed.apply_heal (wellFormed : workspace.WellFormed)
    (found : workspace.block? id = some block) :
    (heal id block).apply workspace = (.ok (), workspace.close id block) := by
  have presentNext : ∀ other, block.next = some other → (workspace.block? other).isSome := by
    intro other next
    exact wellFormed.isSome_below ⟨.next, (child_of_block found .next).trans next⟩
  unfold heal close
  cases following : block.next with
  | none =>
    cases before : block.previous with
    | some previous => exact apply_update_of_present (wellFormed.isSome_previous found before) _
    | none =>
      cases owner : block.parent with
      | none => rfl
      | some parent =>
        have there := wellFormed.isSome_parent found owner
        rcases Option.isSome_iff_exists.mp there with ⟨upper, foundUpper⟩
        simp only [Edit.apply_bind, apply_fetch_of_present foundUpper, reviseLinked,
          child_of_block foundUpper, Block.child?]
        by_cases heads : upper.body = some id
        · simp [heads, apply_update_of_present there]
        · simp [heads, apply_update_of_present there]
  | some next =>
    have thereNext := presentNext next following
    have raised := apply_update_of_present thereNext fun successor =>
      { successor with previous := block.previous }
    simp only [Edit.apply_bind, raised, reviseLinked]
    cases before : block.previous with
    | some previous =>
      exact apply_update_of_present (by simpa using wellFormed.isSome_previous found before) _
    | none =>
      cases owner : block.parent with
      | none => simp
      | some parent =>
        have there := wellFormed.isSome_parent found owner
        rcases Option.isSome_iff_exists.mp there with ⟨upper, foundUpper⟩
        have kept : ∃ successor, (workspace.revise next fun successor =>
            { successor with previous := none }).block? parent = some successor ∧
              successor.body = upper.body := by
          rw [block?_revise, foundUpper]
          split <;> exact ⟨_, rfl, rfl⟩
        rcases kept with ⟨successor, foundSuccessor, sameBody⟩
        simp only [Edit.apply_bind, apply_fetch_of_present foundSuccessor, sameBody,
          child_of_block foundUpper, Block.child?]
        by_cases heads : upper.body = some id
        · simp [heads, Edit.apply_bind, apply_update_of_present, there, thereNext]
        · simp [heads, apply_update_of_present, there]

@[simp] theorem size_close : (workspace.close id block).size = workspace.size := by
  unfold close
  split
  · simp
  · simp
  · split <;> simp

/-- Closing a gap in a well-formed workspace touches the successor, what the
block followed, and what it was plugged into. -/
theorem WellFormed.block?_close (wellFormed : workspace.WellFormed)
    (found : workspace.block? id = some block) (other : BlockId) :
    (workspace.close id block).block? other = (workspace.block? other).map fun old =>
      { old with
        previous := if block.next = some other then block.previous else old.previous
        parent :=
          if block.next = some other ∧ (workspace.links.bodyHolder id).isSome then block.parent
          else old.parent
        next := if block.previous = some other then block.next else old.next
        body := if block.parent = some other ∧ old.body = some id then block.next else old.body
        slots :=
          if block.parent = some other ∧ old.body ≠ some id then old.slots.keep (· != id)
          else old.slots } := by
  have exclusive := wellFormed.sound.exclusive id
  rw [previous_of_block found, parent_of_block found] at exclusive
  unfold close Links.bodyHolder
  rw [parent_of_block found]
  cases there : workspace.block? other with
  | none =>
    split
    · simp [block?_revise, block?_reviseLinked, there]
    · simp [block?_reviseLinked, there]
    · split <;> simp [block?_revise, block?_reviseLinked, there]
  | some old =>
    have body := child_of_block there .body
    simp only [Block.child?] at body
    cases before : block.previous with
    | some previous =>
      have unplugged : block.parent = none := by simpa [before] using exclusive
      simp only [block?_revise, block?_reviseLinked, there, unplugged]
      rcases eq_or_ne other previous with rfl | away
      · by_cases next : block.next = some other <;> simp [next]
      · by_cases next : block.next = some other <;> simp [next, away, away.symm]
    | none =>
      cases owner : block.parent with
      | none =>
        simp only [block?_reviseLinked, there]
        by_cases next : block.next = some other <;> simp [next]
      | some parent =>
        by_cases heads : workspace.links.child parent .body = some id
        · simp only [heads, if_true, block?_revise, block?_reviseLinked, there]
          rcases eq_or_ne other parent with rfl | away
          · have nested : old.body = some id := body.symm.trans heads
            by_cases next : block.next = some other <;> simp [next, nested, heads]
          · by_cases next : block.next = some other <;> simp [next, away, away.symm, heads]
        · simp only [heads, if_false, block?_revise, block?_reviseLinked, there]
          rcases eq_or_ne other parent with rfl | away
          · have notNested : old.body ≠ some id := fun nested => heads (body.trans nested)
            by_cases next : block.next = some other <;> simp [next, notNested, heads]
          · by_cases next : block.next = some other <;> simp [next, away, away.symm, heads]

/-! ## The links around the gap -/

/-- Away from the block that goes, the blocks lead on to where they lead once its
successor has its place. -/
theorem WellFormed.child_close (wellFormed : workspace.WellFormed)
    (found : workspace.block? id = some block) {other : BlockId} (different : other ≠ id)
    (place : Place) :
    (workspace.close id block).links.child other place =
      (workspace.links.splice id).child other place := by
  have read := wellFormed.block?_close found other
  cases there : workspace.block? other with
  | none =>
    rw [there] at read
    simp [links, read, Links.splice, there]
  | some old =>
    have follows := wellFormed.next_iff_previous there found
    have kept := (wellFormed.regular there).distinct.get?_keep (· != id)
    rw [there] at read
    simp only [Links.splice, child_of_block there, child_of_block found, different, false_and,
      if_false]
    simp only [links, read, Option.map_some, Option.bind_some]
    cases place with
    | next =>
      simp only [Block.child?]
      grind
    | body =>
      have owned := wellFormed.parent_of_plugged there found (by simp : Place.body ≠ .next)
      simp only [Block.child?] at *
      grind
    | slot name =>
      have owned := wellFormed.parent_of_plugged there found (by simp : Place.slot name ≠ .next)
      by_cases plugged : old.child? (.slot name) = some id
      · have notNested : old.body ≠ some id := by
          intro nested
          have same := wellFormed.sound.place_unique ((child_of_block there .body).trans nested)
            ((child_of_block there (.slot name)).trans plugged)
          simp at same
        rw [if_pos plugged]
        simp only [Block.child?] at plugged owned ⊢
        simp [owned plugged, notNested, plugged, kept]
      · rw [if_neg plugged]
        simp only [Block.child?] at plugged ⊢
        split
        · rw [kept]
          cases value : old.slots.get? name <;> grind
        · rfl

theorem WellFormed.previous_close (wellFormed : workspace.WellFormed)
    (found : workspace.block? id = some block) {other : BlockId} (different : other ≠ id) :
    (workspace.close id block).links.previous other =
      (workspace.links.splice id).previous other := by
  have read := wellFormed.block?_close found other
  cases there : workspace.block? other with
  | none =>
    rw [there] at read
    simp [links, read, Links.splice, there]
  | some old =>
    have precedes := wellFormed.next_iff_previous found there
    rw [there] at read
    simp only [Links.splice, previous_of_block there, previous_of_block found, different, if_false]
    simp only [links, read, Option.map_some, Option.bind_some]
    grind

/-- A successor that moves up to the head of a nested chain is all that gets
another parent. -/
theorem WellFormed.parent_close (wellFormed : workspace.WellFormed)
    (found : workspace.block? id = some block) {other : BlockId} (different : other ≠ id) :
    (workspace.close id block).links.parent other = (workspace.links.splice id).parent other := by
  have read := wellFormed.block?_close found other
  cases there : workspace.block? other with
  | none =>
    rw [there] at read
    simp [links, read, Links.splice, there]
  | some old =>
    have precedes := wellFormed.next_iff_previous found there
    have exclusive := wellFormed.sound.exclusive other
    have holder : (if (workspace.links.bodyHolder id).isSome then block.parent else none) =
        workspace.links.bodyHolder id := by
      unfold Links.bodyHolder
      rw [parent_of_block found]
      cases block.parent with
      | none => rfl
      | some owner =>
        by_cases heads : workspace.links.child owner .body = some id <;>
          simp [Option.filter, heads]
    rw [there] at read
    rw [previous_of_block there, parent_of_block there] at exclusive
    simp only [Links.splice, previous_of_block there, parent_of_block there, different, if_false]
    generalize workspace.links.bodyHolder id = head at *
    simp only [links, read, Option.map_some, Option.bind_some]
    by_cases behind : old.previous = some id
    · have free : old.parent = none := by simpa [behind] using exclusive
      simp only [behind, precedes.mpr behind, true_and, if_true, free, holder]
    · simp [behind, precedes]

theorem WellFormed.isSome_close (wellFormed : workspace.WellFormed)
    (found : workspace.block? id = some block) (other : BlockId) :
    ((workspace.close id block).block? other).isSome = (workspace.block? other).isSome := by
  simp [wellFormed.block?_close found]

theorem WellFormed.regular_close (wellFormed : workspace.WellFormed)
    (found : workspace.block? id = some block) {other : BlockId} {changed : Block}
    (there : (workspace.close id block).block? other = some changed) : changed.Regular := by
  rw [wellFormed.block?_close found] at there
  rcases Option.map_eq_some_iff.mp there with ⟨old, before, rfl⟩
  have regular := wellFormed.regular before
  constructor
  · intro owns
    refine regular.loop_of_body fun bare => owns ?_
    simp [bare]
  · simp only
    split
    · exact regular.distinct.keep _
    · exact regular.distinct

/-! ## What goes with the block -/

/-- The block that is deleted and everything plugged into it. -/
def doomed (id : BlockId) (block : Block) (workspace : Workspace) : List BlockId :=
  id :: workspace.visited workspace.size block.owned

/-- What is plugged into the block is all that it still holds once its successor
has taken its place. -/
theorem WellFormed.mem_owned_iff_holds (wellFormed : workspace.WellFormed)
    (found : workspace.block? id = some block) (child : BlockId) :
    child ∈ block.owned ↔ (workspace.links.splice id).Holds id child := by
  have children := child_of_block found
  have notSelf : ∀ place, block.child? place ≠ some id := by
    intro place held
    exact wellFormed.sound.not_returns id (.single ⟨place, (children place).trans held⟩)
  rw [(wellFormed.regular found).mem_owned_iff]
  constructor
  · rintro ⟨place, plugged, held⟩
    refine ⟨place, Links.splice_child_eq_some_iff.mpr
      (Or.inl ⟨(children place).trans held, ?_, ?_⟩)⟩
    · exact fun equal => notSelf place (equal ▸ held)
    · exact fun tail => plugged tail.2
  · rintro ⟨place, held⟩
    rcases Links.splice_child_eq_some_iff.mp held with ⟨old, -, notTail⟩ | ⟨gap, -⟩
    · exact ⟨place, fun isNext => notTail ⟨rfl, isNext⟩, (children place).symm.trans old⟩
    · exact absurd ((children place).symm.trans gap) (notSelf place)

theorem WellFormed.ne_of_reaches_owned (wellFormed : workspace.WellFormed)
    (found : workspace.block? id = some block) {root lower : BlockId} (listed : root ∈ block.owned)
    (path : (workspace.links.splice id).Reaches root lower) : lower ≠ id := by
  intro equal
  exact (wellFormed.sound.splice id).not_reaches_of_holds
    ((wellFormed.mem_owned_iff_holds found root).mp listed) (equal ▸ path)

theorem WellFormed.isSome_of_splice_holds (wellFormed : workspace.WellFormed)
    {above below : BlockId} (held : (workspace.links.splice id).Holds above below) :
    (workspace.block? below).isSome := by
  rcases held with ⟨place, held⟩
  rcases Links.splice_child_eq_some_iff.mp held with ⟨old, -⟩ | ⟨-, old, -⟩
  · exact wellFormed.isSome_below ⟨place, old⟩
  · exact wellFormed.isSome_below ⟨.next, old⟩

/-- The traversal of what is plugged into the block never meets the block itself,
so it reads the links with the gap closed. -/
theorem WellFormed.stores_close (wellFormed : workspace.WellFormed)
    (found : workspace.block? id = some block) :
    (workspace.close id block).Stores (workspace.links.splice id) block.owned := by
  intro root listed lower path
  have different := wellFormed.ne_of_reaches_owned found listed path
  have present : ((workspace.close id block).block? lower).isSome := by
    rw [wellFormed.isSome_close found]
    rcases Relation.ReflTransGen.cases_tail path with equal | ⟨above, -, held⟩
    · rw [equal]
      exact wellFormed.isSome_of_splice_holds
        ((wellFormed.mem_owned_iff_holds found root).mp listed)
    · exact wellFormed.isSome_of_splice_holds held
  rcases Option.isSome_iff_exists.mp present with ⟨changed, there⟩
  refine ⟨changed, there, wellFormed.regular_close found there, fun place => ?_⟩
  rw [← wellFormed.child_close found different, child_of_block there]

theorem WellFormed.apart_owned (wellFormed : workspace.WellFormed)
    (found : workspace.block? id = some block) :
    Apart (workspace.links.splice id) block.owned := by
  have children := child_of_block found
  have nodup := (wellFormed.regular found).nodup_children
    fun first second child firstHeld secondHeld =>
      wellFormed.sound.place_unique ((children first).trans firstHeld)
        ((children second).trans secondHeld)
  have single : Apart (workspace.links.splice id) [id] := List.pairwise_singleton _ _
  simpa using single.children (wellFormed.sound.splice id) (List.nodup_append'.mp nodup).2.1
    (wellFormed.mem_owned_iff_holds found)

/-- The traversal ends before its bound cuts it off. -/
theorem WellFormed.length_visited_close_lt (wellFormed : workspace.WellFormed)
    (found : workspace.block? id = some block) :
    ((workspace.close id block).visited workspace.size block.owned).length < workspace.size := by
  have sound := wellFormed.sound.splice id
  have stores := wellFormed.stores_close found
  have nodup := stores.nodup_visited sound workspace.size (wellFormed.apart_owned found)
  have new : id ∉ (workspace.close id block).visited workspace.size block.owned := by
    intro met
    rcases stores.reaches_of_mem_visited sound _ met with ⟨root, listed, path⟩
    exact wellFormed.ne_of_reaches_owned found listed path rfl
  have bound := (workspace.close id block).store.length_le_size
    (List.nodup_cons.mpr ⟨new, nodup⟩) (by
      intro other listed
      rcases List.mem_cons.mp listed with equal | met
      · rw [equal, ← block?, wellFormed.isSome_close found, found]
        rfl
      · exact stores.isSome_of_mem_visited sound _ met)
  rwa [← size, size_close] at bound

/-- What goes is the subtree that is left below the block once its successor
has taken its place. -/
theorem WellFormed.mem_doomed_iff (wellFormed : workspace.WellFormed)
    (found : workspace.block? id = some block) (other : BlockId) :
    other ∈ (workspace.close id block).doomed id block ↔
      (workspace.links.splice id).Reaches id other := by
  have sound := wellFormed.sound.splice id
  have member := wellFormed.mem_owned_iff_holds found
  have stores := wellFormed.stores_close found
  unfold doomed
  rw [size_close, List.mem_cons]
  constructor
  · rintro (equal | met)
    · exact equal ▸ .refl
    · rcases stores.reaches_of_mem_visited sound _ met with ⟨root, listed, path⟩
      exact .head ((member root).mp listed) path
  · intro path
    rcases Relation.ReflTransGen.cases_head path with equal | ⟨root, held, rest⟩
    · exact Or.inl equal.symm
    · exact Or.inr (stores.mem_visited_of_reaches sound _
        (wellFormed.length_visited_close_lt found) ((member root).mpr held) rest)

theorem WellFormed.apply_delete (wellFormed : workspace.WellFormed)
    (found : workspace.block? id = some block) :
    (delete id).apply workspace = (.ok (),
      ((workspace.close id block).remove
        ((workspace.close id block).doomed id block)).announce .delete id) := by
  simp only [delete, Edit.apply_bind, apply_fetch_of_present found, wellFormed.apply_heal found,
    Edit.apply_modify, Edit.apply_tell, doomed]

/-- What is left after a deletion stores the links of a subtree taken out. -/
theorem WellFormed.links_remove_doomed (wellFormed : workspace.WellFormed)
    (found : workspace.block? id = some block) :
    ((workspace.close id block).remove ((workspace.close id block).doomed id block)).links =
      (workspace.links.splice id).drop (· ∈ (workspace.close id block).doomed id block) := by
  have itself := (wellFormed.mem_doomed_iff found id).mpr .refl
  generalize (workspace.close id block).doomed id block = doomed at itself
  have different : ∀ {other}, other ∉ doomed → other ≠ id := fun kept equal =>
    kept (equal ▸ itself)
  ext other
  · rename_i place below
    by_cases kept : other ∈ doomed
    · simp [links, block?_remove, Links.drop, kept]
    · simp only [Links.drop, kept, if_false, ← wellFormed.child_close found (different kept)]
      simp [links, block?_remove, kept]
  · by_cases kept : other ∈ doomed
    · simp [links, block?_remove, Links.drop, kept]
    · simp only [Links.drop, kept, if_false, ← wellFormed.previous_close found (different kept)]
      simp [links, block?_remove, kept]
  · by_cases kept : other ∈ doomed
    · simp [links, block?_remove, Links.drop, kept]
    · simp only [Links.drop, kept, if_false, ← wellFormed.parent_close found (different kept)]
      simp [links, block?_remove, kept]

theorem WellFormed.remove_doomed (wellFormed : workspace.WellFormed)
    (found : workspace.block? id = some block) :
    ((workspace.close id block).remove
      ((workspace.close id block).doomed id block)).WellFormed := by
  constructor
  · rw [wellFormed.links_remove_doomed found]
    exact (wellFormed.sound.splice id).drop Links.isTop_splice (wellFormed.mem_doomed_iff found)
  · intro other changed there
    rw [block?_remove] at there
    split at there
    · simp at there
    · exact wellFormed.regular_close found there

end

end Workspace
end MotionBlocks
