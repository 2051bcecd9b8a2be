import MotionBlocks.Proofs.Forest.Inventory
import MotionBlocks.Proofs.Forest.Runs

namespace MotionBlocks

/-!
# What a deletion takes and what it leaves

A block goes together with what it owns: the blocks plugged into it and all that
hangs from those.  Its successors are not among them, although they hang from it,
because they hang from it by another link and no block hangs from two.  The first
of them takes the place of the block that goes, except that nothing follows a
block into a value slot.

Nothing that stays is linked to anything that went, and no link has changed that
did not lead to the block or to its successor.
-/

namespace Links

/-- What goes with a block: the block, what is plugged into it, and what hangs from
that. -/
def Owns (links : Links) (id other : BlockId) : Prop :=
  other = id ∨ ∃ place root, place ≠ .next ∧ links.child id place = some root ∧
    links.Reaches root other

/-- The successor of a block has its place, and nothing else has changed for the blocks
that do not go with it. -/
structure Closed (before after : Links) (id : BlockId) : Prop where
  follows : ∀ above next, before.child above .next = some id →
    before.child id .next = some next →
      after.child above .next = some next ∧ after.previous next = some above ∧
        after.parent next = none
  heads : ∀ above next, before.child above .body = some id →
    before.child id .next = some next →
      after.child above .body = some next ∧ after.parent next = some above ∧
        after.previous next = none
  rises : ∀ next, before.child id .next = some next →
    (before.IsTop id ∨ ∃ above name, before.child above (.slot name) = some id) →
      after.IsTop next
  vacated : ∀ above place, before.child above place = some id →
    (before.child id .next = none ∨ ∃ name, place = .slot name) → after.child above place = none
  child_eq : ∀ other place, ¬ before.Owns id other → before.child other place ≠ some id →
    after.child other place = before.child other place
  previous_eq : ∀ other, ¬ before.Owns id other → before.child id .next ≠ some other →
    after.previous other = before.previous other
  parent_eq : ∀ other, ¬ before.Owns id other → before.child id .next ≠ some other →
    after.parent other = before.parent other

section

variable {links : Links} {id other : BlockId}

theorem Owns.reaches (owned : links.Owns id other) : links.Reaches id other := by
  rcases owned with rfl | ⟨place, root, -, held, path⟩
  · exact .refl
  · exact .head ⟨place, held⟩ path

theorem Sound.not_owns_holder (sound : links.Sound) {above : BlockId}
    (held : links.Holds above id) : ¬ links.Owns id above :=
  fun owned => sound.not_reaches_of_holds held owned.reaches

/-- Nothing that hangs from the successor of a block goes with the block. -/
theorem Sound.not_owns_successor (sound : links.Sound) {next : BlockId}
    (following : links.child id .next = some next) (path : links.Reaches next other) :
    ¬ links.Owns id other := by
  rintro (rfl | ⟨place, root, plugged, held, down⟩)
  · exact sound.not_reaches_of_holds ⟨.next, following⟩ path
  · have different : root ≠ next := by
      rintro rfl
      exact plugged (sound.place_unique held following)
    rcases sound.reaches_total down path with up | up
    · exact sound.apart_of_holds ⟨place, held⟩ ⟨.next, following⟩ different up
    · exact sound.apart_of_holds ⟨.next, following⟩ ⟨place, held⟩ different.symm up

/-- With the gap closed, what still hangs from the block is what goes with it. -/
theorem Sound.reaches_splice_iff (sound : links.Sound) (id other : BlockId) :
    (links.splice id).Reaches id other ↔ links.Owns id other := by
  constructor
  · intro path
    rcases Relation.ReflTransGen.cases_head path with equal | ⟨root, ⟨place, held⟩, down⟩
    · exact .inl equal.symm
    · rcases splice_child_eq_some_iff.mp held with ⟨old, -, notTail⟩ | ⟨gap, -⟩
      · exact .inr ⟨place, root, fun isNext => notTail ⟨rfl, isNext⟩, old, reaches_of_splice down⟩
      · exact absurd .refl (sound.not_reaches_of_holds ⟨place, gap⟩)
  · rintro (rfl | ⟨place, root, plugged, held, path⟩)
    · exact .refl
    · have away : ∀ lower, links.Reaches root lower → lower ≠ id := fun lower path equal =>
        sound.not_reaches_of_holds ⟨place, held⟩ (equal ▸ path)
      refine .head ⟨place, splice_child_eq_some_iff.mpr
        (.inl ⟨held, away root .refl, fun tail => plugged tail.2⟩)⟩ ?_
      -- Below the root no link touches the block, so closing the gap leaves them all.
      induction path with
      | refl => exact .refl
      | @tail middle lower front step ih =>
        rcases step with ⟨where_, step⟩
        exact ih.tail ⟨where_, splice_child_eq_some_iff.mpr
          (.inl ⟨step, away lower (front.tail ⟨where_, step⟩), fun tail =>
            away middle front tail.1⟩)⟩

/-- The successor has the block's links upwards once the gap is closed. -/
theorem Sound.upward_splice (sound : links.Sound) {next : BlockId}
    (following : links.child id .next = some next) :
    (links.splice id).previous next = links.previous id ∧
      (links.splice id).parent next = links.bodyHolder id := by
  have different : next ≠ id := by
    rintro rfl
    exact sound.not_returns next (.single ⟨.next, following⟩)
  simp [Links.splice, different, (sound.upward_of_next following).1]

theorem Sound.bodyHolder_eq_none (sound : links.Sound)
    (headless : ∀ above, links.child above .body ≠ some id) : links.bodyHolder id = none := by
  rw [Option.eq_none_iff_forall_ne_some]
  exact fun above holder => headless above ((sound.bodyHolder_eq_some_iff id above).mp holder)

/-- Dropping what goes with a block once the gap has been closed. -/
theorem Sound.closed (sound : links.Sound) {gone : BlockId → Prop} [DecidablePred gone]
    (owned : ∀ other, gone other ↔ links.Owns id other) :
    links.Closed ((links.splice id).drop gone) id := by
  have holderStays : ∀ {above place}, links.child above place = some id → ¬ gone above :=
    fun held went => sound.not_owns_holder ⟨_, held⟩ ((owned _).mp went)
  have stays : ∀ {other}, ¬ links.Owns id other → ¬ gone other :=
    fun kept went => kept ((owned _).mp went)
  have apart : ∀ {other}, ¬ links.Owns id other → other ≠ id := fun kept equal => kept (.inl equal)
  -- The successor stays, and has the block's links upwards.
  have upward : ∀ {next}, links.child id .next = some next →
      ((links.splice id).drop gone).previous next = links.previous id ∧
        ((links.splice id).drop gone).parent next = links.bodyHolder id := by
    intro next following
    have nextStays := stays (sound.not_owns_successor following .refl)
    simpa only [Links.drop, nextStays, if_false] using sound.upward_splice following
  constructor
  · intro above next held following
    have headless : ∀ owner, links.child owner .body ≠ some id := fun owner nested => by
      cases (sound.holder_unique held nested).2
    rcases upward following with ⟨previous, parent⟩
    refine ⟨?_, previous.trans (sound.upward_of_next held).1,
      parent.trans (sound.bodyHolder_eq_none headless)⟩
    simp [Links.drop, Links.splice, holderStays held, held, following]
  · intro above next held following
    rcases upward following with ⟨previous, parent⟩
    refine ⟨?_, parent.trans ((sound.bodyHolder_eq_some_iff id above).mpr held),
      previous.trans (sound.upward_of_plugged (by simp) held).1⟩
    simp [Links.drop, Links.splice, holderStays held, held, following]
  · intro next following placed
    have free : links.previous id = none ∧ ∀ owner, links.child owner .body ≠ some id := by
      rcases placed with top | ⟨above, name, held⟩
      · exact ⟨top.1, fun owner nested => (sound.isTop_iff id).mp top owner ⟨.body, nested⟩⟩
      · refine ⟨(sound.upward_of_plugged (by simp) held).1, fun owner nested => ?_⟩
        cases (sound.holder_unique held nested).2
    rcases upward following with ⟨previous, parent⟩
    exact ⟨previous.trans free.1, parent.trans (sound.bodyHolder_eq_none free.2)⟩
  · intro above place held nothing
    simp only [Links.drop, holderStays held, if_false, Links.splice, held, if_true]
    rcases nothing with last | ⟨name, rfl⟩
    · cases place <;> simp [last]
    · rfl
  · intro other place kept away
    simp [Links.drop, Links.splice, stays kept, away, apart kept]
  · intro other kept notNext
    have notBehind : links.previous other ≠ some id := fun before =>
      notNext ((sound.next_iff id other).mpr before)
    simp [Links.drop, Links.splice, stays kept, apart kept, notBehind]
  · intro other kept notNext
    have notBehind : links.previous other ≠ some id := fun before =>
      notNext ((sound.next_iff id other).mpr before)
    simp [Links.drop, Links.splice, stays kept, apart kept, notBehind]

end

end Links

namespace Workspace

section

variable {workspace : Workspace} {id : BlockId} {block : Block}

theorem WellFormed.mem_doomed_iff_owns (wellFormed : workspace.WellFormed)
    (found : workspace.block? id = some block) (other : BlockId) :
    other ∈ (workspace.close id block).doomed id block ↔ workspace.links.Owns id other :=
  (wellFormed.mem_doomed_iff found other).trans (wellFormed.sound.reaches_splice_iff id other)

theorem WellFormed.block?_delete (wellFormed : workspace.WellFormed)
    (found : workspace.block? id = some block) (other : BlockId) :
    ((delete id).apply workspace).2.block? other =
      if other ∈ (workspace.close id block).doomed id block then none
      else (workspace.close id block).block? other := by
  rw [wellFormed.apply_delete found, block?_announce, block?_remove]

theorem WellFormed.isSome_delete_iff (wellFormed : workspace.WellFormed)
    (found : workspace.block? id = some block) (other : BlockId) :
    (((delete id).apply workspace).2.block? other).isSome ↔
      (workspace.block? other).isSome ∧ ¬ workspace.links.Owns id other := by
  rw [wellFormed.block?_delete found, ← wellFormed.mem_doomed_iff_owns found]
  split
  · simp_all
  · simp_all [wellFormed.isSome_close found]

theorem WellFormed.closed_delete (wellFormed : workspace.WellFormed)
    (found : workspace.block? id = some block) :
    workspace.links.Closed ((delete id).apply workspace).2.links id := by
  rw [wellFormed.apply_delete found, links_announce, wellFormed.links_remove_doomed found]
  exact wellFormed.sound.closed (wellFormed.mem_doomed_iff_owns found)

theorem WellFormed.inventory_delete (wellFormed : workspace.WellFormed)
    (found : workspace.block? id = some block) :
    ((delete id).apply workspace).2.inventory = workspace.inventory.filter fun entry =>
      (((delete id).apply workspace).2.block? entry.1).isSome := by
  refine inventory_eq_filter fun other there => ?_
  have kept : other ∉ (workspace.close id block).doomed id block := by
    rw [wellFormed.mem_doomed_iff_owns found]
    exact ((wellFormed.isSome_delete_iff found other).mp there).2
  rw [wellFormed.block?_delete found, if_neg kept]
  exact (wellFormed.rearranged_close found).bare other

end

/-- Whatever has been asked of a new workspace, a block that is there can be deleted.  What
goes is the block and what it owns, and nothing that hangs from its successor; what stays
is linked as it was, with the successor in the place of the block, and to nothing that
went.  It keeps its contents and its order. -/
theorem delete_closes (commands : List Command) {id : BlockId}
    (present : ((empty.after commands).block? id).isSome) :
    let before := empty.after commands
    let answer := (delete id).apply before
    answer.1 = .ok () ∧
      (∀ other, (answer.2.block? other).isSome ↔
        (before.block? other).isSome ∧ ¬ before.links.Owns id other) ∧
      (∀ next, before.links.child id .next = some next → ∀ other, before.links.Reaches next other →
        (answer.2.block? other).isSome) ∧
      before.links.Closed answer.2.links id ∧
      (∀ other linked, ((∃ place, answer.2.links.child other place = some linked) ∨
        answer.2.links.previous other = some linked ∨ answer.2.links.parent other = some linked) →
          (answer.2.block? linked).isSome) ∧
      answer.2.inventory =
        before.inventory.filter fun entry => (answer.2.block? entry.1).isSome := by
  intro before answer
  have wellFormed : before.WellFormed := wellFormed_after commands
  have keptWellFormed : answer.2.WellFormed := keeps_delete id before wellFormed
  rcases Option.isSome_iff_exists.mp present with ⟨block, found⟩
  have accepted : answer.1 = .ok () := congrArg Prod.fst (wellFormed.apply_delete found)
  have stays := wellFormed.isSome_delete_iff found
  refine ⟨accepted, stays, fun next following other path => ?_, wellFormed.closed_delete found,
    fun _ _ => keptWellFormed.isSome_linked, wellFormed.inventory_delete found⟩
  have there := wellFormed.isSome_below ⟨.next, following⟩
  exact (stays other).mpr ⟨wellFormed.isSome_of_reaches there path,
    wellFormed.sound.not_owns_successor following path⟩

/-- A loop of two pauses, of which the first has a number plugged in, and another pause
hangs from that number. -/
def numberedPauses : List Command :=
  [.create .loop, .create .pause, .create .pause, .create .numberLiteral, .create .pause,
    .connectBody (.numbered 0) (.numbered 1), .connectNext (.numbered 1) (.numbered 2),
    .connectValue (.numbered 1) SlotName.duration (.numbered 3),
    .connectNext (.numbered 3) (.numbered 4)]

/-- The first pause goes with its number and what hangs from that; the second one heads the
loop. -/
theorem delete_closes_numberedPauses :
    let before := empty.after numberedPauses
    let answer := (delete (.numbered 1)).apply before
    (before.block? (.numbered 1)).isSome ∧ answer.1 = .ok () ∧
      answer.2.block? (.numbered 1) = none ∧ answer.2.block? (.numbered 4) = none ∧
      answer.2.links.child (.numbered 0) .body = some (.numbered 2) ∧
      answer.2.links.parent (.numbered 2) = some (.numbered 0) ∧
      answer.2.links.previous (.numbered 2) = none := by
  intro before answer
  have present : (before.block? (.numbered 1)).isSome := by decide +kernel
  have nested : before.links.child (.numbered 0) .body = some (.numbered 1) := by decide +kernel
  have following : before.links.child (.numbered 1) .next = some (.numbered 2) := by
    decide +kernel
  have plugged : before.links.child (.numbered 1) (.slot SlotName.duration) =
      some (.numbered 3) := by decide +kernel
  have hanging : before.links.child (.numbered 3) .next = some (.numbered 4) := by decide +kernel
  rcases delete_closes numberedPauses present with ⟨accepted, stays, -, closed, -, -⟩
  have goes : ∀ other, before.links.Owns (.numbered 1) other → answer.2.block? other = none := by
    intro other owned
    by_contra there
    exact ((stays other).mp (Option.isSome_iff_ne_none.mpr there)).2 owned
  rcases closed.heads (.numbered 0) (.numbered 2) nested following with ⟨head, parent, previous⟩
  exact ⟨present, accepted, goes _ (.inl rfl),
    goes _ (.inr ⟨.slot SlotName.duration, _, by simp, plugged, .single ⟨.next, hanging⟩⟩), head,
    parent, previous⟩

end Workspace
end MotionBlocks
