import MotionBlocks.Proofs.Forest.Inventory
import MotionBlocks.Proofs.Forest.Refusals

namespace MotionBlocks

/-!
# Plugging in and unplugging

A block that is plugged into a slot, or taken off its place, brings along all that
hangs from it.  The links that change are those that led to it and, when the slot
was taken, those between the slot and what was in it.  What was in the slot keeps
all that hangs from it as well, except that the newcomer may have come from there.
-/

namespace Links

/-- What hangs from a block is linked as it was. -/
def Intact (before after : Links) (root : BlockId) : Prop :=
  ∀ id, before.Reaches root id → ∀ place, after.child id place = before.child id place

/-- A block has been plugged into a slot, wherever it was before. -/
structure Plugged (before after : Links) (above : BlockId) (slot : String) (below : BlockId) :
    Prop where
  child_eq : ∀ id place, after.child id place =
    if id = above ∧ place = .slot slot then some below
    else (before.child id place).filter (· ≠ below)
  previous_eq : ∀ id, after.previous id = if id = below then none else before.previous id
  parent_eq : ∀ id, after.parent id =
    if id = below then some above
    else if before.child above (.slot slot) = some id then none else before.parent id
  intact : before.Intact after below
  bumped : ∀ other, before.child above (.slot slot) = some other → other ≠ below →
    after.IsTop other ∧
      (∀ id, after.Reaches other id ↔ before.Reaches other id ∧ ¬ before.Reaches below id) ∧
      (¬ before.Reaches other below → before.Intact after other)

/-- A block has been taken off its place, and nobody has taken that place. -/
structure Unplugged (before after : Links) (id : BlockId) : Prop where
  isTop : after.IsTop id
  vacated : ∀ above place, before.child above place = some id → after.child above place = none
  intact : before.Intact after id
  child_eq : ∀ above place, before.child above place ≠ some id →
    after.child above place = before.child above place
  previous_eq : ∀ other, other ≠ id → after.previous other = before.previous other
  parent_eq : ∀ other, other ≠ id → after.parent other = before.parent other

section

variable {links after : Links} {above below root id : BlockId} {slot : String}

/-- All that hangs from a block that is left intact still hangs from it, and nothing
else. -/
theorem Intact.reaches_iff (intact : links.Intact after root) (id : BlockId) :
    after.Reaches root id ↔ links.Reaches root id := by
  constructor
  · intro path
    induction path with
    | refl => exact .refl
    | tail _ held ih =>
      rcases held with ⟨place, held⟩
      exact ih.tail ⟨place, (intact _ ih place).symm.trans held⟩
  · intro path
    induction path with
    | refl => exact .refl
    | tail front held ih =>
      rcases held with ⟨place, held⟩
      exact ih.tail ⟨place, (intact _ front place).trans held⟩

/-- What a block hung from loses all that hangs from the block when it is taken off its
place, and nothing else. -/
theorem Sound.reaches_detach_iff (sound : links.Sound) (outside : ¬ links.Reaches below root)
    (id : BlockId) :
    (links.detach below).Reaches root id ↔ links.Reaches root id ∧ ¬ links.Reaches below id := by
  constructor
  · intro path
    refine ⟨reaches_of_detach path, ?_⟩
    induction path with
    | refl => exact outside
    | @tail middle lower _ held ih =>
      rcases held with ⟨place, held⟩
      rcases detach_child_eq_some_iff.mp held with ⟨old, different⟩
      exact fun down => ih (sound.reaches_holder down ⟨place, old⟩ different.symm)
  · rintro ⟨path, apart⟩
    induction path with
    | refl => exact .refl
    | @tail middle lower _ held ih =>
      have front := ih fun down => apart (down.tail held)
      have different : lower ≠ below := fun equal => apart (equal ▸ .refl)
      rcases held with ⟨place, held⟩
      exact front.tail ⟨place, detach_child_eq_some_iff.mpr ⟨held, different⟩⟩

theorem Sound.unplugged (sound : links.Sound) (id : BlockId) :
    links.Unplugged (links.detach id) id where
  isTop := isTop_detach
  vacated _ _ held := child_detach_of_eq held
  intact _ path place := child_detach_of_ne fun held =>
    sound.not_reaches_of_holds ⟨place, held⟩ path
  child_eq _ _ other := child_detach_of_ne other
  previous_eq other different := by simp [Links.detach, different]
  parent_eq other different := by simp [Links.detach, different]

/-- The equations of the links say what becomes of what hangs from the two blocks. -/
theorem Sound.plugged (sound : links.Sound) (outside : ¬ links.Reaches below above)
    (child_eq : ∀ id place, after.child id place =
      if id = above ∧ place = .slot slot then some below
      else (links.child id place).filter (· ≠ below))
    (previous_eq : ∀ id, after.previous id = if id = below then none else links.previous id)
    (parent_eq : ∀ id, after.parent id =
      if id = below then some above
      else if links.child above (.slot slot) = some id then none else links.parent id) :
    links.Plugged after above slot below where
  child_eq := child_eq
  previous_eq := previous_eq
  parent_eq := parent_eq
  intact := by
    intro id path place
    have away : id ≠ above := fun equal => outside (equal ▸ path)
    rw [child_eq, if_neg fun here => away here.1]
    exact child_detach_of_ne fun held => sound.not_reaches_of_holds ⟨place, held⟩ path
  bumped := by
    intro other taken different
    have held : links.Holds above other := ⟨.slot slot, taken⟩
    -- The block with the slot does not hang from what was in it.
    have away : ∀ {id}, links.Reaches other id → id ≠ above := fun path equal =>
      sound.not_reaches_of_holds held (equal ▸ path)
    have remains : (links.detach below).Intact after other := by
      intro id path place
      rw [child_eq, if_neg fun here => away (reaches_of_detach path) here.1]
      rfl
    refine ⟨⟨?_, ?_⟩, fun id => ?_, fun apart id path place => ?_⟩
    · rw [previous_eq, if_neg different, (sound.upward_of_plugged (by simp) taken).1]
    · rw [parent_eq, if_neg different, if_pos taken]
    · rw [remains.reaches_iff, sound.reaches_detach_iff]
      exact fun path => outside (sound.reaches_holder path held different.symm)
    · rw [child_eq, if_neg fun here => away path here.1]
      exact child_detach_of_ne fun held => apart (path.tail ⟨place, held⟩)

/-- A block that is in the slot already has been plugged in. -/
theorem Sound.plugged_of_child (sound : links.Sound) (outside : ¬ links.Reaches below above)
    (already : links.child above (.slot slot) = some below) :
    links.Plugged links above slot below := by
  rcases sound.upward_of_plugged (by simp) already with ⟨unchained, owner⟩
  refine sound.plugged outside (fun id place => ?_) (fun id => ?_) fun id => ?_
  · by_cases here : id = above ∧ place = .slot slot
    · rw [if_pos here, here.1, here.2, already]
    · have other : links.child id place ≠ some below := fun held =>
        here (sound.holder_unique held already)
      rw [if_neg here]
      exact (child_detach_of_ne other).symm
  · split <;> simp_all
  · by_cases same : id = below
    · rw [if_pos same, same, owner]
    · rw [if_neg same, already, if_neg fun equal => same (Option.some.inj equal).symm]

/-- Hanging a block that has been taken off its place from a slot that has been vacated
plugs it in. -/
theorem Sound.plugged_hang (sound : links.Sound) (outside : ¬ links.Reaches below above) :
    links.Plugged (((links.detach below).vacate above (.slot slot)).hang above (.slot slot) below)
      above slot below := by
  have freedSound := sound.detach below
  have taken : ∀ id, (links.detach below).child above (.slot slot) = some id ↔
      links.child above (.slot slot) = some id ∧ id ≠ below := fun id =>
    detach_child_eq_some_iff
  refine sound.plugged outside (fun id place => ?_) (fun id => ?_) fun id => ?_
  · by_cases here : id = above ∧ place = .slot slot
    · simp [Links.hang, here]
    · simp only [Links.hang, here, if_false, freedSound.child_vacate here]
      rfl
  · by_cases same : id = below
    · simp [Links.hang, same]
    · have bumped : links.child above (.slot slot) = some id → links.previous id = none :=
        fun held => (sound.upward_of_plugged (by simp) held).1
      simp only [Links.hang, same, if_false, previous_vacate, taken]
      split <;> simp_all [Links.detach]
  · by_cases same : id = below
    · simp [Links.hang, same]
    · simp [Links.hang, same, parent_vacate, Links.detach]

end

end Links

namespace Workspace

section

variable {workspace : Workspace} {above below id : BlockId} {slot : String}

/-- A block that has been plugged into a slot is there, whether it was there already or
not. -/
theorem WellFormed.plugged_connect (wellFormed : workspace.WellFormed)
    (accepted : ((connect above (.slot slot) below).apply workspace).1 = .ok ()) :
    workspace.links.Plugged ((connect above (.slot slot) below).apply workspace).2.links above
        slot below ∧
      ((connect above (.slot slot) below).apply workspace).2.inventory = workspace.inventory := by
  have sound := wellFormed.sound
  have connectable := wellFormed.connectable_of_accepted accepted
  rw [wellFormed.apply_connect_of_accepted accepted]
  by_cases already : workspace.links.child above (.slot slot) = some below
  · rw [if_pos already]
    exact ⟨sound.plugged_of_child connectable.outside already, rfl⟩
  · rw [if_neg already]
    refine ⟨?_, ((workspace.rearranged_put above (.slot slot) below).announce .move
      below).inventory_eq⟩
    rw [links_announce, put_slot, wellFormed.links_plug connectable]
    exact sound.plugged_hang connectable.outside

/-- A block that is unplugged is a top block, whether it was one already or not. -/
theorem WellFormed.unplugged_disconnect (wellFormed : workspace.WellFormed)
    (present : (workspace.block? id).isSome) :
    ((disconnect id).apply workspace).1 = .ok () ∧
      workspace.links.Unplugged ((disconnect id).apply workspace).2.links id ∧
      ((disconnect id).apply workspace).2.inventory = workspace.inventory := by
  have unplugged := wellFormed.sound.unplugged id
  rcases Option.isSome_iff_exists.mp present with ⟨block, found⟩
  rw [apply_disconnect found]
  refine ⟨rfl, ?_⟩
  split
  · rename_i top
    rw [wellFormed.sound.detach_of_top ((isTop_iff found).mp top)] at unplugged
    exact ⟨unplugged, rfl⟩
  · rw [links_announce, wellFormed.links_detach]
    exact ⟨unplugged, ((workspace.rearranged_detach id).announce .move id).inventory_eq⟩

end

/-- Whatever has been asked of a new workspace, a block that may be plugged into a slot is
plugged in there, and any block that is there can be unplugged.  All that hangs from the
block goes with it, and nothing else changes but for what was in the slot, which becomes
a top block. -/
theorem plug_and_unplug (commands : List Command) :
    let before := empty.after commands
    (∀ above slot below,
      let answer := (connectValue above slot below).apply before
      answer.1 = .ok () → before.links.Plugged answer.2.links above slot below ∧
        answer.2.inventory = before.inventory) ∧
    ∀ id, (before.block? id).isSome →
      let answer := (disconnect id).apply before
      answer.1 = .ok () ∧ before.links.Unplugged answer.2.links id ∧
        answer.2.inventory = before.inventory :=
  have wellFormed := wellFormed_after commands
  ⟨fun _ _ _ accepted => wellFormed.plugged_connect accepted,
    fun _ present => wellFormed.unplugged_disconnect present⟩

/-- A pause with a number in its slot, from which two more numbers hang in a row. -/
def numbersInARow : List Command :=
  [.create .pause, .create .numberLiteral, .create .numberLiteral, .create .numberLiteral,
    .connectValue (.numbered 0) SlotName.duration (.numbered 1),
    .connectNext (.numbered 1) (.numbered 2), .connectNext (.numbered 2) (.numbered 3)]

/-- The second number takes the slot of the first one and keeps the third.  The first one
is left alone, whether the second one is plugged in or only unplugged. -/
theorem plug_and_unplug_numbersInARow :
    let before := empty.after numbersInARow
    let plugged := (connectValue (.numbered 0) SlotName.duration (.numbered 2)).apply before
    let unplugged := (disconnect (.numbered 2)).apply before
    plugged.1 = .ok () ∧
      plugged.2.links.child (.numbered 0) (.slot SlotName.duration) = some (.numbered 2) ∧
      plugged.2.links.IsTop (.numbered 1) ∧
      ¬ plugged.2.links.Reaches (.numbered 1) (.numbered 3) ∧
      plugged.2.links.child (.numbered 2) .next = some (.numbered 3) ∧
      (before.block? (.numbered 2)).isSome ∧ unplugged.1 = .ok () ∧
      unplugged.2.links.IsTop (.numbered 2) ∧
      unplugged.2.links.child (.numbered 1) .next = none := by
  intro before plugged unplugged
  have accepted : plugged.1 = .ok () := by decide +kernel
  have present : (before.block? (.numbered 2)).isSome := by decide +kernel
  have taken : before.links.child (.numbered 0) (.slot SlotName.duration) =
      some (.numbered 1) := by decide +kernel
  have second : before.links.child (.numbered 1) .next = some (.numbered 2) := by decide +kernel
  have third : before.links.child (.numbered 2) .next = some (.numbered 3) := by decide +kernel
  have plug := ((plug_and_unplug numbersInARow).1 _ _ _ accepted).1
  rcases (plug_and_unplug numbersInARow).2 _ present with ⟨answered, unplug, -⟩
  rcases plug.bumped _ taken (by decide) with ⟨top, apart, -⟩
  refine ⟨accepted, ?_, top, fun path => ?_, ?_, present, answered, unplug.isTop,
    unplug.vacated _ _ second⟩
  · rw [plug.child_eq, if_pos ⟨rfl, rfl⟩]
  · exact ((apart _).mp path).2 (.single ⟨.next, third⟩)
  · rw [plug.intact _ .refl, third]

end Workspace
end MotionBlocks
