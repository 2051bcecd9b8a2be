import MotionBlocks.Proofs.Forest.Kept

namespace MotionBlocks

/-!
# Runs of a workspace

Whatever is asked of a workspace, in whatever order and whether it is refused
or not, its blocks form a forest in the order of their creation, and no
identifier is given out twice.
-/

namespace Workspace

/-- One request to a workspace. -/
inductive Command where
  | create (kind : BlockKind)
  | setField (id : BlockId) (name : String) (value : FieldValue)
  | move (id : BlockId) (position : Position)
  | connectNext (id next : BlockId)
  | connectValue (id : BlockId) (slot : String) (child : BlockId)
  | connectBody (id child : BlockId)
  | disconnect (id : BlockId)
  | delete (id : BlockId)
  | clear
  | rebuild (program : Program)
  | subscribe (audience : Audience)
  | unsubscribe (number : Nat)
  | setOrigin (origin : Origin)
  | takeDeliveries
  | takeInbox

namespace Command

/-- What a request makes of a workspace, also when it is refused. -/
def run (workspace : Workspace) : Command → Workspace
  | .create kind => (workspace.create kind).2
  | .setField id name value => ((Workspace.setField id name value).apply workspace).2
  | .move id position => ((Workspace.move id position).apply workspace).2
  | .connectNext id next => ((Workspace.connectNext id next).apply workspace).2
  | .connectValue id slot child => ((Workspace.connectValue id slot child).apply workspace).2
  | .connectBody id child => ((Workspace.connectBody id child).apply workspace).2
  | .disconnect id => ((Workspace.disconnect id).apply workspace).2
  | .delete id => ((Workspace.delete id).apply workspace).2
  | .clear => workspace.clear
  | .rebuild program => (workspace.rebuild program).2
  | .subscribe audience => (workspace.subscribe audience).2
  | .unsubscribe number => (workspace.unsubscribe number).2
  | .setOrigin origin => (workspace.setOrigin origin).2
  | .takeDeliveries => workspace.takeDeliveries.2
  | .takeInbox => workspace.takeInbox.2

/-- What a request answers. -/
def verdict (workspace : Workspace) : Command → Except EditError Unit
  | .setField id name value => ((Workspace.setField id name value).apply workspace).1
  | .move id position => ((Workspace.move id position).apply workspace).1
  | .connectNext id next => ((Workspace.connectNext id next).apply workspace).1
  | .connectValue id slot child => ((Workspace.connectValue id slot child).apply workspace).1
  | .connectBody id child => ((Workspace.connectBody id child).apply workspace).1
  | .disconnect id => ((Workspace.disconnect id).apply workspace).1
  | .delete id => ((Workspace.delete id).apply workspace).1
  | .rebuild program => (workspace.rebuild program).1
  | .create _ | .clear | .subscribe _ | .unsubscribe _ | .setOrigin _ | .takeDeliveries
  | .takeInbox => .ok ()

end Command

/-- A workspace after a number of requests. -/
def after (workspace : Workspace) (commands : List Command) : Workspace :=
  commands.foldl Command.run workspace

/-- What no request to a workspace breaks. -/
structure KeptByRequests (property : Workspace → Prop) : Prop extends KeptByEdits property where
  connectBody : ∀ id child, (connectBody id child).Keeps property
  disconnect : ∀ id, (disconnect id).Keeps property
  delete : ∀ id, (delete id).Keeps property
  ofStore : ∀ first second : Workspace, second.store = first.store → property first →
    property second

section

variable {property : Workspace → Prop} {workspace : Workspace}

theorem KeptByRequests.run (kept : KeptByRequests property) (holds : property workspace)
    (command : Command) : property (command.run workspace) := by
  cases command with
  | create kind => exact kept.create kind workspace holds
  | setField id name value => exact kept.setField id name value workspace holds
  | move id position => exact kept.move id position workspace holds
  | connectNext id next => exact kept.connectNext id next workspace holds
  | connectValue id slot child => exact kept.connectValue id slot child workspace holds
  | connectBody id child => exact kept.connectBody id child workspace holds
  | disconnect id => exact kept.disconnect id workspace holds
  | delete id => exact kept.delete id workspace holds
  | clear => exact kept.clear workspace holds
  | rebuild program =>
    let started : Workspace := { workspace with origin := .programmatic }
    have rebuilt := kept.replaceWith program started (kept.ofStore workspace started rfl holds)
    refine kept.ofStore ((replaceWith program).apply started).2 _ ?_ rebuilt
    rw [Command.run, rebuild_eq]
  | subscribe audience => exact kept.ofStore workspace _ rfl holds
  | unsubscribe number => exact kept.ofStore workspace _ rfl holds
  | setOrigin origin => exact kept.ofStore workspace _ rfl holds
  | takeDeliveries => exact kept.ofStore workspace _ rfl holds
  | takeInbox => exact kept.ofStore workspace _ rfl holds

theorem KeptByRequests.after (kept : KeptByRequests property) (holds : property workspace)
    (commands : List Command) : property (workspace.after commands) := by
  induction commands generalizing workspace with
  | nil => exact holds
  | cons command rest ih => exact ih (kept.run holds command)

end

theorem wellFormed_keptByRequests : KeptByRequests WellFormed where
  toKeptByEdits := wellFormed_keptByEdits
  connectBody := fun id child => keeps_connect id .body child
  disconnect := keeps_disconnect
  delete := keeps_delete
  ofStore := by
    intro first second same wellFormed
    exact wellFormed.congr fun id => by rw [block?, block?, same]

theorem Lasting.keptByRequests {property : Workspace → Prop} (lasting : Lasting property)
    (ofStore : ∀ first second : Workspace, second.store = first.store → property first →
      property second) : KeptByRequests property where
  toKeptByEdits := lasting.keptByEdits
  connectBody := fun id child => lasting.connect id .body child
  disconnect := lasting.disconnect
  delete := lasting.delete
  ofStore := ofStore

theorem wellFormed_empty : empty.WellFormed :=
  .of_no_blocks block?_empty

/-- Every workspace that requests lead to is well formed. -/
theorem wellFormed_after (commands : List Command) : (empty.after commands).WellFormed :=
  wellFormed_keptByRequests.after wellFormed_empty commands

/-! ## The forest of blocks -/

/-- The blocks of a workspace form a forest, and both directions in which they
store their links agree on it. -/
structure Forest (workspace : Workspace) : Prop where
  next_iff_previous : ∀ above below,
    (∃ upper, workspace.block? above = some upper ∧ upper.next = some below) ↔
      ∃ lower, workspace.block? below = some lower ∧ lower.previous = some above
  plugged_iff_parent : ∀ above below,
    (∃ upper, workspace.block? above = some upper ∧
        (upper.body = some below ∨ ∃ slot, upper.slots.get? slot = some below)) ↔
      ∃ lower, workspace.block? below = some lower ∧ lower.parent = some above
  plugged_once : ∀ {above upper below first second}, workspace.block? above = some upper →
    upper.child? first = some below → upper.child? second = some below → first = second
  slots_distinct : ∀ {id block}, workspace.block? id = some block → block.slots.Distinct
  chained_or_plugged : ∀ {id block}, workspace.block? id = some block →
    block.previous = none ∨ block.parent = none
  body_of_loop : ∀ {id block}, workspace.block? id = some block → block.body ≠ none →
    block.kind = .loop
  linked_present : ∀ {id block other}, workspace.block? id = some block →
    (other ∈ block.children ∨ block.previous = some other ∨ block.parent = some other) →
    (workspace.block? other).isSome
  acyclic : ∀ id, ¬ Relation.TransGen workspace.links.Holds id id
  one_top : ∀ {id}, (workspace.block? id).isSome →
    ∃! top, top ∈ workspace.tops.map (·.1) ∧ workspace.links.Reaches top id
  listed_iff : ∀ id block, (id, block) ∈ workspace.blocks ↔ workspace.block? id = some block
  given_out : ∀ {id}, (workspace.block? id).isSome → id.Before workspace.store.nextId
  blocks_in_order : (workspace.blocks.map (·.1)).Pairwise BlockId.Before
  tops_in_order : (workspace.tops.map (·.1)).Pairwise BlockId.Before

section

variable {workspace : Workspace}

theorem mem_tops_iff (id : BlockId) : id ∈ workspace.tops.map (·.1) ↔
    (workspace.block? id).isSome ∧ workspace.links.IsTop id := by
  simp only [tops, blocks, List.mem_map, List.mem_filter, Prod.exists, exists_and_right,
    exists_eq_right, BlockStore.mem_toList_iff]
  constructor
  · rintro ⟨block, found, top⟩
    have there : workspace.block? id = some block := found
    exact ⟨by simp [there], (isTop_iff there).mp top⟩
  · rintro ⟨present, top⟩
    rcases Option.isSome_iff_exists.mp present with ⟨block, found⟩
    exact ⟨block, found, (isTop_iff found).mpr top⟩

theorem WellFormed.forest (wellFormed : workspace.WellFormed) : workspace.Forest := by
  have sound := wellFormed.sound
  have previous : ∀ above below, workspace.links.previous below = some above ↔
      ∃ lower, workspace.block? below = some lower ∧ lower.previous = some above := by
    intro above below
    exact Option.bind_eq_some_iff
  have parent : ∀ above below, workspace.links.parent below = some above ↔
      ∃ lower, workspace.block? below = some lower ∧ lower.parent = some above := by
    intro above below
    exact Option.bind_eq_some_iff
  have ordered := workspace.store.pairwise_toList
  constructor
  · intro above below
    rw [← previous, ← sound.next_iff, child_eq_some_iff]
    rfl
  · intro above below
    rw [← parent, ← sound.plugged_iff]
    constructor
    · rintro ⟨upper, found, nested | ⟨slot, plugged⟩⟩
      · exact ⟨.body, by simp, (child_of_block found .body).trans nested⟩
      · exact ⟨.slot slot, by simp, (child_of_block found (.slot slot)).trans plugged⟩
    · rintro ⟨place, notNext, held⟩
      rcases child_eq_some_iff.mp held with ⟨upper, found, held⟩
      cases place with
      | next => exact absurd rfl notNext
      | body => exact ⟨upper, found, Or.inl held⟩
      | slot slot => exact ⟨upper, found, Or.inr ⟨slot, held⟩⟩
  · intro above upper below first second found firstHeld secondHeld
    exact sound.place_unique ((child_of_block found first).trans firstHeld)
      ((child_of_block found second).trans secondHeld)
  · exact fun found => (wellFormed.regular found).distinct
  · intro id block found
    simpa [links, found] using sound.exclusive id
  · exact fun found => (wellFormed.regular found).loop_of_body
  · rintro id block other found (listed | before | owner)
    · rcases ((wellFormed.regular found).mem_children_iff other).mp listed with ⟨place, held⟩
      exact wellFormed.isSome_below ⟨place, (child_of_block found place).trans held⟩
    · exact wellFormed.isSome_previous found before
    · exact wellFormed.isSome_parent found owner
  · exact sound.not_returns
  · intro id present
    rcases sound.exists_unique_top id with ⟨top, ⟨isTop, path⟩, unique⟩
    have presentTop : (workspace.block? top).isSome := by
      rcases Relation.ReflTransGen.cases_head path with equal | ⟨child, held, -⟩
      · exact equal ▸ present
      · exact WellFormed.isSome_above held
    refine ⟨top, ⟨(mem_tops_iff top).mpr ⟨presentTop, isTop⟩, path⟩, ?_⟩
    rintro other ⟨listed, otherPath⟩
    exact unique other ⟨((mem_tops_iff other).mp listed).2, otherPath⟩
  · exact workspace.store.mem_toList_iff
  · exact givenOut_of_isSome
  · exact ordered
  · exact ordered.sublist ((List.filter_sublist).map _)

/-- Whatever is asked of a new workspace, its blocks form a forest that lists
them in the order of creation, no identifier of a block is given out again, and
a block that is gone does not come back. -/
theorem forest_after (earlier later : List Command) :
    (empty.after earlier).Forest ∧
      (∀ id, ((empty.after earlier).block? id).isSome →
        id.Before (empty.after (earlier ++ later)).store.nextId) ∧
      ∀ id, id.Before (empty.after earlier).store.nextId → (empty.after earlier).block? id = none →
        (empty.after (earlier ++ later)).block? id = none := by
  have split : empty.after (earlier ++ later) = (empty.after earlier).after later :=
    List.foldl_append
  rw [split]
  refine ⟨(wellFormed_after earlier).forest, ?_, ?_⟩
  · intro id present
    have lasting := (givenOut_lasting id).keptByRequests fun first second same given => by
      rwa [GivenOut, same]
    exact lasting.after (givenOut_of_isSome present) later
  · intro id given gone
    have lasting := (spent_lasting id).keptByRequests fun first second same spent => by
      rwa [Spent, GivenOut, block?, same]
    exact (lasting.after ⟨given, gone⟩ later).2

end

end Workspace
end MotionBlocks
