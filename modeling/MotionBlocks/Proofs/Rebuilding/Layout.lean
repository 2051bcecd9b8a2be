import MotionBlocks.Proofs.Forest.Runs
import MotionBlocks.Proofs.Rebuilding.Growth

namespace MotionBlocks

/-!
# The layout of a rebuilt workspace

What a rebuild makes of a program is said here block by block: a start block and behind
it one block for each step, whose fields and numbers are those of the step.  There are
no other blocks, whatever was in the workspace before.

The identifiers are not part of the layout.  It lists the blocks of the chain by the
identifiers that they got and refers to every other block by the place it hangs from.
-/

/-- The kind of block that stands for the step kinds of a family. -/
def StepFamily.blockKind : StepFamily → BlockKind
  | .move => .move
  | .rotate => .rotate
  | .scale => .scale
  | .pause => .pause

namespace Motion

/-- What is written into the block of a motion: the kind of the step, and the exact angle
of a rotation. -/
def fields (motion : Motion) : Table FieldValue :=
  let name : FieldValue := .text motion.kind.name
  match motion.kind.family with
  | .move => (∅ : Table FieldValue).put FieldName.direction name
  | .rotate =>
    let turning := (∅ : Table FieldValue).put FieldName.axis name
    match motion.distance with
    | some radians => turning.put FieldName.radians (.number radians)
    | none => turning
  | .scale => (∅ : Table FieldValue).put FieldName.type name
  | .pause => ∅

/-- The slot that the block of a motion has besides the one of its duration, with the number
that goes into it. -/
def measure? (motion : Motion) : Option (String × Float) :=
  match motion.kind.family with
  | .move => some (SlotName.distance, motion.distance.getD Defaults.distance)
  | .rotate =>
    some (SlotName.angle, (motion.distance.map Number.degreesFor).getD Defaults.angleDegrees)
  | .scale => some (SlotName.scale, motion.scale.getD Defaults.scale)
  | .pause => none

/-- The numbers that are plugged into the slots of the block of a motion. -/
def numbers (motion : Motion) : Table Float :=
  let timing := (∅ : Table Float).put SlotName.duration motion.duration
  match motion.measure? with
  | some (slot, number) => timing.put slot number
  | none => timing

/-- The block of a motion, apart from its place in a chain, with blocks plugged into it. -/
def block (motion : Motion) (slots : Table BlockId) : Block :=
  { Block.ofKind motion.kind.family.blockKind with fields := motion.fields, slots }

section

variable {motion : Motion} {slot : String} {number : Float}

theorem measure?_move (family : motion.kind.family = .move) : motion.measure? =
    some (SlotName.distance, motion.distance.getD Defaults.distance) := by
  rw [measure?, family]

theorem measure?_rotate (family : motion.kind.family = .rotate) : motion.measure? =
    some (SlotName.angle,
      (motion.distance.map Number.degreesFor).getD Defaults.angleDegrees) := by
  rw [measure?, family]

theorem measure?_scale (family : motion.kind.family = .scale) : motion.measure? =
    some (SlotName.scale, motion.scale.getD Defaults.scale) := by
  rw [measure?, family]

theorem slot_ne_duration (measured : motion.measure? = some (slot, number)) :
    slot ≠ SlotName.duration := by
  unfold measure? at measured
  split at measured <;> cases measured <;> decide

theorem get?_numbers_duration (motion : Motion) :
    motion.numbers.get? SlotName.duration = some motion.duration := by
  unfold numbers
  split
  · rename_i slot number measured
    simp [Table.get?_put, (slot_ne_duration measured).symm]
  · simp [Table.get?_put]

theorem get?_numbers_measure (measured : motion.measure? = some (slot, number)) :
    motion.numbers.get? slot = some number := by
  simp [numbers, measured, Table.get?_put]

/-- A pause has a duration only, and every other motion one more number. -/
theorem length_numbers (motion : Motion) : motion.numbers.entries.length =
    if motion.kind.family = .pause then 1 else 2 := by
  unfold numbers measure?
  cases motion.kind.family <;> rfl

end

end Motion

namespace Workspace

/-! ## The block of a step -/

section

variable {workspace : Workspace}

/-- How the block of a step that is no pause begins: it names the kind of the step and
gets its duration. -/
theorem WellFormed.adds_begun (wellFormed : workspace.WellFormed) (kind : BlockKind)
    (field : String) (name : FieldValue) (duration : Float) : ∃ named timed slots,
      (setField workspace.store.nextId field name).apply (workspace.create kind).2 =
        (.ok (), named) ∧
      (attachLiteral workspace.store.nextId SlotName.duration duration).apply named =
        (.ok (), timed) ∧
      Adds workspace timed workspace.store.nextId
        { Block.ofKind kind with fields := (∅ : Table FieldValue).put field name, slots }
        ((∅ : Table Float).put SlotName.duration duration) := by
  rcases (wellFormed.adds_create kind).setField field name with ⟨named, namedApplied, naming⟩
  rcases naming.attachLiteral SlotName.duration rfl duration with
    ⟨timed, slots, timedApplied, timing⟩
  exact ⟨named, timed, slots, namedApplied, timedApplied, timing⟩

/-- How the block of a step with one parameter besides its duration is made. -/
theorem WellFormed.apply_measured (wellFormed : workspace.WellFormed) (kind : BlockKind)
    (field : String) (name : FieldValue) (duration : Float) (slot : String)
    (other : slot ≠ SlotName.duration) (value : Float) : ∃ changed slots,
      (do
        let block ← modifyGet (Workspace.create kind)
        setField block field name
        attachLiteral block SlotName.duration duration
        attachLiteral block slot value
        return block : Edit BlockId).apply workspace = (.ok workspace.store.nextId, changed) ∧
      Adds workspace changed workspace.store.nextId
        { Block.ofKind kind with fields := (∅ : Table FieldValue).put field name, slots }
        (((∅ : Table Float).put SlotName.duration duration).put slot value) := by
  rcases wellFormed.adds_begun kind field name duration with
    ⟨named, timed, _, namedApplied, timedApplied, timing⟩
  rcases timing.attachLiteral slot (by simp [Table.get?_put, other]) value with
    ⟨changed, slots, applied, adding⟩
  refine ⟨changed, slots, ?_, adding⟩
  simp only [Edit.apply_bind, Edit.apply_modifyGet, create_fst, namedApplied, timedApplied,
    applied, Edit.apply_pure]

theorem WellFormed.apply_addMotion_rotate (wellFormed : workspace.WellFormed) {motion : Motion}
    (family : motion.kind.family = .rotate) : ∃ changed slots,
      (addMotion motion).apply workspace = (.ok workspace.store.nextId, changed) ∧
      Adds workspace changed workspace.store.nextId (motion.block slots) motion.numbers := by
  cases given : motion.distance with
  | none =>
    rcases wellFormed.apply_measured .rotate FieldName.axis (.text motion.kind.name)
        motion.duration SlotName.angle (by decide) Defaults.angleDegrees with
      ⟨changed, slots, applied, adding⟩
    refine ⟨changed, slots, ?_, ?_⟩
    · simpa only [addMotion, family, given] using applied
    · simp only [Motion.block, Motion.fields, Motion.numbers, Motion.measure?, family, given]
      exact adding
  | some radians =>
    rcases wellFormed.adds_begun .rotate FieldName.axis (.text motion.kind.name)
        motion.duration with
      ⟨named, timed, _, namedApplied, timedApplied, timing⟩
    rcases timing.setField FieldName.radians (.number radians) with ⟨kept, keptApplied, keeping⟩
    have free : ((∅ : Table Float).put SlotName.duration motion.duration).get? SlotName.angle =
        none := by
      simp [Table.get?_put, SlotName.angle, SlotName.duration]
    rcases keeping.attachLiteral SlotName.angle free (Number.degreesFor radians) with
      ⟨changed, slots, applied, adding⟩
    refine ⟨changed, slots, ?_, ?_⟩
    · simp only [addMotion, family, given, Edit.apply_bind, Edit.apply_modifyGet, create_fst,
        namedApplied, timedApplied, keptApplied, applied, Edit.apply_pure]
    · simp only [Motion.block, Motion.fields, Motion.numbers, Motion.measure?, family, given]
      exact adding

/-- A step gets one new block, with its numbers plugged in and linked to nothing else. -/
theorem WellFormed.apply_addMotion (wellFormed : workspace.WellFormed) (motion : Motion) :
    ∃ changed slots, (addMotion motion).apply workspace = (.ok workspace.store.nextId, changed) ∧
      Adds workspace changed workspace.store.nextId (motion.block slots) motion.numbers := by
  cases family : motion.kind.family with
  | move =>
    rcases wellFormed.apply_measured .move FieldName.direction (.text motion.kind.name)
        motion.duration SlotName.distance (by decide)
        (motion.distance.getD Defaults.distance) with
      ⟨changed, slots, applied, adding⟩
    refine ⟨changed, slots, ?_, ?_⟩
    · simpa only [addMotion, family] using applied
    · simp only [Motion.block, Motion.fields, Motion.numbers, Motion.measure?, family]
      exact adding
  | rotate => exact wellFormed.apply_addMotion_rotate family
  | scale =>
    rcases wellFormed.apply_measured .scale FieldName.type (.text motion.kind.name)
        motion.duration SlotName.scale (by decide) (motion.scale.getD Defaults.scale) with
      ⟨changed, slots, applied, adding⟩
    refine ⟨changed, slots, ?_, ?_⟩
    · simpa only [addMotion, family] using applied
    · simp only [Motion.block, Motion.fields, Motion.numbers, Motion.measure?, family]
      exact adding
  | pause =>
    rcases (wellFormed.adds_create .pause).attachLiteral SlotName.duration rfl motion.duration with
      ⟨changed, slots, applied, adding⟩
    refine ⟨changed, slots, ?_, ?_⟩
    · simp only [addMotion, family, Edit.apply_bind, Edit.apply_modifyGet, create_fst, applied,
        Edit.apply_pure]
    · simp only [Motion.block, Motion.fields, Motion.numbers, Motion.measure?, family]
      exact adding

end

/-! ## Chains of new blocks -/

/-- A chain behind a block has one block for each motion, with the literals of its numbers
in its slots and nothing else. -/
inductive Row (workspace : Workspace) :
    BlockId → Option BlockId → List BlockId → List Motion → Prop where
  | ends {above : BlockId} : Row workspace above none [] []
  | block {above id : BlockId} {next : Option BlockId} {slots : Table BlockId}
      {ids : List BlockId} {motion : Motion} {motions : List Motion} :
      workspace.block? id = some { motion.block slots with previous := some above, next } →
      workspace.Fills id slots motion.numbers → Row workspace id next ids motions →
      Row workspace above (some id) (id :: ids) (motion :: motions)

/-- A block is one of a list or plugged into one of them. -/
def Among (workspace : Workspace) (ids : List BlockId) (id : BlockId) : Prop :=
  id ∈ ids ∨ ∃ owner ∈ ids, ∃ slot, workspace.links.child owner (.slot slot) = some id

/-- How many blocks motions get, their literals included. -/
def blocksFor (motions : List Motion) : Nat :=
  (motions.map fun motion => motion.numbers.entries.length + 1).sum

/-- A chain was added behind a block, and every other block is as it was. -/
structure Extends (before after : Workspace) (previous : BlockId) (block : Block)
    (ids : List BlockId) (motions : List Motion) : Prop where
  wellFormed : after.WellFormed
  linked : ∃ next, after.block? previous = some { block with next } ∧
    after.Row previous next ids motions
  kept : ∀ {id old}, id ≠ previous → before.block? id = some old → after.block? id = some old
  exact : ∀ id, (after.block? id).isSome → (before.block? id).isSome ∨ after.Among ids id
  size : after.size = before.size + blocksFor motions

section

variable {workspace : Workspace} {previous : BlockId} {block : Block} {ids : List BlockId}
  {motions : List Motion}

theorem WellFormed.extends_refl (wellFormed : workspace.WellFormed)
    (found : workspace.block? previous = some block) (last : block.next = none) :
    Extends workspace workspace previous block [] [] where
  wellFormed := wellFormed
  linked := ⟨none, by rw [found, ← last], .ends⟩
  kept := fun _ there => there
  exact := fun _ there => .inl there
  size := rfl

/-- The rest of a chain is added behind a block that was added itself. -/
theorem Extends.behind {begun joined changed : Workspace} {id : BlockId} {slots : Table BlockId}
    {motion : Motion} (rest : Extends joined changed id
      ((motion.block slots).anchor .next previous) ids motions)
    (adds : Adds workspace begun id (motion.block slots) motion.numbers)
    (joins : Joins begun joined previous .next id block (motion.block slots))
    (found : workspace.block? previous = some block) :
    Extends workspace changed previous block (id :: ids) (motion :: motions) := by
  rcases rest.linked with ⟨next, newest, row⟩
  have kept : ∀ {other old}, other ≠ previous → workspace.block? other = some old →
      changed.block? other = some old :=
    fun away there => rest.kept (adds.ne_of_found there) (adds.kept_of_join joins away there)
  refine ⟨rest.wellFormed, ⟨some id, rest.kept joins.different joins.holder, ?_⟩, kept,
    fun other there => ?_, ?_⟩
  · refine .block newest (adds.fills.congr fun slot child held => ?_) row
    -- A literal is neither the block that is linked in nor the older one that it follows.
    rcases adds.plugged held with ⟨away, new, present⟩
    have older : child ≠ previous := by
      rintro rfl
      exact absurd (found.symm.trans new) (by simp)
    rcases Option.isSome_iff_exists.mp present with ⟨literal, there⟩
    rw [there]
    exact rest.kept away ((joins.others child older away).trans there)
  · rcases rest.exact other there with present | listed | ⟨owner, listed, held⟩
    · rw [joins.isSome_eq (adds.grows.kept found) adds.found] at present
      rcases adds.exact other present with old | rfl | ⟨slot, held⟩
      · exact .inl old
      · exact .inr (.inl List.mem_cons_self)
      · exact .inr (.inr ⟨id, List.mem_cons_self, slot,
          (child_of_block newest (.slot slot)).trans held⟩)
    · exact .inr (.inl (List.mem_cons_of_mem id listed))
    · exact .inr (.inr ⟨owner, List.mem_cons_of_mem id listed, held⟩)
  · rw [rest.size, joins.size, adds.size, blocksFor, blocksFor, List.map_cons, List.sum_cons]
    omega

/-- The blocks of motions are added behind a block that nothing follows. -/
theorem WellFormed.apply_addChain (wellFormed : workspace.WellFormed)
    (found : workspace.block? previous = some block) (last : block.next = none)
    (motions : List Motion) :
    ∃ changed ids, (addChain previous motions).apply workspace = (.ok (), changed) ∧
      Extends workspace changed previous block ids motions := by
  induction motions generalizing workspace previous block with
  | nil => exact ⟨workspace, [], rfl, wellFormed.extends_refl found last⟩
  | cons motion motions ih =>
    -- The new block is linked in and is the one that nothing follows from then on.
    rcases wellFormed.apply_addMotion motion with ⟨begun, slots, added, adds⟩
    rcases adds.join found (show Place.next ≠ .body from nofun) last with
      ⟨joined, connected, joins⟩
    rcases ih joins.wellFormed joins.newcomer adds.last with ⟨changed, ids, chained, rest⟩
    refine ⟨changed, workspace.store.nextId :: ids, ?_, rest.behind adds joins found⟩
    have linked : (connectNext previous workspace.store.nextId).apply begun = _ := connected
    simp only [addChain, Edit.apply_bind, added, linked, chained]

end

/-! ## Rebuilt workspaces -/

/-- A workspace consists of a start block and of the blocks of motions in a chain behind
it. -/
structure Flat (workspace : Workspace) (root : BlockId) (ids : List BlockId)
    (motions : List Motion) : Prop where
  wellFormed : workspace.WellFormed
  started : ∃ next, workspace.block? root =
      some { Block.ofKind .start with position := some startPosition, next } ∧
    workspace.Row root next ids motions
  exact : ∀ id, (workspace.block? id).isSome → id = root ∨ workspace.Among ids id
  size : workspace.size = 1 + blocksFor motions

/-- A rebuild goes through whatever was there before, and leaves the blocks of its program
and no others. -/
theorem apply_replaceWith (workspace : Workspace) (program : Program) : ∃ changed,
    (replaceWith program).apply workspace = (.ok (), changed) ∧
      ∃ root ids, changed.Flat root ids program.motions := by
  have absent : ∀ id, workspace.clear.block? id = none := workspace.block?_clear
  have size : workspace.clear.size = 0 := by
    rw [size, clear_store]
    rfl
  have created := (WellFormed.of_no_blocks absent).adds_create .start
  have named : (workspace.clear.create .start).1 = workspace.clear.store.nextId := rfl
  generalize workspace.clear.store.nextId = root at created named
  rcases apply_annotate created.found .move
      (fun block => { block with position := some startPosition }) with
    ⟨moved, applied, movedSize, read⟩
  have wellFormed := keeps_move root startPosition _ created.wellFormed
  have placed : (move root startPosition).apply (workspace.clear.create .start).2 = _ := applied
  rw [placed] at wellFormed
  rcases wellFormed.apply_addChain ((read root).trans (if_pos rfl)) rfl program.motions with
    ⟨changed, ids, chained, added⟩
  refine ⟨changed, ?_, root, ids, added.wellFormed, added.linked, fun id there => ?_, ?_⟩
  · simp only [replaceWith, Edit.apply_bind, Edit.apply_modify, Edit.apply_modifyGet, named,
      placed, chained]
  · refine (added.exact id there).imp_left fun present => ?_
    -- Nothing was left when the start block was created.
    by_contra different
    rw [read, if_neg different] at present
    rcases created.exact id present with old | rfl | ⟨slot, held⟩
    · simp [absent] at old
    · exact different rfl
    · cases held
  · rw [added.size, movedSize, created.size, size]
    rfl

section

variable {first second : Workspace} {root : BlockId} {ids : List BlockId}
  {motions : List Motion}

theorem Row.congr {above : BlockId} {start : Option BlockId}
    (row : first.Row above start ids motions)
    (same : ∀ id, second.block? id = first.block? id) : second.Row above start ids motions := by
  induction row with
  | ends => exact .ends
  | block found fills _ ih =>
    exact .block ((same _).trans found) (fills.congr fun _ child _ => same child) ih

/-- A layout is one of the blocks alone. -/
theorem Flat.congr (flat : first.Flat root ids motions) (same : second.store = first.store) :
    second.Flat root ids motions := by
  have read : ∀ id, second.block? id = first.block? id := by
    intro id
    rw [block?, same, block?]
  rcases flat.started with ⟨next, found, row⟩
  refine ⟨flat.wellFormed.congr read, ⟨next, (read root).trans found, row.congr read⟩,
    fun id present => ?_, (congrArg BlockStore.size same).trans flat.size⟩
  rw [read] at present
  rw [Among, links_congr read]
  exact flat.exact id present

theorem rebuild_flat (workspace : Workspace) (program : Program) :
    (workspace.rebuild program).1 = .ok () ∧
      ∃ root ids, (workspace.rebuild program).2.Flat root ids program.motions := by
  rcases apply_replaceWith { workspace with origin := .programmatic } program with
    ⟨changed, applied, root, ids, flat⟩
  rw [rebuild_eq, applied]
  exact ⟨rfl, root, ids, flat.congr rfl⟩

end

/-! ## What is in a rebuilt workspace -/

section

variable {workspace : Workspace} {above root : BlockId} {start : Option BlockId}
  {ids : List BlockId} {motions : List Motion}

theorem Row.length_eq (row : workspace.Row above start ids motions) :
    ids.length = motions.length := by
  induction row with
  | ends => rfl
  | block _ _ _ ih => exact congrArg (· + 1) ih

theorem length_le_blocksFor (motions : List Motion) : motions.length ≤ blocksFor motions := by
  unfold blocksFor
  induction motions with
  | nil => exact Nat.le_refl 0
  | cons motion motions ih =>
    rw [List.map_cons, List.sum_cons, List.length_cons]
    omega

theorem Row.block_of_mem (row : workspace.Row above start ids motions) {id : BlockId}
    (listed : id ∈ ids) : ∃ motion ∈ motions, ∃ slots previous next,
      workspace.block? id = some { motion.block slots with previous, next } ∧
        workspace.Fills id slots motion.numbers := by
  induction row with
  | ends => cases listed
  | block found fills _ ih =>
    rcases List.mem_cons.mp listed with rfl | later
    · exact ⟨_, List.mem_cons_self, _, _, _, found, fills⟩
    · rcases ih later with ⟨motion, given, shown⟩
      exact ⟨motion, List.mem_cons_of_mem _ given, shown⟩

/-- What hangs from a row of blocks is one of them or one of their literals. -/
theorem Row.kind_of_among (row : workspace.Row above start ids motions) {id : BlockId}
    {block : Block} (among : workspace.Among ids id) (found : workspace.block? id = some block) :
    block.kind = .numberLiteral ∨ ∃ family : StepFamily, block.kind = family.blockKind := by
  rcases among with listed | ⟨owner, listed, slot, held⟩
  · rcases row.block_of_mem listed with ⟨motion, -, slots, previous, next, there, -⟩
    rcases Option.some.inj (there.symm.trans found) with rfl
    exact .inr ⟨motion.kind.family, rfl⟩
  · rcases row.block_of_mem listed with ⟨motion, -, slots, previous, next, there, fills⟩
    rcases fills.present ((child_of_block there (.slot slot)).symm.trans held) with
      ⟨number, -, literal⟩
    rcases Option.some.inj (literal.symm.trans found) with rfl
    exact .inl rfl

theorem Row.plain_of_among (row : workspace.Row above start ids motions) {id : BlockId}
    {block : Block} (among : workspace.Among ids id) (found : workspace.block? id = some block) :
    block.kind ≠ .start ∧ block.kind ≠ .loop := by
  rcases row.kind_of_among among found with kind | ⟨family, kind⟩
  · simp [kind]
  · rw [kind]
    cases family <;> simp [StepFamily.blockKind]

/-- All blocks of a row hang from the block that it follows. -/
theorem Row.reaches_of_mem (row : workspace.Row above start ids motions)
    (follows : workspace.links.child above .next = start) {id : BlockId} (listed : id ∈ ids) :
    workspace.links.Reaches above id := by
  induction row with
  | ends => cases listed
  | @block above first next slots ids motion motions found _ _ ih =>
    have step : workspace.links.Holds above first := ⟨.next, follows⟩
    rcases List.mem_cons.mp listed with rfl | later
    · exact .single step
    · exact .head step (ih (child_of_block found .next) later)

theorem Flat.reaches (flat : workspace.Flat root ids motions) {id : BlockId}
    (present : (workspace.block? id).isSome) : workspace.links.Reaches root id := by
  rcases flat.started with ⟨next, found, row⟩
  have follows := child_of_block found .next
  rcases flat.exact id present with rfl | listed | ⟨owner, listed, slot, held⟩
  · exact .refl
  · exact row.reaches_of_mem follows listed
  · exact (row.reaches_of_mem follows listed).tail ⟨.slot slot, held⟩

/-- The start block is the only one that hangs from no other. -/
theorem Flat.tops_eq (flat : workspace.Flat root ids motions) :
    workspace.tops.map (·.1) = [root] := by
  have distinct : (workspace.tops.map (·.1)).Nodup :=
    flat.wellFormed.forest.tops_in_order.imp fun before same => by
      subst same
      exact before.asymm before
  refine List.perm_singleton.mp ((List.perm_ext_iff_of_nodup distinct
    (List.nodup_singleton root)).mpr fun id => ?_)
  rw [mem_tops_iff, List.mem_singleton]
  rcases flat.started with ⟨next, found, -⟩
  constructor
  · rintro ⟨present, isTop⟩
    exact (flat.wellFormed.sound.eq_of_reaches_top isTop (flat.reaches present)).symm
  · rintro rfl
    exact ⟨by simp [found], (isTop_iff found).mp rfl⟩

theorem Flat.kind_ne_loop (flat : workspace.Flat root ids motions) {id : BlockId} {block : Block}
    (found : workspace.block? id = some block) : block.kind ≠ .loop := by
  rcases flat.started with ⟨next, there, row⟩
  rcases flat.exact id (by simp [found]) with rfl | among
  · rcases Option.some.inj (there.symm.trans found) with rfl
    simp [Block.ofKind]
  · exact (row.plain_of_among among found).2

end

end Workspace
end MotionBlocks
