import MotionBlocks.Proofs.Rebuilding.RoundTrip
import MotionBlocks.Proofs.Unrolling.Legality

namespace MotionBlocks

/-!
# Flattened programs

A compilation unrolls every loop, and a rebuild of what it gave has none.  The second
workspace is a flat copy of the first one, however deep the loops were nested and however
long the program became by it.  Compiling the copy gives the same steps, because there is
nothing left to replace or to cut: a compiled step has all the parameters that it reads,
and their numbers are finite, with the one exception of an angle whose degrees are too
large for a double.

A flat workspace is compiled with one warning for each literal without a finite number and
no other one.  So the warnings tell whether the copy is exact.
-/

namespace Compiling

variable {α β : Type}

/-- A part of a compilation adds a number of warnings. -/
def Warns (count : Nat) (part : Compiling α) : Prop :=
  ∀ state, (StateT.run part state).2.warnings.size = state.warnings.size + count

theorem warns_pure (value : α) : Warns 0 (pure value) :=
  fun _ => rfl

theorem warns_recount (change : Nat → Nat) : Warns 0 (recount change) :=
  fun _ => rfl

theorem warns_supply (make : StateM StepIds α) : Warns 0 (supply make) :=
  fun _ => rfl

theorem warns_warn (warning : CompileWarning) : Warns 1 (warn warning) :=
  fun _ => Array.size_push warning

theorem Warns.bind {first : Compiling α} {next : α → Compiling β} {count more : Nat}
    (warns : Warns count first) (nextWarns : ∀ value, Warns more (next value)) :
    Warns (count + more) (first >>= next) := by
  intro state
  rw [run_bind, nextWarns, warns, Nat.add_assoc]

end Compiling

/-! ## Numbers that cannot be shown -/

/-- How many warnings the literal of a number is worth. -/
def Number.literalWarnings (number : Float) : Nat :=
  if number.isFinite then 0 else 1

namespace Motion

/-- How many warnings the literals of a motion are worth. -/
def literalWarnings (motion : Motion) : Nat :=
  (motion.numbers.values.map Number.literalWarnings).sum

section

variable {motion : Motion}

theorem literalWarnings_measured {slot : String} {number : Float}
    (measured : motion.measure? = some (slot, number)) : motion.literalWarnings =
      Number.literalWarnings motion.duration + Number.literalWarnings number := by
  have free : ((∅ : Table Float).put SlotName.duration motion.duration).get? slot = none := by
    simp [Table.get?_put, slot_ne_duration measured]
  simp only [literalWarnings, numbers, measured, Table.values, Table.entries_put_of_free free]
  rfl

theorem literalWarnings_pause (family : motion.kind.family = .pause) :
    motion.literalWarnings = Number.literalWarnings motion.duration := by
  simp only [literalWarnings, numbers, measure?, family]
  rfl

/-! ## Filled motions -/

/-- Of a filled motion only an angle can be worth a warning. -/
theorem Filled.literalWarnings_eq_zero_iff (filled : motion.Filled) :
    motion.literalWarnings = 0 ↔ motion.Shown := by
  have duration : Number.literalWarnings motion.duration = 0 := if_pos filled.duration
  have zero_iff : ∀ number, Number.literalWarnings number = 0 ↔ number.isFinite = true := by
    intro number
    unfold Number.literalWarnings
    split <;> simp_all
  unfold Shown
  cases family : motion.kind.family with
  | move =>
    rcases filled.required .distance motion.distance (by simp [Motion.required, family]) with
      ⟨number, given, -, finite⟩
    rw [literalWarnings_measured (measure?_move family), duration, given]
    simp [zero_iff, finite (by simp [family])]
  | rotate =>
    rcases filled.required .distance motion.distance (by simp [Motion.required, family]) with
      ⟨number, given, -, -⟩
    rw [literalWarnings_measured (measure?_rotate family), duration, given]
    simp [zero_iff]
  | scale =>
    rcases filled.required .scale motion.scale (by simp [Motion.required, family]) with
      ⟨number, given, -, finite⟩
    rw [literalWarnings_measured (measure?_scale family), duration, given]
    simp [zero_iff, finite (by simp [family])]
  | pause =>
    rw [literalWarnings_pause family, duration]
    simp

/-- The angle of a rotation that comes back can be shown. -/
theorem shown_of_rebuilt_beq (back : (motion.rebuilt == motion) = true) : motion.Shown := by
  intro rotates radians turned
  have given : motion.distance = some radians := turned
  have distances := ((beq_iff _ _).mp back).2.2.1
  simp only [rebuilt, rotates, travelling, given, Option.map_some, Option.getD_some] at distances
  exact rebuiltRadians_beq_iff.mp distances

/-- A filled motion comes back as it is if its angle can be shown. -/
theorem Filled.rebuilt_eq (filled : motion.Filled) (shown : motion.Shown) :
    motion.rebuilt = motion := by
  have kept : ∀ {number default : Float}, number.isFinite = true →
      Number.finiteOr number default = number := fun finite => if_pos finite
  rcases filled with ⟨duration, tidy, required⟩
  rcases motion with ⟨kind, length, distance, scale⟩
  unfold Tidy at tidy
  unfold Shown at shown
  unfold rebuilt
  cases family : kind.family with
  | move =>
    rcases required .distance distance (by simp [Motion.required, family]) with
      ⟨number, rfl, -, finite⟩
    simp only [family] at tidy
    simp [travelling, tidy, kept duration, kept (finite (by simp [family]))]
  | rotate =>
    rcases required .distance distance (by simp [Motion.required, family]) with
      ⟨radians, rfl, -, -⟩
    simp only [family] at tidy
    have turned : rebuiltRadians radians = radians := if_pos (shown family radians rfl)
    simp [travelling, tidy, kept duration, turned]
  | scale =>
    rcases required .scale scale (by simp [Motion.required, family]) with
      ⟨number, rfl, -, finite⟩
    simp only [family] at tidy
    simp [scaling, tidy, kept duration, kept (finite (by simp [family]))]
  | pause =>
    simp only [family] at tidy
    simp [pausing, tidy, kept duration, kind.family_eq_pause_iff.mp family]

theorem Filled.rebuilt_beq_iff (filled : motion.Filled) :
    (motion.rebuilt == motion) = true ↔ motion.Shown := by
  refine ⟨shown_of_rebuilt_beq, fun shown => ?_⟩
  rw [filled.rebuilt_eq shown]
  exact filled.beq_self

theorem Filled.rebuilt_eq_iff (filled : motion.Filled) :
    motion.rebuilt = motion ↔ motion.Shown := by
  refine ⟨fun same => filled.rebuilt_beq_iff.mp ?_, filled.rebuilt_eq⟩
  rw [same]
  exact filled.beq_self

end

end Motion

namespace Workspace

open Compiling

section

variable {workspace : Workspace} {id : BlockId} {block : Block} {motion : Motion}

/-! ## Warnings about flat workspaces -/

theorem Fills.warns_parameter {numbers : Table Float}
    (fills : workspace.Fills id block.slots numbers) {slot : String} {number : Float}
    (given : numbers.get? slot = some number) (default : Float) :
    Warns (Number.literalWarnings number) (workspace.parameter id block slot default) := by
  rcases fills.held given with ⟨child, held, found⟩
  have literal : workspace.slotNumber block slot =
      if number.isFinite then .ok number else .error .notNumeric := by
    by_cases finite : number.isFinite = true
    · simp [slotNumber, held, found, Block.literal, Block.ofKind, Table.get?_put,
        FieldValue.asFiniteNumber?, Option.filter, finite]
    · simp [slotNumber, held, found, Block.literal, Block.ofKind, Table.get?_put,
        FieldValue.asFiniteNumber?, Option.filter, finite]
  unfold parameter slotValue Number.literalWarnings
  rw [literal]
  split
  · exact warns_pure _
  · exact (warns_warn _).bind fun _ => warns_pure _

theorem chosenKind_eq_pure {field : String} {family : StepFamily} {kind : StepKind}
    (names : block.Names field family kind) :
    chosenKind id block field family = pure (some kind) := by
  rw [chosenKind, chosenKind?_eq_some_iff.mpr names]

/-- The block of a motion is compiled with the warnings about its literals. -/
theorem Fills.warns_motion (fills : workspace.Fills id block.slots motion.numbers)
    (kind : block.kind = motion.kind.family.blockKind) (fields : block.fields = motion.fields) :
    Warns motion.literalWarnings (workspace.motion id block) := by
  have names : ∀ field family, _ → block.Names field family motion.kind :=
    fun _ _ => Block.names_of_fields fields
  have duration := fills.warns_parameter motion.get?_numbers_duration Defaults.duration
  unfold Workspace.motion
  rw [kind]
  cases family : motion.kind.family with
  | move =>
    rw [family] at names
    have measured := Motion.measure?_move family
    rw [Motion.literalWarnings_measured measured]
    simp only [StepFamily.blockKind, chosenKind_eq_pure (names _ _ rfl), pure_bind]
    exact duration.bind fun _ =>
      (fills.warns_parameter (Motion.get?_numbers_measure measured) _).bind fun _ => warns_pure _
  | rotate =>
    rw [family] at names
    have measured := Motion.measure?_rotate family
    rw [Motion.literalWarnings_measured measured]
    simp only [StepFamily.blockKind, chosenKind_eq_pure (names _ _ rfl), pure_bind]
    exact duration.bind fun _ =>
      (fills.warns_parameter (Motion.get?_numbers_measure measured) _).bind fun _ => warns_pure _
  | scale =>
    rw [family] at names
    have measured := Motion.measure?_scale family
    rw [Motion.literalWarnings_measured measured]
    simp only [StepFamily.blockKind, chosenKind_eq_pure (names _ _ rfl), pure_bind]
    exact duration.bind fun _ =>
      (fills.warns_parameter (Motion.get?_numbers_measure measured) _).bind fun _ => warns_pure _
  | pause =>
    rw [Motion.literalWarnings_pause family]
    exact duration.bind fun _ => warns_pure _

theorem Fills.warns_blockSteps (fills : workspace.Fills id block.slots motion.numbers)
    (kind : block.kind = motion.kind.family.blockKind) (fields : block.fields = motion.fields)
    (options : CompileOptions) (nested : Compiling (List Step)) :
    Warns motion.literalWarnings (workspace.blockSteps options id block nested) := by
  have warns := fills.warns_motion kind fields
  unfold blockSteps
  rw [kind]
  show Warns (motion.literalWarnings + 0) _
  cases motion.kind.family <;>
    · refine warns.bind fun found => ?_
      cases found with
      | none => exact warns_pure _
      | some _ => exact (warns_supply _).bind fun _ => (warns_recount _).bind fun _ => warns_pure _

/-- The block of a motion is met and warned about, and the chain goes on behind it. -/
theorem Fills.run_chainSteps (fills : workspace.Fills id block.slots motion.numbers)
    (kind : block.kind = motion.kind.family.blockKind) (fields : block.fields = motion.fields)
    (found : workspace.block? id = some block) (options : CompileOptions) (depth : ℕ)
    {state : CompileState} (fresh : id ∉ state.visited) :
    ∃ after : CompileState, after.visited = id :: state.visited ∧
      after.warnings.size = state.warnings.size + motion.literalWarnings ∧
      (StateT.run (workspace.chainSteps options (depth + 1) (some id)) state).2 =
        (StateT.run (workspace.chainSteps options depth block.next) after).2 := by
  have noLoop : block.kind ≠ .loop := by
    rw [kind]
    cases motion.kind.family <;> simp [StepFamily.blockKind]
  have beside : workspace.Beside block (state.meeting id) (StateT.run
      (workspace.blockSteps options id block (workspace.chainSteps options depth block.body))
      (state.meeting id)) := blockSteps_beside options noLoop _ _
  refine ⟨_, beside.visited_eq, fills.warns_blockSteps kind fields options _ _, ?_⟩
  rw [Workspace.run_chainSteps options depth found fresh]
  rfl

/-- Along a row of blocks, the warnings about all literals add up.  No block of it is met
twice. -/
theorem Row.warnings_chainSteps (wellFormed : workspace.WellFormed) {above : BlockId}
    {start : Option BlockId} {ids : List BlockId} {motions : List Motion}
    (row : workspace.Row above start ids motions) (options : CompileOptions) (depth : ℕ)
    (deep : ids.length ≤ depth) (state : CompileState)
    (chain : workspace.Open start state.visited) :
    (StateT.run (workspace.chainSteps options depth start) state).2.warnings.size =
      state.warnings.size + (motions.map Motion.literalWarnings).sum := by
  induction row generalizing depth state with
  | ends =>
    rw [chainSteps_none]
    rfl
  | block found fills _ ih =>
    -- Without nested chains a step down is a step along the row.
    cases depth with
    | zero => cases deep
    | succ depth =>
      rcases fills.run_chainSteps rfl rfl found options depth chain.not_mem with
        ⟨after, met, warned, run⟩
      have following := wellFormed.open_child chain found .next
      rw [← met] at following
      rw [run, ih depth (Nat.le_of_succ_le_succ deep) after following, warned, List.map_cons,
        List.sum_cons, Nat.add_assoc]

/-- No block of a flat workspace is out of place, so there are no warnings but those about
literals. -/
theorem Flat.warnings_compile {root : BlockId} {identifiers : List BlockId}
    {motions : List Motion} (flat : workspace.Flat root identifiers motions)
    (options : CompileOptions) (ids : StepIds) :
    (workspace.compile options ids).1.warnings.size =
      (motions.map Motion.literalWarnings).sum := by
  rcases flat.firstStart with ⟨start, first, row⟩
  have alone : workspace.starts = [(root, start)] := by
    rcases first.starts_eq with ⟨others, starts⟩
    have few : (workspace.starts.map (·.1)).length ≤ (workspace.tops.map (·.1)).length :=
      (List.filter_sublist.map _).length_le
    rw [flat.tops_eq, starts] at few
    have none : others = [] := List.eq_nil_of_length_eq_zero (by simpa using few)
    rw [starts, none]
  have run : StateT.run (workspace.steps options) (.initial ids) =
      StateT.run (workspace.chainSteps options workspace.size start.next)
        ((CompileState.initial ids).meeting root) := by
    have only : workspace.steps options = (do
        let _ ← Compiling.visit root
        workspace.chainSteps options workspace.size start.next) := by
      simp [steps, alone]
    rw [only, Compiling.run_bind, Compiling.run_visit_of_not_mem List.not_mem_nil]
  have deep : identifiers.length ≤ workspace.size := by
    rw [flat.size, row.length_eq]
    exact (length_le_blocksFor motions).trans (Nat.le_add_left _ _)
  rw [(workspace.compile_eq options ids).2.1, run, row.warnings_chainSteps flat.wellFormed options
    workspace.size deep _ (flat.wellFormed.open_of_found first.found)]
  exact Nat.zero_add _

end

/-! ## Copies of compiled programs -/

/-- A step of a compiled program has the parameters of its kind and a finite duration,
whatever the blocks that it was compiled from are like.  The program that is rebuilt into
any other workspace is compiled to the same steps there, under any settings and without a
warning, if and only if the degrees of its rotations are finite. -/
theorem flattened_program (commands otherCommands : List Command)
    (options otherOptions : CompileOptions) (ids otherIds : StepIds) :
    let program := ((empty.after commands).compile options ids).1.program
    let copy := (((empty.after otherCommands).rebuild program).2.compile otherOptions otherIds).1
    (∀ motion ∈ program.motions, motion.Filled) ∧
      (copy.program.motions = program.motions ↔ ∀ motion ∈ program.motions, motion.Shown) ∧
      (copy.program.sameEffect program = true ↔ ∀ motion ∈ program.motions, motion.Shown) ∧
      (copy.warnings = #[] ↔ ∀ motion ∈ program.motions, motion.Shown) := by
  intro program copy
  have filled : ∀ motion ∈ program.motions, motion.Filled := fun motion listed =>
    (filled_compile _ options ids motion listed).1
  rcases rebuild_flat (empty.after otherCommands) program with ⟨-, root, identifiers, flat⟩
  have motions : copy.program.motions = program.motions.map Motion.rebuilt :=
    flat.compile_motions otherOptions otherIds
  have fixed : program.motions.map Motion.rebuilt = program.motions.map id ↔
      ∀ motion ∈ program.motions, motion.rebuilt = motion := List.map_inj_left
  refine ⟨filled, ?_, ?_, ?_⟩
  · rw [motions, ← fixed.trans (forall₂_congr fun motion listed =>
      (filled motion listed).rebuilt_eq_iff), List.map_id]
  · rw [Program.sameEffect, motions, Motion.map_beq_iff]
    exact forall₂_congr fun motion listed => (filled motion listed).rebuilt_beq_iff
  · rw [← Array.size_eq_zero_iff, flat.warnings_compile otherOptions otherIds,
      List.sum_eq_zero_iff, List.forall_mem_map]
    exact forall₂_congr fun motion listed => (filled motion listed).literalWarnings_eq_zero_iff

end Workspace
end MotionBlocks
