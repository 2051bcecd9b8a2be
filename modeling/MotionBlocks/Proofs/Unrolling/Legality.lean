import MotionBlocks.Json.Strict
import MotionBlocks.Program.Exchange
import MotionBlocks.Proofs.Number.Order
import MotionBlocks.Proofs.Rebuilding.Agreement
import MotionBlocks.Proofs.Unrolling.Correctness

namespace MotionBlocks

/-!
# Which compiled programs are legal

A compilation takes any finite number from a literal and fills every gap by a
default, so its steps have all the parameters that they read and none besides.
It does not look at the numbers any further.  A duration that is not positive is
passed on as it stands, and so is an angle whose radians are too large for a
double.  Both are refused when the program comes back from the host.

These two ways are the only ones.  No property of the graph apart from the numbers
in its slots has an influence.
-/

namespace Motion

/-! ## Legal motions -/

/-- What the playback engine asks of a step. -/
structure Legal (motion : Motion) : Prop where
  duration : motion.duration.isFinite = true
  positive : 0.0 < motion.duration
  required : ∀ parameter given, motion.required = some (parameter, given) →
    ∃ number, given = some number ∧ number.isFinite = true

/-- The search for a fault finds nothing if and only if there is none. -/
theorem fault?_eq_none_iff (motion : Motion) (index : Nat) :
    motion.fault? index = none ↔ motion.Legal := by
  constructor
  · intro legal
    rcases finite_of_legal legal with ⟨duration, required⟩
    refine ⟨duration, (Number.not_le_zero_iff duration).mp fun small => ?_, required⟩
    simp [fault?, duration, small] at legal
  · rintro ⟨duration, positive, required⟩
    have large := (Number.not_le_zero_iff duration).mpr positive
    cases reads : motion.required with
    | none => simp [fault?, duration, large, reads]
    | some parameter =>
      rcases parameter with ⟨parameter, given⟩
      rcases required parameter given reads with ⟨number, rfl, finite⟩
      simp [fault?, duration, large, reads, finite]

/-- A motion has the parameter that its kind reads and no other.  No number of it
is undefined, and only the radians of a rotation may be infinite. -/
structure Filled (motion : Motion) : Prop where
  duration : motion.duration.isFinite = true
  tidy : motion.Tidy
  required : ∀ parameter given, motion.required = some (parameter, given) →
    ∃ number, given = some number ∧ number.isNaN = false ∧
      (motion.kind.family ≠ .rotate → number.isFinite = true)

/-- A kind reads one parameter at most. -/
theorem Filled.of_required {motion : Motion} (parameter : Parameter) {number : Float}
    (duration : motion.duration.isFinite = true) (tidy : motion.Tidy)
    (reads : motion.required = some (parameter, some number)) (defined : number.isNaN = false)
    (finite : motion.kind.family ≠ .rotate → number.isFinite = true) : motion.Filled := by
  refine ⟨duration, tidy, fun other given read => ?_⟩
  rcases Option.some.inj (reads.symm.trans read) with ⟨⟩
  exact ⟨number, rfl, defined, finite⟩

/-- The numbers that decide whether a filled motion is legal. -/
def Playable (motion : Motion) : Prop :=
  0.0 < motion.duration ∧
    (motion.kind.family = .rotate → ∀ radians ∈ motion.distance, radians.isFinite = true)

theorem Filled.legal_iff {motion : Motion} (filled : motion.Filled) :
    motion.Legal ↔ motion.Playable := by
  constructor
  · rintro ⟨-, positive, required⟩
    refine ⟨positive, fun rotates radians given => ?_⟩
    rcases required .distance motion.distance (by simp [Motion.required, rotates]) with
      ⟨number, read, finite⟩
    rcases Option.some.inj (read.symm.trans given) with rfl
    exact finite
  · rintro ⟨positive, turned⟩
    refine ⟨filled.duration, positive, fun parameter given reads => ?_⟩
    rcases filled.required parameter given reads with ⟨number, rfl, -, finite⟩
    refine ⟨number, rfl, ?_⟩
    by_cases rotates : motion.kind.family = .rotate
    · simp only [Motion.required, rotates, Option.some.injEq, Prod.mk.injEq] at reads
      exact turned rotates number reads.2
    · exact finite rotates

/-- Without an undefined number a motion agrees with itself. -/
theorem Filled.beq_self {motion : Motion} (filled : motion.Filled) : (motion == motion) = true := by
  have duration := Number.beq_self filled.duration
  have tidy := filled.tidy
  have given : ∀ parameter value, motion.required = some (parameter, value) →
      (value == value) = true := by
    intro parameter value reads
    rcases filled.required parameter value reads with ⟨number, rfl, defined, -⟩
    exact Number.beq_self_of_defined defined
  rw [beq_iff]
  unfold Tidy at tidy
  unfold Motion.required at given
  cases family : motion.kind.family with
  | move =>
    simp only [family] at tidy given
    exact ⟨rfl, duration, given _ _ rfl, by rw [tidy]; rfl⟩
  | rotate =>
    simp only [family] at tidy given
    exact ⟨rfl, duration, given _ _ rfl, by rw [tidy]; rfl⟩
  | scale =>
    simp only [family] at tidy given
    exact ⟨rfl, duration, by rw [tidy]; rfl, given _ _ rfl⟩
  | pause =>
    simp only [family] at tidy
    exact ⟨rfl, duration, by rw [tidy.1]; rfl, by rw [tidy.2]; rfl⟩

end Motion

theorem Program.fault?_eq_none_iff (program : Program) :
    program.fault? = none ↔ ∀ motion ∈ program.motions, motion.Legal := by
  unfold Program.fault? Program.motions
  rw [List.findSome?_eq_none_iff]
  constructor
  · intro none motion listed
    rcases List.mem_map.mp listed with ⟨step, inProgram, rfl⟩
    rcases List.mem_iff_getElem?.mp inProgram with ⟨index, indexed⟩
    exact (step.motion.fault?_eq_none_iff index).mp
      (none (step, index) (by simp [List.mem_zipIdx_iff_getElem?, indexed]))
  · rintro legal ⟨step, index⟩ listed
    rw [List.mem_zipIdx_iff_getElem?] at listed
    exact (step.motion.fault?_eq_none_iff index).mpr
      (legal _ (List.mem_map.mpr ⟨step, List.mem_of_getElem? listed, rfl⟩))

namespace Workspace

section

variable {workspace : Workspace} {id : BlockId} {block : Block} {motion : Motion}

/-! ## Where compiled motions come from -/

/-- The numbers of a block that decide whether its motion is legal. -/
def Measured (workspace : Workspace) (block : Block) : Prop :=
  0.0 < workspace.numberIn block SlotName.duration Defaults.duration ∧
    (block.kind = .rotate → (Number.degreesToRadians
      (workspace.numberIn block SlotName.angle Defaults.angleDegrees)).isFinite = true)

/-- A block of the workspace stands for a motion. -/
def Yields (workspace : Workspace) (motion : Motion) : Prop :=
  ∃ id block, workspace.block? id = some block ∧ workspace.Contributes block [motion]

theorem isFinite_of_exactAngle {radians : Float} (exact : block.ExactAngle radians) :
    radians.isFinite = true := by
  rcases Option.bind_eq_some_iff.mp exact with ⟨field, -, read⟩
  exact (Option.filter_eq_some_iff.mp read).2

/-- Literals and defaults are finite, so only a conversion can lead to a number
that is not. -/
theorem Contributes.filled (stands : workspace.Contributes block [motion]) : motion.Filled := by
  have duration : (workspace.numberIn block SlotName.duration Defaults.duration).isFinite = true :=
    isFinite_numberIn _ (Defaults.all_finite Defaults.duration (by simp))
  cases stands with
  | pause kind => exact ⟨duration, ⟨rfl, rfl⟩, by simp [Motion.required, StepKind.family]⟩
  | move kind named =>
    have distance :
        (workspace.numberIn block SlotName.distance Defaults.distance).isFinite = true :=
      isFinite_numberIn _ (Defaults.all_finite Defaults.distance (by simp))
    exact .of_required .distance duration (by simp [Motion.Tidy, named.2])
      (by simp only [Motion.required, named.2]) (Number.isNaN_of_isFinite distance)
      fun _ => distance
  | rotateExactly kind named exact =>
    have finite := isFinite_of_exactAngle exact
    exact .of_required .distance duration (by simp [Motion.Tidy, named.2])
      (by simp only [Motion.required, named.2]) (Number.isNaN_of_isFinite finite) fun _ => finite
  | rotate kind named =>
    have angle :
        (workspace.numberIn block SlotName.angle Defaults.angleDegrees).isFinite = true :=
      isFinite_numberIn _ (Defaults.all_finite Defaults.angleDegrees (by simp))
    exact .of_required .distance duration (by simp [Motion.Tidy, named.2])
      (by simp only [Motion.required, named.2]) (Number.isNaN_degreesToRadians angle)
      fun other => absurd named.2 other
  | scale kind named =>
    have scale : (workspace.numberIn block SlotName.scale Defaults.scale).isFinite = true :=
      isFinite_numberIn _ (Defaults.all_finite Defaults.scale (by simp))
    exact .of_required .scale duration (by simp [Motion.Tidy, named.2])
      (by simp only [Motion.required, named.2]) (Number.isNaN_of_isFinite scale) fun _ => scale

theorem Contributes.playable (stands : workspace.Contributes block [motion])
    (measured : workspace.Measured block) : motion.Playable := by
  cases stands with
  | pause kind => exact ⟨measured.1, by simp [StepKind.family]⟩
  | move kind named => exact ⟨measured.1, by simp [named.2]⟩
  | rotateExactly kind named exact =>
    exact ⟨measured.1, by simp [named.2, isFinite_of_exactAngle exact]⟩
  | rotate kind named => exact ⟨measured.1, by simp [named.2, measured.2 kind]⟩
  | scale kind named => exact ⟨measured.1, by simp [named.2]⟩

/-- A block stands for one motion at most. -/
theorem Contributes.eq_singleton {own : List Motion} (stands : workspace.Contributes block own)
    (listed : motion ∈ own) : own = [motion] := by
  cases stands <;> simp_all

end

/-! ## The motions of a chain -/

section

variable {workspace : Workspace}

/-- Every motion of a chain is that of a block, since a loop copies what its nested chain
gives. -/
theorem Walk.yields {options : CompileOptions} {start : Option BlockId}
    {state final : CompileState} {steps : List Step}
    (walk : workspace.Walk options start state steps final) :
    ∀ motion ∈ steps.map (·.motion), workspace.Yields motion := by
  induction walk with
  | ends => exact List.forall_mem_nil _
  | lost => exact List.forall_mem_nil _
  | again => exact List.forall_mem_nil _
  | @beside id block _ _ _ _ _ found _ beside _ ih =>
    intro motion listed
    rw [List.map_append] at listed
    rcases List.mem_append.mp listed with own | rest
    · have stands := beside.contributes
      exact ⟨id, block, found, stands.eq_singleton own ▸ stands⟩
    · exact ih motion rest
  | loop _ _ _ _ _ _ _ bodyIh restIh =>
    intro motion listed
    rw [List.map_append, motions_copies] at listed
    rcases List.mem_append.mp listed with copied | rest
    · rcases List.mem_flatten.mp copied with ⟨round, repeated, inRound⟩
      exact bodyIh motion (List.eq_of_mem_replicate repeated ▸ inRound)
    · exact restIh motion rest

/-- Every motion of a compilation is that of a block. -/
theorem yields_compile (workspace : Workspace) (options : CompileOptions) (ids : StepIds) :
    ∀ motion ∈ (workspace.compile options ids).1.program.motions, workspace.Yields motion := by
  rw [(workspace.compile_eq options ids).1]
  rcases workspace.noStart_or_firstStart with none | ⟨id, block, first⟩
  · rw [run_steps_of_starts_eq_nil none]
    exact List.forall_mem_nil _
  · rcases first.walk options ids with ⟨noted, -, walk⟩
    exact walk.yields

/-! ## Programs -/

theorem filled_compile (workspace : Workspace) (options : CompileOptions) (ids : StepIds) :
    ∀ motion ∈ (workspace.compile options ids).1.program.motions,
      motion.Filled ∧ workspace.Yields motion := by
  intro motion listed
  rcases workspace.yields_compile options ids motion listed with ⟨id, block, found, stands⟩
  exact ⟨stands.filled, id, block, found, stands⟩

/-- Two compilations of a workspace have the same effect, since no number in them is
undefined. -/
theorem sameEffect_compile (workspace : Workspace) (options : CompileOptions)
    (ids otherIds : StepIds) : (workspace.compile options ids).1.program.sameEffect
      (workspace.compile options otherIds).1.program = true := by
  have agree := (Motion.map_beq_iff id _).mpr fun motion listed =>
    (workspace.filled_compile options ids motion listed).1.beq_self
  rw [List.map_id] at agree
  rw [Program.sameEffect, workspace.motions_compile_congr options ids otherIds]
  exact agree

/-- Every step of a compiled program has the parameters that its kind reads, so the
program is legal if and only if its durations are positive and its rotations are
finite.  It is legal whenever the numbers in the slots of the blocks that stand for
a motion have these two properties. -/
theorem fault?_compile_eq_none_iff (workspace : Workspace) (options : CompileOptions)
    (ids : StepIds) :
    (∀ motion ∈ (workspace.compile options ids).1.program.motions,
      motion.Filled ∧ workspace.Yields motion) ∧
    ((workspace.compile options ids).1.program.fault? = none ↔
      ∀ motion ∈ (workspace.compile options ids).1.program.motions, motion.Playable) ∧
    ((∀ id block motion, workspace.block? id = some block → workspace.Contributes block [motion] →
      workspace.Measured block) → (workspace.compile options ids).1.program.fault? = none) := by
  have filled := workspace.filled_compile options ids
  have legal : (workspace.compile options ids).1.program.fault? = none ↔
      ∀ motion ∈ (workspace.compile options ids).1.program.motions, motion.Playable := by
    rw [Program.fault?_eq_none_iff]
    exact forall₂_congr fun motion listed => (filled motion listed).1.legal_iff
  refine ⟨filled, legal, fun measured => legal.mpr fun motion listed => ?_⟩
  rcases (filled motion listed).2 with ⟨id, block, found, stands⟩
  exact stands.playable (measured id block motion found stands)

end

/-- A start block with a pause of minus one second. -/
def pausingBackwards : List Command :=
  [.create .start, .create .pause, .create .numberLiteral,
    .setField (.numbered 2) FieldName.number (.number (-1.0)),
    .connectValue (.numbered 1) SlotName.duration (.numbered 2),
    .connectNext (.numbered 0) (.numbered 1)]

/-- A start block with a rotation by finitely many degrees whose radians overflow. -/
def turningTooFar : List Command :=
  [.create .start, .create .rotate, .create .numberLiteral,
    .setField (.numbered 1) FieldName.axis (.text StepKind.rotateX.name),
    .setField (.numbered 2) FieldName.number (.number 1.0e308),
    .connectValue (.numbered 1) SlotName.angle (.numbered 2),
    .connectNext (.numbered 0) (.numbered 1)]

/-- Compilation passes on a duration that is not positive and an angle that
overflows.  The programs have a text, and the host cannot hand either back. -/
theorem refused_after_compile :
    (let program := ((empty.after pausingBackwards).compile {} .counting).1.program
     program.fault?.map (·.message) = some "step 0 has non-positive duration -1" ∧
       (program.toText .strict).isOk = true ∧
       (program.toText .strict >>= Program.ofText .strict).isOk = false) ∧
    (let program := ((empty.after turningTooFar).compile {} .counting).1.program
     program.fault?.map (·.message) = some "step 0 has a non-finite `distance` value" ∧
       (program.toText .strict).isOk = true ∧
       (program.toText .strict >>= Program.ofText .strict).isOk = false) := by
  decide +kernel

end Workspace
end MotionBlocks
