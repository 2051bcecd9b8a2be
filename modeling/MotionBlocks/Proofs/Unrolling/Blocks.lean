import MotionBlocks.Proofs.Number.Comparison
import MotionBlocks.Proofs.Unrolling.Meaning

namespace MotionBlocks

/-!
# What one block does to a compilation

Every step of a compilation goes through one block, and a block can do little.  A
block beside the loops may be reported on, and a motion block gives one step, which
counts and takes an identifier.  A loop reads its number, has its body compiled, and
then takes the count of the body back and gives copies of it instead.

The limits of a loop are compared as doubles, as its number is.  Within `2 ^ 53` this
is how natural numbers compare; beyond, a loop may run more often than the most rounds
of one loop, but never more often than it asks for.
-/

/-! ## Warnings -/

namespace CompileWarning

/-- The warning that a loop was cut. -/
def isClamp : CompileWarning → Bool
  | .repeatClamped .. => true
  | _ => false

/-- The warning that a chain came back to a block. -/
def isCycle : CompileWarning → Bool
  | .cycleDetected _ => true
  | _ => false

/-- All other warnings take nothing away from a program but the block itself. -/
def isOrdinary (warning : CompileWarning) : Bool :=
  !warning.isClamp && !warning.isCycle

theorem isClamp_of_isOrdinary {warning : CompileWarning} (ordinary : warning.isOrdinary = true) :
    warning.isClamp = false := by
  cases warning <;> first | rfl | cases ordinary

theorem isCycle_of_isOrdinary {warning : CompileWarning} (ordinary : warning.isOrdinary = true) :
    warning.isCycle = false := by
  cases warning <;> first | rfl | cases ordinary

end CompileWarning

/-! ## Supplies and states -/

/-- Steps that are given other identifiers by their positions do the same. -/
theorem motions_identified (identify : Step → ℕ → String) (first : ℕ) (steps : List Step) :
    ((steps.zipIdx first).map fun (step, index) =>
      { step with id := identify step index }).map (·.motion) = steps.map (·.motion) := by
  rw [List.map_map]
  conv_rhs => rw [← List.zipIdx_map_fst first steps, List.map_map]
  rfl

namespace StepIds

/-- The supply after a number of turns. -/
def after (ids : StepIds) (turns : ℕ) : StepIds :=
  { ids with used := ids.used + turns }

/-- Steps with the next identifiers of a supply in place of their own. -/
def renewed (ids : StepIds) (steps : List Step) : List Step :=
  (steps.zipIdx ids.used).map fun (step, turn) => { step with id := ids.turn turn }

theorem motions_renewed (ids : StepIds) (steps : List Step) :
    (ids.renewed steps).map (·.motion) = steps.map (·.motion) :=
  motions_identified (fun _ turn => ids.turn turn) ids.used steps

@[simp] theorem length_renewed (ids : StepIds) (steps : List Step) :
    (ids.renewed steps).length = steps.length := by
  simp [renewed]

/-- Copies are made in order, with one turn for each. -/
theorem run_mapM_renew (steps : List Step) (ids : StepIds) :
    StateT.run (steps.mapM Step.renew) ids = (ids.renewed steps, ids.after steps.length) := by
  induction steps generalizing ids with
  | nil => rfl
  | cons step steps ih =>
    have rest := ih (ids.after 1)
    rw [List.mapM_cons]
    show ((⟨ids.turn ids.used, step.motion⟩ : Step) ::
      (StateT.run (steps.mapM Step.renew) (ids.after 1)).1,
      (StateT.run (steps.mapM Step.renew) (ids.after 1)).2) = _
    rw [rest]
    simp [renewed, after, Nat.add_assoc, Nat.add_comm 1]

end StepIds

namespace CompileState

/-- No loop has been cut so far. -/
def Unclamped (state : CompileState) : Prop :=
  ∀ warning ∈ state.warnings, warning.isClamp = false

/-- The warnings about the loops that have been cut so far, in order. -/
def clamps (state : CompileState) : List CompileWarning :=
  state.warnings.toList.filter CompileWarning.isClamp

/-- One block more has been met. -/
def meeting (state : CompileState) (id : BlockId) : CompileState :=
  { state with visited := id :: state.visited }

/-- More has been noticed. -/
def noting (state : CompileState) (noted : Array CompileWarning) : CompileState :=
  { state with warnings := state.warnings ++ noted }

/-- One step has been emitted. -/
def stepped (state : CompileState) : CompileState :=
  { state with emitted := state.emitted + 1, ids := state.ids.after 1 }

/-- The step that a motion becomes. -/
def stepOf (state : CompileState) (motion : Motion) : Step where
  id := state.ids.turn state.ids.used
  motion := motion

/-- A body has been replaced by a number of copies of it. -/
def unrolled (state : CompileState) (id : BlockId) (times : Float) (body : List Step)
    (count : ℕ) : CompileState :=
  { state with
    emitted := state.emitted - body.length + body.length * count
    warnings :=
      if Number.ofNat count < Number.floorPositive times then
        state.warnings.push (.repeatClamped id (Number.floorPositive times) count)
      else state.warnings
    ids := state.ids.after (List.replicate count body).flatten.length }

section

variable (state : CompileState) (noted : Array CompileWarning)

@[simp] theorem visited_meeting (id : BlockId) :
    (state.meeting id).visited = id :: state.visited := rfl

@[simp] theorem emitted_meeting (id : BlockId) : (state.meeting id).emitted = state.emitted := rfl

@[simp] theorem visited_noting : (state.noting noted).visited = state.visited := rfl

@[simp] theorem emitted_noting : (state.noting noted).emitted = state.emitted := rfl

@[simp] theorem warnings_noting : (state.noting noted).warnings = state.warnings ++ noted := rfl

@[simp] theorem noting_empty : state.noting #[] = state := by
  simp [noting]

theorem noting_noting (more : Array CompileWarning) :
    (state.noting noted).noting more = state.noting (noted ++ more) := by
  simp [noting, Array.append_assoc]

end

end CompileState

/-- Nothing is noticed but what concerns a block by itself. -/
def Ordinary (noted : Array CompileWarning) : Prop :=
  ∀ warning ∈ noted, warning.isOrdinary = true

theorem ordinary_empty : Ordinary #[] := by
  simp [Ordinary]

theorem ordinary_singleton {warning : CompileWarning} (ordinary : warning.isOrdinary = true) :
    Ordinary #[warning] := by
  simpa [Ordinary] using ordinary

theorem Ordinary.append {noted more : Array CompileWarning} (ordinary : Ordinary noted)
    (otherOrdinary : Ordinary more) : Ordinary (noted ++ more) := by
  intro warning listed
  rcases Array.mem_append.mp listed with listed | listed
  · exact ordinary warning listed
  · exact otherOrdinary warning listed

/-- Ordinary warnings cut no loop. -/
theorem CompileState.clamps_noting {noted : Array CompileWarning} (ordinary : Ordinary noted)
    (state : CompileState) : (state.noting noted).clamps = state.clamps := by
  have none : noted.toList.filter CompileWarning.isClamp = [] := by
    rw [List.filter_eq_nil_iff]
    intro warning listed
    rw [CompileWarning.isClamp_of_isOrdinary (ordinary warning (Array.mem_toList_iff.mp listed))]
    exact Bool.false_ne_true
  rw [clamps, warnings_noting, Array.toList_append, List.filter_append, none, List.append_nil]
  rfl

/-! ## Parts of a compilation -/

namespace Compiling

variable {α β : Type}

theorem run_bind (first : Compiling α) (next : α → Compiling β) (state : CompileState) :
    StateT.run (first >>= next) state =
      StateT.run (next (StateT.run first state).1) (StateT.run first state).2 := rfl

theorem run_warn (warning : CompileWarning) (state : CompileState) :
    StateT.run (warn warning) state = ((), state.noting #[warning]) := by
  simp only [CompileState.noting, ← Array.push_eq_append]
  rfl

theorem run_recount (change : ℕ → ℕ) (state : CompileState) :
    StateT.run (recount change) state = ((), { state with emitted := change state.emitted }) := rfl

theorem run_get (state : CompileState) :
    StateT.run (get : Compiling CompileState) state = (state, state) := rfl

theorem run_supply (make : StateM StepIds α) (state : CompileState) :
    StateT.run (supply make) state =
      ((StateT.run make state.ids).1, { state with ids := (StateT.run make state.ids).2 }) := rfl

theorem run_visit_of_mem {id : BlockId} {state : CompileState} (met : id ∈ state.visited) :
    StateT.run (visit id) state = (false, state) :=
  if_pos met

theorem run_visit_of_not_mem {id : BlockId} {state : CompileState} (fresh : id ∉ state.visited) :
    StateT.run (visit id) state = (true, state.meeting id) :=
  if_neg fresh

/-- A part of a compilation that does no more than notice something ordinary. -/
def Plain (part : Compiling α) : Prop :=
  ∀ state, ∃ noted, Ordinary noted ∧ (StateT.run part state).2 = state.noting noted

theorem plain_pure (value : α) : Plain (pure value) :=
  fun state => ⟨#[], ordinary_empty, state.noting_empty.symm⟩

theorem plain_warn {warning : CompileWarning} (ordinary : warning.isOrdinary = true) :
    Plain (warn warning) :=
  fun state => ⟨#[warning], ordinary_singleton ordinary, congrArg Prod.snd (run_warn warning state)⟩

theorem Plain.bind {first : Compiling α} {next : α → Compiling β} (plain : Plain first)
    (nextPlain : ∀ value, Plain (next value)) : Plain (first >>= next) := by
  intro state
  rcases plain state with ⟨noted, ordinary, run⟩
  rcases nextPlain (StateT.run first state).1 (state.noting noted) with ⟨more, others, nextRun⟩
  refine ⟨noted ++ more, ordinary.append others, ?_⟩
  rw [run_bind, run, nextRun, CompileState.noting_noting]

end Compiling

namespace Workspace

section

variable {workspace : Workspace} {id : BlockId} {block : Block}

/-! ## Numbers and kinds -/

theorem slotValue_eq_numberIn (workspace : Workspace) (block : Block) (slot : String)
    (default : Float) :
    (workspace.slotValue block slot default).value = workspace.numberIn block slot default := by
  unfold slotValue slotNumber numberIn literal?
  cases plugged : block.slots.get? slot with
  | none => rfl
  | some child =>
    cases found : workspace.block? child with
    | none => simp [found]
    | some lower =>
      by_cases literal : lower.kind = .numberLiteral
      · simp only [Option.bind_some, found, literal, if_true, Option.bind_eq_bind]
        cases (lower.fields.get? FieldName.number).bind FieldValue.asFiniteNumber? <;> rfl
      · simp [found, literal]

theorem parameter_run (slot : String) (default : Float) (state : CompileState) :
    (StateT.run (workspace.parameter id block slot default) state).1 =
      workspace.numberIn block slot default := by
  rw [← slotValue_eq_numberIn]
  unfold parameter
  dsimp only
  cases (workspace.slotValue block slot default).fallback <;> rfl

theorem plain_parameter (slot : String) (default : Float) :
    Compiling.Plain (workspace.parameter id block slot default) := by
  unfold parameter
  dsimp only
  cases (workspace.slotValue block slot default).fallback with
  | none => exact Compiling.plain_pure _
  | some reason => exact (Compiling.plain_warn rfl).bind fun _ => Compiling.plain_pure _

theorem chosenKind?_eq_some_iff {field : String} {family : StepFamily} {kind : StepKind} :
    chosenKind? block field family = some kind ↔ block.Names field family kind := by
  have named : ∀ text, StepKind.ofName? text = some kind ↔ text = kind.name := by
    intro text
    constructor
    · intro found
      have same := List.find?_some (p := fun kind : StepKind => kind.name == text) found
      exact (eq_of_beq same).symm
    · rintro rfl
      exact StepKind.ofName?_name kind
  unfold chosenKind? Block.Names
  cases stored : block.fields.get? field with
  | none => simp
  | some value =>
    cases value with
    | number value => simp [FieldValue.asText?]
    | text text => simp [FieldValue.asText?, Option.filter_eq_some_iff, named]

theorem chosenKind_run {field : String} {family : StepFamily} (state : CompileState) :
    (StateT.run (chosenKind id block field family) state).1 = chosenKind? block field family := by
  unfold chosenKind
  cases chosenKind? block field family <;> rfl

theorem plain_chosenKind {field : String} {family : StepFamily} :
    Compiling.Plain (chosenKind id block field family) := by
  unfold chosenKind
  cases chosenKind? block field family with
  | none => exact (Compiling.plain_warn rfl).bind fun _ => Compiling.plain_pure _
  | some kind => exact Compiling.plain_pure _

theorem plain_motion : Compiling.Plain (workspace.motion id block) := by
  unfold motion
  cases block.kind with
  | move =>
    refine plain_chosenKind.bind fun chosen => ?_
    cases chosen with
    | none => exact Compiling.plain_pure _
    | some kind =>
      exact (plain_parameter _ _).bind fun _ => (plain_parameter _ _).bind fun _ =>
        Compiling.plain_pure _
  | rotate =>
    refine plain_chosenKind.bind fun chosen => ?_
    cases chosen with
    | none => exact Compiling.plain_pure _
    | some kind =>
      exact (plain_parameter _ _).bind fun _ => (plain_parameter _ _).bind fun _ =>
        Compiling.plain_pure _
  | scale =>
    refine plain_chosenKind.bind fun chosen => ?_
    cases chosen with
    | none => exact Compiling.plain_pure _
    | some kind =>
      exact (plain_parameter _ _).bind fun _ => (plain_parameter _ _).bind fun _ =>
        Compiling.plain_pure _
  | pause => exact (plain_parameter _ _).bind fun _ => Compiling.plain_pure _
  | _ => exact Compiling.plain_pure _

theorem names_of_none {field : String} {family : StepFamily}
    (none : chosenKind? block field family = none) (kind : StepKind) :
    ¬ block.Names field family kind := by
  rw [← chosenKind?_eq_some_iff, none]
  simp

/-- The exact angle of a rotate block counts if the degrees are those shown for
it, and otherwise the degrees do. -/
theorem rotation_contributes {named : StepKind} (kind : block.kind = .rotate)
    (names : block.Names FieldName.axis .rotate named) :
    workspace.Contributes block
      [.travelling named (workspace.numberIn block SlotName.duration Defaults.duration)
        (rotationRadians block
          (workspace.numberIn block SlotName.angle Defaults.angleDegrees))] := by
  unfold rotationRadians
  cases kept : (block.fields.get? FieldName.radians).bind FieldValue.asFiniteNumber? with
  | none =>
    refine .rotate kind names fun radians exactly => ?_
    exact absurd (kept.symm.trans exactly) (by simp)
  | some radians =>
    by_cases same : (Number.degreesFor radians ==
        workspace.numberIn block SlotName.angle Defaults.angleDegrees) = true
    · simp only [same, if_true]
      exact .rotateExactly kind names kept same
    · simp only [same, Bool.false_eq_true, if_false]
      refine .rotate kind names fun other exactly => ?_
      rcases Option.some.inj (kept.symm.trans exactly) with rfl
      simpa using same

/-- The motion of a motion block is what the block stands for. -/
theorem motion_contributes (moves : block.kind.choice?.isSome ∨ block.kind = .pause)
    (state : CompileState) : workspace.Contributes block
      (StateT.run (workspace.motion id block) state).1.toList := by
  cases kind : block.kind with
  | move =>
    unfold motion
    simp only [kind, Compiling.run_bind, chosenKind_run]
    cases chosen : chosenKind? block FieldName.direction .move with
    | none => exact .unnamed (by rw [kind]; rfl) (names_of_none chosen)
    | some named =>
      simp only [Compiling.run_bind, parameter_run]
      exact .move kind (chosenKind?_eq_some_iff.mp chosen)
  | rotate =>
    unfold motion
    simp only [kind, Compiling.run_bind, chosenKind_run]
    cases chosen : chosenKind? block FieldName.axis .rotate with
    | none => exact .unnamed (by rw [kind]; rfl) (names_of_none chosen)
    | some named =>
      simp only [Compiling.run_bind, parameter_run]
      exact rotation_contributes kind (chosenKind?_eq_some_iff.mp chosen)
  | scale =>
    unfold motion
    simp only [kind, Compiling.run_bind, chosenKind_run]
    cases chosen : chosenKind? block FieldName.type .scale with
    | none => exact .unnamed (by rw [kind]; rfl) (names_of_none chosen)
    | some named =>
      simp only [Compiling.run_bind, parameter_run]
      exact .scale kind (chosenKind?_eq_some_iff.mp chosen)
  | pause =>
    unfold motion
    simp only [kind, Compiling.run_bind, parameter_run]
    exact .pause kind
  | _ => simp [kind, BlockKind.choice?] at moves

/-- Only finite numbers count as the number of a slot. -/
theorem isFinite_numberIn (slot : String) {default : Float} (finite : default.isFinite = true) :
    (workspace.numberIn block slot default).isFinite = true := by
  unfold numberIn
  cases read : workspace.literal? block slot with
  | none => exact finite
  | some number =>
    simp only [literal?, Option.bind_eq_bind, Option.bind_eq_some_iff] at read
    rcases read with ⟨child, -, lower, -, read⟩
    split at read
    · rcases Option.bind_eq_some_iff.mp read with ⟨field, -, read⟩
      exact (Option.filter_eq_some_iff.mp read).2
    · simp at read

end

end Workspace

/-! ## Loops -/

/-- The most rounds that a loop with a number may run for the limit on single loops.  A
number that is not seen to be beyond the limit is only held by the size of counts. -/
def CompileOptions.roundLimit (options : CompileOptions) (times : Float) : ℕ :=
  if Number.ofNat options.maxRepeat < Number.floorPositive times then options.maxRepeat
  else UInt64.size - 1

/-- The limits let a loop run a number of times: no more than it asks for, no more than
it may, and with no more steps in all its rounds than are left. -/
structure Affordable (options : CompileOptions) (rounds limit emitted length count : ℕ) :
    Prop where
  asked : count ≤ rounds
  each : count ≤ limit
  together : count * length ≤ options.maxSteps - emitted

/-- The quotient gives way to the other two limits where there is nothing to repeat. -/
theorem isGreatest_affordable (options : CompileOptions) (rounds limit emitted : ℕ)
    (body : List Step) :
    IsGreatest {count | Affordable options rounds limit emitted body.length count}
      (if body.isEmpty then min rounds limit
        else min (min rounds limit) ((options.maxSteps - emitted) / body.length)) := by
  by_cases nothing : body.isEmpty = true
  · rw [if_pos nothing, List.isEmpty_iff.mp nothing]
    exact ⟨⟨min_le_left _ _, min_le_right _ _, Nat.zero_le _⟩, fun count fits =>
      le_min fits.asked fits.each⟩
  · have positive : 0 < body.length := by
      rw [List.length_pos_iff]
      exact fun empty => nothing (List.isEmpty_iff.mpr empty)
    rw [if_neg nothing]
    constructor
    · exact ⟨(min_le_left _ _).trans (min_le_left _ _), (min_le_left _ _).trans (min_le_right _ _),
        (Nat.le_div_iff_mul_le positive).mp (min_le_right _ _)⟩
    · exact fun count fits => le_min (le_min fits.asked fits.each)
        ((Nat.le_div_iff_mul_le positive).mpr fits.together)

namespace CompileOptions

variable (options : CompileOptions) {times : Float}

/-- The limit on single loops allows the lesser of itself and of what is asked for. -/
theorem allowedRounds_eq (finite : times.isFinite = true) :
    Workspace.allowedRounds options times =
      min (Number.wholePart times) (options.roundLimit times) := by
  unfold Workspace.allowedRounds roundLimit
  split
  · rename_i beyond
    exact (min_eq_right (Number.lt_wholePart_of_ofNat_lt finite beyond).le).symm
  · rw [Number.saturated]

/-- Where nothing is rounded, no loop runs more often than the limit says. -/
theorem le_maxRepeat_of_le_roundLimit (finite : times.isFinite = true)
    (exact : options.maxRepeat ≤ 2 ^ 53) {count : ℕ} (asked : count ≤ Number.wholePart times)
    (each : count ≤ options.roundLimit times) : count ≤ options.maxRepeat := by
  unfold roundLimit at each
  split at each
  · exact each
  · rename_i notBeyond
    rw [Number.ofNat_lt_floorPositive_iff finite exact] at notBeyond
    exact asked.trans (Nat.le_of_not_lt notBeyond)

end CompileOptions

namespace Workspace

/-- The end of a loop: the copies are counted and put one behind the other. -/
def copies (count : ℕ) (body : List Step) : Compiling (List Step) := do
  Compiling.recount (· + body.length * count)
  if body.isEmpty then return []
  else Compiling.supply ((List.replicate count body).flatten.mapM Step.renew)

theorem copies_run (count : ℕ) (body : List Step) (state : CompileState) :
    StateT.run (copies count body) state =
      (state.ids.renewed (List.replicate count body).flatten,
        { state with
          emitted := state.emitted + body.length * count
          ids := state.ids.after (List.replicate count body).flatten.length }) := by
  unfold copies
  by_cases nothing : body.isEmpty = true
  · rw [List.isEmpty_iff.mp nothing, List.flatten_replicate_nil]
    rfl
  · rw [if_neg nothing, Compiling.run_bind, Compiling.run_supply, StepIds.run_mapM_renew]
    rfl

/-- A loop runs as often as the limits let it, and is reported if that is seen to be less
than it asks for. -/
theorem unroll_run (options : CompileOptions) (id : BlockId) {times : Float}
    (finite : times.isFinite = true) (body : List Step) (state : CompileState) :
    ∃ count, IsGreatest {count | Affordable options (Number.wholePart times)
        (options.roundLimit times) (state.emitted - body.length) body.length count} count ∧
      StateT.run (unroll options id times body) state =
        (state.ids.renewed (List.replicate count body).flatten,
          state.unrolled id times body count) := by
  refine ⟨_, isGreatest_affordable options (Number.wholePart times) (options.roundLimit times)
    (state.emitted - body.length) body, ?_⟩
  rw [← options.allowedRounds_eq finite]
  unfold unroll
  rw [Compiling.run_bind, Compiling.run_recount, Compiling.run_bind, Compiling.run_get]
  dsimp only
  generalize (if body.isEmpty = true then _ else _ : ℕ) = count
  -- The two sides are taken apart by hand, since a comparison of doubles is not to be computed.
  by_cases cut : Number.ofNat count < Number.floorPositive times
  · rw [if_pos cut, Compiling.run_bind, Compiling.run_warn, CompileState.unrolled, if_pos cut,
      Array.push_eq_append]
    exact copies_run count body _
  · rw [if_neg cut, CompileState.unrolled, if_neg cut]
    exact copies_run count body _

section

variable {workspace : Workspace} {id : BlockId} {block : Block}

/-- The number in a loop. -/
def timesIn (workspace : Workspace) (block : Block) : Float :=
  workspace.numberIn block SlotName.times Defaults.times

theorem isFinite_timesIn (workspace : Workspace) (block : Block) :
    (workspace.timesIn block).isFinite = true :=
  isFinite_numberIn SlotName.times (by decide +kernel)

theorem wholePart_timesIn (workspace : Workspace) (block : Block) :
    Number.wholePart (workspace.timesIn block) = workspace.rounds block :=
  Number.wholePart_eq_floor (workspace.isFinite_timesIn block)

/-! ## Blocks -/

/-- What may come of a block beside the loops: it is passed over, or gives one step. -/
inductive Beside (workspace : Workspace) (block : Block) (state : CompileState) :
    List Step × CompileState → Prop where
  | skipped {noted : Array CompileWarning} : Ordinary noted → workspace.Contributes block [] →
      Beside workspace block state ([], state.noting noted)
  | stepped {noted : Array CompileWarning} {motion : Motion} : Ordinary noted →
      workspace.Contributes block [motion] →
      Beside workspace block state
        ([(state.noting noted).stepOf motion], (state.noting noted).stepped)

/-- A block that means nothing in a chain is reported and passed over. -/
theorem beside_skip {warning : CompileWarning} (ordinary : warning.isOrdinary = true)
    (silent : block.kind.isSilent = true) (state : CompileState) :
    workspace.Beside block state (StateT.run (do
      Compiling.warn warning
      return []) state) := by
  rw [Compiling.run_bind, Compiling.run_warn]
  exact .skipped (ordinary_singleton ordinary) (.silent silent)

theorem beside_motion (moves : block.kind.choice?.isSome ∨ block.kind = .pause)
    (state : CompileState) : workspace.Beside block state (StateT.run (do
      match ← workspace.motion id block with
      | none => return []
      | some motion =>
        let step ← Compiling.supply (Step.build motion)
        Compiling.recount (· + 1)
        return [step]) state) := by
  have stands : workspace.Contributes block
      (StateT.run (workspace.motion id block) state).1.toList := motion_contributes moves state
  have plain : Compiling.Plain (workspace.motion id block) := plain_motion
  rcases plain state with ⟨noted, ordinary, after⟩
  rw [Compiling.run_bind, after]
  cases moved : (StateT.run (workspace.motion id block) state).1 with
  | none =>
    rw [moved] at stands
    exact .skipped ordinary stands
  | some motion =>
    rw [moved] at stands
    exact .stepped ordinary stands

theorem blockSteps_beside (options : CompileOptions) (noLoop : block.kind ≠ .loop)
    (nested : Compiling (List Step)) (state : CompileState) :
    workspace.Beside block state
      (StateT.run (workspace.blockSteps options id block nested) state) := by
  unfold blockSteps
  cases kind : block.kind with
  | loop => exact absurd kind noLoop
  | start => exact beside_skip rfl (by rw [kind]; rfl) state
  | numberLiteral => exact beside_skip rfl (by rw [kind]; rfl) state
  | custom name => exact beside_skip rfl (by rw [kind]; rfl) state
  | move => exact beside_motion (Or.inl (by rw [kind]; rfl)) state
  | rotate => exact beside_motion (Or.inl (by rw [kind]; rfl)) state
  | scale => exact beside_motion (Or.inl (by rw [kind]; rfl)) state
  | pause => exact beside_motion (Or.inr kind) state

theorem blockSteps_of_loop (options : CompileOptions) (loop : block.kind = .loop)
    (nested : Compiling (List Step)) : workspace.blockSteps options id block nested = (do
      let times ← workspace.parameter id block SlotName.times Defaults.times
      let body ← nested
      unroll options id times body) := by
  simp only [blockSteps, loop]

/-- A loop reads its number, has its nested chain compiled and unrolls what comes of it. -/
theorem blockSteps_loop (options : CompileOptions) (loop : block.kind = .loop)
    (nested : Compiling (List Step)) (state : CompileState) : ∃ noted count, Ordinary noted ∧
      IsGreatest {count | Affordable options (workspace.rounds block)
        (options.roundLimit (workspace.timesIn block))
        ((StateT.run nested (state.noting noted)).2.emitted -
          (StateT.run nested (state.noting noted)).1.length)
        (StateT.run nested (state.noting noted)).1.length count} count ∧
      StateT.run (workspace.blockSteps options id block nested) state =
        ((StateT.run nested (state.noting noted)).2.ids.renewed
            (List.replicate count (StateT.run nested (state.noting noted)).1).flatten,
          (StateT.run nested (state.noting noted)).2.unrolled id (workspace.timesIn block)
            (StateT.run nested (state.noting noted)).1 count) := by
  have plain : Compiling.Plain
      (workspace.parameter id block SlotName.times Defaults.times) := plain_parameter _ _
  rcases plain state with ⟨noted, ordinary, read⟩
  rcases unroll_run options id (workspace.isFinite_timesIn block)
    (StateT.run nested (state.noting noted)).1 (StateT.run nested (state.noting noted)).2 with
    ⟨count, greatest, unrolled⟩
  rw [wholePart_timesIn] at greatest
  refine ⟨noted, count, ordinary, greatest, ?_⟩
  rw [blockSteps_of_loop options loop, Compiling.run_bind, parameter_run, Compiling.run_bind, read]
  exact unrolled

end

end Workspace
end MotionBlocks
