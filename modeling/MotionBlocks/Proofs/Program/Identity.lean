import MotionBlocks.Proofs.Unrolling.Budget
import MotionBlocks.Proofs.Unrolling.Locality

namespace MotionBlocks

/-!
# Identifiers of steps

A compilation takes an identifier for every step that it builds and for every copy of a
step, and none of them twice: what it takes are turns of the supply in their order.  The
identifiers that the steps of a body had before they were copied are left out and never
given again.  So if no two turns of the supply are the same, then no two steps of a program
are, and no step has an identifier that was given out before, to a step of the same program,
of another one or of none.

Structural identifiers need no supply.  They spell a position and a kind and nothing else,
so they can be read back: programs have the same identifiers if and only if they have the
same kinds of steps in the same order.
-/

namespace Program

/-- The identifiers of the steps, in order. -/
def identifiers (program : Program) : List String :=
  program.steps.map (·.id)

end Program

namespace StepIds

/-- An identifier has been given out by a supply. -/
def Given (ids : StepIds) (id : String) : Prop :=
  ∃ turn < ids.used, ids.turn turn = id

/-- The identifiers of steps were taken from a supply one after the other, and it has been
left as another one. -/
structure Drawn (ids : StepIds) (steps : List Step) (later : StepIds) : Prop where
  turn : later.turn = ids.turn
  used : ids.used ≤ later.used
  turns : ∃ turns : List ℕ, steps.map (·.id) = turns.map ids.turn ∧ turns.Pairwise (· < ·) ∧
    ∀ turn ∈ turns, ids.used ≤ turn ∧ turn < later.used

theorem drawn_nil (ids : StepIds) : ids.Drawn [] ids :=
  ⟨rfl, le_rfl, [], rfl, .nil, fun _ listed => nomatch listed⟩

section

variable {ids between later : StepIds} {steps rest : List Step}

/-- What is taken later has later turns. -/
theorem Drawn.append (drawn : ids.Drawn steps between) (drawnRest : between.Drawn rest later) :
    ids.Drawn (steps ++ rest) later := by
  rcases drawn.turns with ⟨turns, given, ordered, inside⟩
  rcases drawnRest.turns with ⟨restTurns, restGiven, restOrdered, restInside⟩
  refine ⟨drawnRest.turn.trans drawn.turn, drawn.used.trans drawnRest.used, turns ++ restTurns,
    ?_, List.pairwise_append.mpr ⟨ordered, restOrdered, fun first isFirst second isSecond => ?_⟩,
    fun turn listed => ?_⟩
  · rw [List.map_append, List.map_append, given, restGiven, drawn.turn]
  · exact (inside first isFirst).2.trans_le (restInside second isSecond).1
  · rcases List.mem_append.mp listed with listed | listed
    · exact ⟨(inside turn listed).1, (inside turn listed).2.trans_le drawnRest.used⟩
    · exact ⟨drawn.used.trans (restInside turn listed).1, (restInside turn listed).2⟩

/-- New identifiers are the next ones in the supply. -/
theorem drawn_renewed (ids : StepIds) (steps : List Step) :
    ids.Drawn (ids.renewed steps) (ids.after steps.length) := by
  refine ⟨rfl, Nat.le_add_right _ _, List.range' ids.used steps.length, ?_,
    List.pairwise_lt_range', fun turn listed => List.mem_range'_1.mp listed⟩
  rw [renewed, List.map_map, ← List.zipIdx_map_snd, List.map_map]
  rfl

/-- Steps that are left out do not matter to those that are not. -/
theorem Drawn.leave (drawn : ids.Drawn steps later) : ids.Drawn [] later :=
  ⟨drawn.turn, drawn.used, [], rfl, .nil, fun _ listed => nomatch listed⟩

theorem Drawn.nodup (drawn : ids.Drawn steps later) (neverRepeats : ids.NeverRepeats) :
    (steps.map (·.id)).Nodup := by
  rcases drawn.turns with ⟨turns, given, ordered, -⟩
  rw [given]
  exact List.Nodup.map (fun first second => neverRepeats first second) (ordered.imp Nat.ne_of_lt)

/-- What is taken was not given out before, and has been given out then. -/
theorem Drawn.unspent (drawn : ids.Drawn steps later) (neverRepeats : ids.NeverRepeats) :
    ∀ id ∈ steps.map (·.id), ¬ ids.Given id ∧ later.Given id := by
  rcases drawn.turns with ⟨turns, given, -, inside⟩
  intro id listed
  rw [given, List.mem_map] at listed
  rcases listed with ⟨turn, isTurn, rfl⟩
  refine ⟨?_, turn, (inside turn isTurn).2, by rw [drawn.turn]⟩
  rintro ⟨other, before, same⟩
  rw [neverRepeats other turn same] at before
  exact Nat.not_lt.mpr (inside turn isTurn).1 before

theorem Drawn.given (drawn : ids.Drawn steps later) {id : String} (given : ids.Given id) :
    later.Given id := by
  rcases given with ⟨turn, before, same⟩
  exact ⟨turn, before.trans_le drawn.used, by rw [drawn.turn, same]⟩

end

end StepIds

/-! ## Structural identifiers -/

namespace StepKind

/-- The identifier of a step of a kind at an index. -/
def placed (kind : StepKind) (index : Nat) : String :=
  index.repr ++ ":" ++ kind.name

/-- No digit is a colon, so the first colon ends the index. -/
theorem span_placed (kind : StepKind) (index : Nat) :
    (kind.placed index).toList.takeWhile (· ≠ ':') = Nat.toDigits 10 index ∧
      (kind.placed index).toList.dropWhile (· ≠ ':') = ':' :: kind.name.toList := by
  have spelled : (kind.placed index).toList =
      Nat.toDigits 10 index ++ ':' :: kind.name.toList := by
    simp [placed]
  have digits : ∀ digit ∈ Nat.toDigits 10 index, decide (digit ≠ ':') = true := by
    intro digit listed
    have isDigit := Nat.isDigit_of_mem_toDigits (by decide) (by decide) listed
    refine decide_eq_true fun colon => ?_
    rw [colon] at isDigit
    exact absurd isDigit (by decide)
  rw [spelled, List.takeWhile_append_of_pos digits, List.dropWhile_append_of_pos digits]
  simp

/-- The kind that an identifier spells behind its index. -/
def ofPlaced? (id : String) : Option StepKind :=
  ofName? (String.ofList ((id.toList.dropWhile (· ≠ ':')).drop 1))

theorem ofPlaced?_placed (kind : StepKind) (index : Nat) :
    ofPlaced? (kind.placed index) = some kind := by
  rw [ofPlaced?, (kind.span_placed index).2]
  simpa using kind.ofName?_name

end StepKind

namespace Workspace

/-- The identifiers of a structural program spell the kinds with their indices. -/
theorem identifiers_structuralSteps (steps : List Step) :
    Program.identifiers ⟨structuralSteps steps⟩ =
      (steps.map (·.motion.kind)).zipIdx.map fun (kind, index) => kind.placed index := by
  unfold Program.identifiers structuralSteps
  rw [List.zipIdx_map, List.map_map, List.map_map]
  rfl

theorem kinds_structuralSteps (steps : List Step) :
    Program.kinds ⟨structuralSteps steps⟩ = steps.map (·.motion.kind) := by
  have kinds := congrArg (List.map Motion.kind) (motions_structuralSteps steps)
  rwa [List.map_map, List.map_map] at kinds

theorem nodup_structuralSteps (steps : List Step) :
    (Program.identifiers ⟨structuralSteps steps⟩).Nodup := by
  -- The indices that the identifiers spell are distinct, so these are.
  refine List.Nodup.of_map (fun id => id.toList.takeWhile (· ≠ ':')) ?_
  have indices : (Program.identifiers ⟨structuralSteps steps⟩).map
      (fun id => id.toList.takeWhile (· ≠ ':')) =
        (List.range' 0 steps.length).map (Nat.toDigits 10) := by
    rw [identifiers_structuralSteps, ← List.length_map (·.motion.kind), ← List.zipIdx_map_snd,
      List.map_map, List.map_map]
    exact List.map_congr_left fun entry _ => (entry.1.span_placed entry.2).1
  rw [indices]
  refine List.Nodup.map (fun first second same => ?_) List.nodup_range'
  have readBack := congrArg (Nat.ofDigitChars 10 · 0) same
  simpa only [Nat.ofDigitChars_ten_toDigits] using readBack

/-- Structural identifiers tell the kinds of the steps and nothing else. -/
theorem identifiers_structuralSteps_eq_iff (first second : List Step) :
    Program.identifiers ⟨structuralSteps first⟩ = Program.identifiers ⟨structuralSteps second⟩ ↔
      first.map (·.motion.kind) = second.map (·.motion.kind) := by
  have read : ∀ steps : List Step,
      (Program.identifiers ⟨structuralSteps steps⟩).map StepKind.ofPlaced? =
        (steps.map (·.motion.kind)).map some := by
    intro steps
    rw [identifiers_structuralSteps]
    generalize steps.map (·.motion.kind) = kinds
    conv_rhs => rw [← List.zipIdx_map_fst 0 kinds]
    rw [List.map_map, List.map_map]
    refine List.map_congr_left fun entry _ => ?_
    simp only [Function.comp_apply, StepKind.ofPlaced?_placed]
  constructor
  · intro same
    have spelled :
        (first.map (·.motion.kind)).map some = (second.map (·.motion.kind)).map some := by
      rw [← read first, same, read second]
    exact List.map_injective_iff.mpr (Option.some_injective StepKind) spelled
  · intro same
    rw [identifiers_structuralSteps first, identifiers_structuralSteps second, same]

/-! ## Compiled programs -/

/-- Whatever comes of a chain has been taken from the supply in order. -/
theorem Walk.drawn {workspace : Workspace} {options : CompileOptions} {start : Option BlockId}
    {state final : CompileState} {steps : List Step}
    (walk : workspace.Walk options start state steps final) :
    state.ids.Drawn steps final.ids := by
  induction walk with
  | ends => exact StepIds.drawn_nil _
  | lost => exact StepIds.drawn_nil _
  | again => exact StepIds.drawn_nil _
  | @beside id _ _ _ state _ _ _ _ beside _ ih =>
    refine StepIds.Drawn.append ?_ ih
    cases beside with
    | skipped => exact StepIds.drawn_nil _
    | @stepped noted motion => exact StepIds.drawn_renewed _ [(state.noting noted).stepOf motion]
  | loop _ _ _ _ _ _ _ bodyIh restIh =>
    -- The identifiers in the body are spent, but none of its steps stays.
    exact (bodyIh.leave.append (StepIds.drawn_renewed _ _)).append restIh

theorem drawn_steps (workspace : Workspace) (options : CompileOptions) (ids : StepIds) :
    ids.Drawn (StateT.run (workspace.steps options) (.initial ids)).1
      (StateT.run (workspace.steps options) (.initial ids)).2.ids := by
  rcases workspace.noStart_or_firstStart with none | ⟨id, block, first⟩
  · rw [run_steps_of_starts_eq_nil none]
    exact StepIds.drawn_nil _
  · rcases first.walk options ids with ⟨noted, -, walk⟩
    exact walk.drawn

/-- Under new identifiers the steps of a workspace stay as they are. -/
theorem compile_fresh (workspace : Workspace) {options : CompileOptions}
    (fresh : options.idPolicy = .fresh) (ids : StepIds) :
    (workspace.compile options ids).1.program =
      ⟨(StateT.run (workspace.steps options) (.initial ids)).1⟩ := by
  unfold compile
  generalize StateT.run (workspace.steps options) (.initial ids) = outcome
  rcases outcome with ⟨steps, state⟩
  simp only [fresh]

/-- What a compilation leaves of the supply is the same under both policies. -/
theorem drawn_compile (workspace : Workspace) (options : CompileOptions) (ids : StepIds) :
    ids.Drawn [] (workspace.compile options ids).2 := by
  rw [(workspace.compile_eq options ids).2.2]
  exact (workspace.drawn_steps options ids).leave

theorem drawn_compile_fresh (workspace : Workspace) {options : CompileOptions}
    (fresh : options.idPolicy = .fresh) (ids : StepIds) :
    ids.Drawn (workspace.compile options ids).1.program.steps
      (workspace.compile options ids).2 := by
  rw [workspace.compile_fresh fresh, (workspace.compile_eq options ids).2.2]
  exact workspace.drawn_steps options ids

theorem identifiers_structural_eq_iff (first second : Workspace)
    {options otherOptions : CompileOptions} (structural : options.idPolicy = .structural)
    (otherStructural : otherOptions.idPolicy = .structural) (ids otherIds : StepIds) :
    (first.compile options ids).1.program.identifiers =
        (second.compile otherOptions otherIds).1.program.identifiers ↔
      (first.compile options ids).1.program.kinds =
        (second.compile otherOptions otherIds).1.program.kinds := by
  rw [first.compile_structural structural, second.compile_structural otherStructural,
    kinds_structuralSteps, kinds_structuralSteps]
  exact identifiers_structuralSteps_eq_iff _ _

/-! ## One compilation after another -/

/-- The programs of workspaces that are compiled one after another from one supply. -/
def compileEach : List (Workspace × CompileOptions) → StepIds → List Program
  | [], _ => []
  | (workspace, options) :: rest, ids =>
    let (compilation, ids) := workspace.compile options ids
    compilation.program :: compileEach rest ids

/-- No two steps share a new identifier, be they of one program or of several. -/
theorem nodup_compileEach (requests : List (Workspace × CompileOptions))
    (fresh : ∀ request ∈ requests, request.2.idPolicy = .fresh) (ids : StepIds)
    (neverRepeats : ids.NeverRepeats) :
    ((compileEach requests ids).flatMap Program.identifiers).Nodup ∧
      ∀ id ∈ (compileEach requests ids).flatMap Program.identifiers, ¬ ids.Given id := by
  induction requests generalizing ids with
  | nil => exact ⟨.nil, fun _ listed => nomatch listed⟩
  | cons request rest ih =>
    rcases request with ⟨workspace, options⟩
    rcases List.forall_mem_cons.mp fresh with ⟨isFresh, freshRest⟩
    have drawn := workspace.drawn_compile_fresh isFresh ids
    have still : (workspace.compile options ids).2.NeverRepeats := by
      rw [StepIds.NeverRepeats, drawn.turn]
      exact neverRepeats
    rcases ih freshRest (workspace.compile options ids).2 still with ⟨distinct, unspent⟩
    have own := drawn.unspent neverRepeats
    rw [compileEach, List.flatMap_cons]
    refine ⟨List.nodup_append.mpr ⟨drawn.nodup neverRepeats, distinct, ?_⟩, ?_⟩
    · -- What the first program has taken is no longer there for the later ones.
      rintro id listed _ later rfl
      exact unspent id later (own id listed).2
    · intro id listed
      rcases List.mem_append.mp listed with listed | later
      · exact (own id listed).1
      · exact fun given => unspent id later (drawn.given given)

/-- Steps of one program have different identifiers, if these are structural or if the supply
never repeats itself.  A new identifier has not been given out before and stays given out
afterwards; structural identifiers tell the kinds of the steps in their order and nothing
else. -/
theorem distinct_identifiers (workspace : Workspace) (options : CompileOptions) (ids : StepIds) :
    (options.idPolicy = .fresh → ids.NeverRepeats →
      (workspace.compile options ids).1.program.identifiers.Nodup ∧
        ∀ id ∈ (workspace.compile options ids).1.program.identifiers,
          ¬ ids.Given id ∧ (workspace.compile options ids).2.Given id) ∧
      (options.idPolicy = .structural →
        (workspace.compile options ids).1.program.identifiers.Nodup) ∧
      ((workspace.compile options ids).2.turn = ids.turn ∧
        ∀ id, ids.Given id → (workspace.compile options ids).2.Given id) ∧
      ∀ (other : Workspace) (otherOptions : CompileOptions) (otherIds : StepIds),
        options.idPolicy = .structural → otherOptions.idPolicy = .structural →
          ((workspace.compile options ids).1.program.identifiers =
              (other.compile otherOptions otherIds).1.program.identifiers ↔
            (workspace.compile options ids).1.program.kinds =
              (other.compile otherOptions otherIds).1.program.kinds) := by
  have drawn := workspace.drawn_compile options ids
  refine ⟨fun fresh neverRepeats => ?_, fun structural => ?_, ⟨drawn.turn, fun _ => drawn.given⟩,
    fun other _ otherIds structural otherStructural =>
      workspace.identifiers_structural_eq_iff other structural otherStructural ids otherIds⟩
  · have drawnSteps := workspace.drawn_compile_fresh fresh ids
    exact ⟨drawnSteps.nodup neverRepeats, drawnSteps.unspent neverRepeats⟩
  · rw [workspace.compile_structural structural]
    exact nodup_structuralSteps _

/-- Five pauses, four of them copied twice, have identifiers of their own, and none is one of
the two that were given out before.  Their structural identifiers are shared by any other two
pauses. -/
theorem distinct_identifiers_pausingFourTimes :
    (let compiled := (empty.after pausingFourTimes).compile {} (StepIds.counting.after 2)
     compiled.1.program.length = 5 ∧ compiled.1.program.identifiers.Nodup ∧
       ∀ id ∈ compiled.1.program.identifiers, ¬ (StepIds.counting.after 2).Given id) ∧
    ((empty.after pausingTwice).compile { idPolicy := .structural }
        .counting).1.program.identifiers =
      ((empty.after pausingFourTimes).compile { idPolicy := .structural, maxSteps := 1 }
        .counting).1.program.identifiers := by
  have distinct := (distinct_identifiers (empty.after pausingFourTimes) {}
    (StepIds.counting.after 2)).1 rfl StepIds.neverRepeats_counting
  refine ⟨⟨by decide +kernel, distinct.1, fun id listed => (distinct.2 id listed).1⟩, ?_⟩
  exact ((distinct_identifiers (empty.after pausingTwice) { idPolicy := .structural }
    .counting).2.2.2 (empty.after pausingFourTimes)
      { idPolicy := .structural, maxSteps := 1 } .counting rfl rfl).mpr (by decide +kernel)

end Workspace
end MotionBlocks
