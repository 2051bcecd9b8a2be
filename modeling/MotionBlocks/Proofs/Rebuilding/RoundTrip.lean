import MotionBlocks.Proofs.Rebuilding.Agreement
import MotionBlocks.Proofs.Unrolling.Correctness

namespace MotionBlocks

/-!
# A program that comes back

A rebuilt workspace has one start block and no loops.  Its chain is therefore
never cut, whatever the limits of a compilation are, and what comes back is what
its blocks stand for: the steps it was rebuilt from, except for the angles that
could not be shown.
-/

namespace Workspace

section

variable {workspace : Workspace} {root : BlockId} {identifiers : List BlockId}
  {motions : List Motion}

/-! ## Rebuilt workspaces -/

/-- The start block of a rebuilt workspace is the only one, and what follows it are the
blocks of the steps. -/
theorem Flat.firstStart (flat : workspace.Flat root identifiers motions) :
    ∃ block, workspace.FirstStart root block ∧
      workspace.Row root block.next identifiers motions := by
  rcases flat.started with ⟨next, found, row⟩
  refine ⟨_, ⟨found, rfl, rfl, fun other lower there isTop _ => .inl ?_⟩, row⟩
  have listed := (mem_tops_iff other).mpr ⟨by simp [there], (isTop_iff there).mp isTop⟩
  rwa [flat.tops_eq, List.mem_singleton] at listed

/-- Without loops a chain is compiled to its meaning, whatever the limits are. -/
theorem WellFormed.walk_means_of_no_loop (wellFormed : workspace.WellFormed)
    (noLoop : ∀ id block, workspace.block? id = some block → block.kind ≠ .loop)
    {options : CompileOptions} {start : Option BlockId} {state final : CompileState}
    {steps : List Step} (walk : workspace.Walk options start state steps final)
    (chain : workspace.Open start state.visited) :
    workspace.Means start (steps.map (·.motion)) := by
  refine wellFormed.walk_induction
    (motive := fun start _ steps _ => workspace.Means start (steps.map (·.motion)))
    (fun _ => .ends) ?beside ?loop walk chain
  case beside =>
    intro id block own rest state after final found beside means
    rw [List.map_append]
    exact .block found beside.contributes means
  case loop =>
    intro id block _ _ _ _ _ _ _ found loop
    exact absurd loop (noLoop id block found)

/-- No limit cuts anything in a workspace without loops. -/
theorem Flat.compile_motions (flat : workspace.Flat root identifiers motions)
    (options : CompileOptions) (ids : StepIds) :
    (workspace.compile options ids).1.program.motions = motions.map Motion.rebuilt := by
  rcases flat.firstStart with ⟨block, first, row⟩
  rcases first.walk options ids with ⟨noted, -, walk⟩
  have means := flat.wellFormed.walk_means_of_no_loop (fun _ _ => flat.kind_ne_loop) walk
    (flat.wellFormed.open_of_found first.found)
  rw [(workspace.compile_eq options ids).1]
  exact means.unique row.means

/-- What was in a workspace before a rebuild and how it is compiled afterwards has
no influence on what comes back. -/
theorem rebuild_motions (workspace : Workspace) (program : Program) (options : CompileOptions)
    (ids : StepIds) :
    (workspace.rebuild program).1 = .ok () ∧
      ((workspace.rebuild program).2.compile options ids).1.program.motions =
        program.motions.map Motion.rebuilt := by
  rcases workspace.rebuild_flat program with ⟨accepted, root, identifiers, flat⟩
  exact ⟨accepted, flat.compile_motions options ids⟩

/-- A program comes back if every one of its steps does. -/
theorem sameEffect_rebuild_iff (workspace : Workspace) (program : Program)
    (options : CompileOptions) (ids : StepIds) :
    ((workspace.rebuild program).2.compile options ids).1.program.sameEffect program = true ↔
      ∀ motion ∈ program.motions, (motion.rebuilt == motion) = true := by
  rw [Program.sameEffect, (workspace.rebuild_motions program options ids).2, Motion.map_beq_iff]

/-- A legal program comes back from a rebuild, whatever was in the workspace and
whatever the limits of the compilation are, if and only if the degrees of all its
rotations are numbers.  What comes back has the same length and kinds in any
case. -/
theorem compile_rebuild (commands : List Command) (options : CompileOptions) (ids : StepIds)
    (program : Program) (legal : program.fault? = none)
    (tidy : ∀ motion ∈ program.motions, motion.Tidy) :
    ((empty.after commands).rebuild program).1 = .ok () ∧
      (((empty.after commands).rebuild program).2.compile options ids).1.program.motions =
        program.motions.map Motion.rebuilt ∧
      ((((empty.after commands).rebuild program).2.compile options ids).1.program.sameEffect
        program = true ↔ ∀ motion ∈ program.motions, motion.Shown) := by
  rcases rebuild_motions (empty.after commands) program options ids with ⟨accepted, motions⟩
  refine ⟨accepted, motions, ?_⟩
  rw [sameEffect_rebuild_iff]
  refine forall₂_congr fun motion listed => ?_
  rcases List.mem_map.mp listed with ⟨step, inProgram, rfl⟩
  rcases List.mem_iff_getElem?.mp inProgram with ⟨index, indexed⟩
  have stepLegal := List.findSome?_eq_none_iff.mp legal (step, index)
    (by simp [List.mem_zipIdx_iff_getElem?, indexed])
  exact Motion.rebuilt_beq_iff stepLegal (tidy step.motion listed)

end

/-- A rotation by about one turn. -/
def oneTurn : Program where
  steps := [⟨"turn", .travelling .rotateX 2.0 6.25⟩]

/-- One turn comes back even where no loop may run and no copy may be made. -/
theorem compile_rebuild_oneTurn :
    (((empty.after pausingTwice).rebuild oneTurn).2.compile { maxRepeat := 0, maxSteps := 0 }
      .counting).1.program.sameEffect oneTurn = true := by
  have back := compile_rebuild pausingTwice { maxRepeat := 0, maxSteps := 0 } .counting oneTurn
    (by decide +kernel) (List.forall_mem_singleton.mpr rfl)
  refine back.2.2.mpr (List.forall_mem_singleton.mpr ?_)
  rintro - radians ⟨⟩
  decide +kernel

/-- A rotation whose degrees are too large for a double. -/
def hugeTurn : Program where
  steps := [⟨"turn", .travelling .rotateX 1.0 1.0e307⟩]

/-- A rotation that cannot be shown is legal and comes back as a quarter turn. -/
theorem hugeTurn_lost : hugeTurn.fault? = none ∧ (∀ motion ∈ hugeTurn.motions, motion.Tidy) ∧
    ((empty.rebuild hugeTurn).2.compile {} .counting).1.program.sameEffect hugeTurn = false :=
  ⟨by decide +kernel, List.forall_mem_singleton.mpr rfl, by decide +kernel⟩

end Workspace
end MotionBlocks
