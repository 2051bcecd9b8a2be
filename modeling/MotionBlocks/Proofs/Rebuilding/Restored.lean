import MotionBlocks.Proofs.Rebuilding.RoundTrip

namespace MotionBlocks

/-!
# What comes back of any program

A program need not be legal to be rebuilt.  It may lack the parameters that its
steps read, carry others, and hold numbers that are not finite.  Each of these has
one outcome, which is written out here without the blocks in between.

The outcome has nothing left to repair.  A second rebuild therefore gives back
what the first one gave.
-/

namespace Number

/-- A number is the one that was given if that can be used, and otherwise a
default. -/
structure Restored (usable : Float → Prop) (default : Float) (given : Option Float)
    (back : Float) : Prop where
  kept : ∀ number, given = some number → usable number → back = number
  replaced : (∀ number, given = some number → ¬ usable number) → back = default

theorem restored_finiteOr (number default : Float) :
    Restored (·.isFinite) default (some number) (finiteOr number default) where
  kept := by
    rintro _ ⟨⟩ finite
    exact if_pos finite
  replaced unusable := if_neg (unusable number rfl)

/-- A number that is absent is replaced like one that is not finite. -/
theorem restored_getD (given : Option Float) (default : Float) :
    Restored (·.isFinite) default given (finiteOr (given.getD default) default) := by
  cases given with
  | none => exact ⟨nofun, fun _ => ite_self default⟩
  | some number => exact restored_finiteOr number default

theorem isFinite_finiteOr (number : Float) {default : Float} (finite : default.isFinite = true) :
    (finiteOr number default).isFinite = true := by
  unfold finiteOr
  split
  · assumption
  · exact finite

theorem finiteOr_finiteOr (number : Float) {default : Float} (finite : default.isFinite = true) :
    finiteOr (finiteOr number default) default = finiteOr number default :=
  if_pos (isFinite_finiteOr number finite)

end Number

namespace Motion

/-! ## One step -/

/-- Radians that a rotate block can show in degrees. -/
def Showable (radians : Float) : Prop :=
  radians.isFinite = true ∧ (Number.degreesFor radians).isFinite = true

/-- What a motion comes back as.  A parameter that its kind does not read is
dropped. -/
structure Restored (given back : Motion) : Prop where
  kind : back.kind = given.kind
  duration : Number.Restored (·.isFinite) 1.0 (some given.duration) back.duration
  move : given.kind.family = .move → back.scale = none ∧
    ∃ distance, back.distance = some distance ∧
      Number.Restored (·.isFinite) 1.0 given.distance distance
  rotate : given.kind.family = .rotate → back.scale = none ∧
    ∃ radians, back.distance = some radians ∧
      Number.Restored Showable (Number.degreesToRadians 90.0) given.distance radians
  scale : given.kind.family = .scale → back.distance = none ∧
    ∃ scale, back.scale = some scale ∧ Number.Restored (·.isFinite) 1.5 given.scale scale
  pause : given.kind.family = .pause → back.distance = none ∧ back.scale = none

theorem showable_rebuiltRadians (radians : Float) : Showable (rebuiltRadians radians) := by
  unfold rebuiltRadians
  split
  · rename_i shown
    exact ⟨Number.isFinite_of_degreesFor shown, shown⟩
  · constructor <;> decide +kernel

theorem rebuiltRadians_of_showable {radians : Float} (showable : Showable radians) :
    rebuiltRadians radians = radians :=
  if_pos showable.2

/-- The angle that a rotation without one comes back with can be shown itself. -/
theorem showable_default : Showable (Number.degreesToRadians Defaults.angleDegrees) := by
  constructor <;> decide +kernel

/-- An absent angle is replaced like one that cannot be shown. -/
theorem restored_radians (given : Option Float) :
    Number.Restored Showable (Number.degreesToRadians 90.0) given
      ((given.map rebuiltRadians).getD (Number.degreesToRadians Defaults.angleDegrees)) := by
  cases given with
  | none => exact ⟨nofun, fun _ => rfl⟩
  | some radians =>
    refine ⟨?_, fun unusable => ?_⟩
    · rintro _ ⟨⟩ showable
      exact rebuiltRadians_of_showable showable
    · exact if_neg fun shown => unusable radians rfl ⟨Number.isFinite_of_degreesFor shown, shown⟩

section

variable (motion : Motion)

theorem restored_rebuilt : motion.Restored motion.rebuilt := by
  have duration := Number.restored_finiteOr motion.duration Defaults.duration
  unfold rebuilt
  cases family : motion.kind.family with
  | move =>
    exact ⟨rfl, duration, fun _ => ⟨rfl, _, rfl, Number.restored_getD _ _⟩, by simp [family],
      by simp [family], by simp [family]⟩
  | rotate =>
    exact ⟨rfl, duration, by simp [family], fun _ => ⟨rfl, _, rfl, restored_radians _⟩,
      by simp [family], by simp [family]⟩
  | scale =>
    exact ⟨rfl, duration, by simp [family], by simp [family],
      fun _ => ⟨rfl, _, rfl, Number.restored_getD _ _⟩, by simp [family]⟩
  | pause =>
    have isPause := motion.kind.family_eq_pause_iff.mp family
    exact ⟨isPause.symm, duration, by simp [family], by simp [family], by simp [family],
      fun _ => ⟨rfl, rfl⟩⟩

/-! ## A second rebuild -/

/-- A motion that came back comes back as it is. -/
theorem rebuilt_rebuilt : motion.rebuilt.rebuilt = motion.rebuilt := by
  have duration := Number.finiteOr_finiteOr motion.duration
    (Defaults.all_finite Defaults.duration (by simp))
  unfold rebuilt
  cases family : motion.kind.family with
  | move =>
    simp [travelling, family, duration, Number.finiteOr_finiteOr _
      (Defaults.all_finite Defaults.distance (by simp))]
  | rotate =>
    cases motion.distance with
    | none => simp [travelling, family, duration, rebuiltRadians_of_showable showable_default]
    | some radians =>
      simp [travelling, family, duration,
        rebuiltRadians_of_showable (showable_rebuiltRadians radians)]
  | scale =>
    simp [scaling, family, duration, Number.finiteOr_finiteOr _
      (Defaults.all_finite Defaults.scale (by simp))]
  | pause => simp [pausing, StepKind.family, duration]

/-- A motion that came back has no undefined number, so it agrees with itself. -/
theorem rebuilt_beq_rebuilt : (motion.rebuilt == motion.rebuilt) = true := by
  have duration := Number.beq_self (Number.isFinite_finiteOr motion.duration
    (Defaults.all_finite Defaults.duration (by simp)))
  rw [beq_iff]
  unfold rebuilt
  cases family : motion.kind.family with
  | move =>
    simp [travelling, duration, Number.beq_self (Number.isFinite_finiteOr _
      (Defaults.all_finite Defaults.distance (by simp)))]
  | rotate =>
    cases motion.distance with
    | none => simp [travelling, duration, Number.beq_self showable_default.1]
    | some radians =>
      simp [travelling, duration, Number.beq_self (showable_rebuiltRadians radians).1]
  | scale =>
    simp [scaling, duration, Number.beq_self (Number.isFinite_finiteOr _
      (Defaults.all_finite Defaults.scale (by simp)))]
  | pause => simp [pausing, duration]

end

theorem forall₂_restored (motions : List Motion) :
    List.Forall₂ Restored motions (motions.map rebuilt) := by
  induction motions with
  | nil => exact .nil
  | cons motion motions ih => exact .cons motion.restored_rebuilt ih

end Motion

namespace Workspace

/-! ## Whole programs -/

/-- The program that comes back when a workspace is rebuilt from a program and
compiled. -/
def cameBack (workspace : Workspace) (options : CompileOptions) (ids : StepIds)
    (program : Program) : Program :=
  ((workspace.rebuild program).2.compile options ids).1.program

theorem motions_cameBack (workspace : Workspace) (options : CompileOptions) (ids : StepIds)
    (program : Program) :
    (workspace.cameBack options ids program).motions = program.motions.map Motion.rebuilt :=
  (workspace.rebuild_motions program options ids).2

/-- A program comes back step by step as its motions are restored, whatever was in
the workspace and whatever the settings of the compilation are.  What came back
then comes back as it is from every other workspace, and the two agree as programs
are compared. -/
theorem restored_cameBack (workspace other : Workspace) (options otherOptions : CompileOptions)
    (ids otherIds : StepIds) (program : Program) :
    (workspace.rebuild program).1 = .ok () ∧
      List.Forall₂ Motion.Restored program.motions
        (workspace.cameBack options ids program).motions ∧
      (other.cameBack otherOptions otherIds (workspace.cameBack options ids program)).motions =
        (workspace.cameBack options ids program).motions ∧
      (other.cameBack otherOptions otherIds (workspace.cameBack options ids program)).sameEffect
        (workspace.cameBack options ids program) = true := by
  have settled : ∀ motion ∈ (workspace.cameBack options ids program).motions,
      motion.rebuilt = motion ∧ (motion.rebuilt == motion) = true := by
    intro motion listed
    rw [motions_cameBack, List.mem_map] at listed
    rcases listed with ⟨given, -, rfl⟩
    rw [given.rebuilt_rebuilt]
    exact ⟨rfl, given.rebuilt_beq_rebuilt⟩
  refine ⟨(workspace.rebuild_motions program options ids).1, ?_, ?_, ?_⟩
  · rw [motions_cameBack]
    exact Motion.forall₂_restored program.motions
  · rw [motions_cameBack other]
    exact (List.map_congr_left fun motion listed => (settled motion listed).1).trans (List.map_id _)
  · rw [Program.sameEffect, motions_cameBack other, Motion.map_beq_iff]
    exact fun motion listed => (settled motion listed).2

end Workspace
end MotionBlocks
