import MotionBlocks.Proofs.Rebuilding.Steps

namespace MotionBlocks

/-!
# Steps that agree with what comes back of them

Steps are compared as numbers are, so the comparison is no equality: an undefined
number agrees with nothing, and the two zeros agree.  Whether a step comes back
does not depend on such differences.
-/

namespace Number

theorem finiteOr_beq {first second default : Float} (agree : (first == second) = true)
    (finite : default.isFinite = true) (back : (finiteOr second default == second) = true) :
    (finiteOr first default == second) = true := by
  by_cases isFinite : second.isFinite = true
  · rwa [finiteOr, if_pos ((isFinite_congr agree).trans isFinite)]
  · rw [finiteOr, if_neg isFinite] at back
    exact absurd ((isFinite_congr back).symm.trans finite) isFinite

end Number

namespace Motion

theorem beq_iff (first second : Motion) : (first == second) = true ↔
    first.kind = second.kind ∧ (first.duration == second.duration) = true ∧
      (first.distance == second.distance) = true ∧ (first.scale == second.scale) = true := by
  show instBEqMotion.beq first second = true ↔ _
  simp [instBEqMotion.beq]

/-! ## Which radians come back -/

/-- Radians come back if and only if the degrees shown for them are a number. -/
theorem rebuiltRadians_beq_iff {radians : Float} :
    (rebuiltRadians radians == radians) = true ↔ (Number.degreesFor radians).isFinite = true := by
  unfold rebuiltRadians
  split
  · rename_i shown
    simp [Number.beq_self (Number.isFinite_of_degreesFor shown), shown]
  · rename_i hidden
    refine iff_of_false (fun agree => hidden ?_) hidden
    rw [← Number.isFinite_degreesFor_congr agree]
    decide +kernel

theorem rebuiltRadians_beq {first second : Float} (agree : (first == second) = true)
    (back : (rebuiltRadians second == second) = true) :
    (rebuiltRadians first == second) = true := by
  have shown := rebuiltRadians_beq_iff.mp back
  rw [← Number.isFinite_degreesFor_congr agree] at shown
  rwa [rebuiltRadians, if_pos shown]

/-! ## Which steps come back -/

section

variable {first second motion : Motion}

/-- Optional numbers agree if both are absent or if they agree as numbers. -/
theorem some_of_beq {first second : Option Float} {number : Float}
    (agree : (first == second) = true) (back : (some number == second) = true) :
    ∃ upper lower, first = some upper ∧ second = some lower ∧ (upper == lower) = true ∧
      (number == lower) = true := by
  cases second with
  | none => simp at back
  | some lower =>
    cases first with
    | none => simp at agree
    | some upper => exact ⟨upper, lower, rfl, rfl, agree, back⟩

/-- A step comes back if one that agrees with it does. -/
theorem rebuilt_beq (agree : (first == second) = true) (back : (second.rebuilt == second) = true) :
    (first.rebuilt == second) = true := by
  rcases first with ⟨kind, duration, distance, scale⟩
  rcases (beq_iff _ _).mp agree with ⟨sameKind, durations, distances, scales⟩
  simp only at sameKind durations distances scales
  subst sameKind
  have durationFinite := Defaults.all_finite Defaults.duration (by simp)
  rw [beq_iff] at back ⊢
  unfold rebuilt at back ⊢
  cases family : second.kind.family with
  | move =>
    simp only [family, travelling] at back ⊢
    rcases some_of_beq distances back.2.2.1 with ⟨upper, lower, rfl, given, agrees, kept⟩
    rw [given, Option.getD_some] at kept
    refine ⟨trivial, Number.finiteOr_beq durations durationFinite back.2.1, ?_, back.2.2.2⟩
    rw [given, Option.getD_some]
    exact Number.finiteOr_beq agrees (Defaults.all_finite Defaults.distance (by simp)) kept
  | rotate =>
    simp only [family, travelling] at back ⊢
    rcases some_of_beq distances back.2.2.1 with ⟨upper, lower, rfl, given, agrees, kept⟩
    rw [given, Option.map_some, Option.getD_some] at kept
    refine ⟨trivial, Number.finiteOr_beq durations durationFinite back.2.1, ?_, back.2.2.2⟩
    rw [given, Option.map_some, Option.getD_some]
    exact rebuiltRadians_beq agrees kept
  | scale =>
    simp only [family, scaling] at back ⊢
    rcases some_of_beq scales back.2.2.2 with ⟨upper, lower, rfl, given, agrees, kept⟩
    rw [given, Option.getD_some] at kept
    refine ⟨trivial, Number.finiteOr_beq durations durationFinite back.2.1, back.2.2.1, ?_⟩
    rw [given, Option.getD_some]
    exact Number.finiteOr_beq agrees (Defaults.all_finite Defaults.scale (by simp)) kept
  | pause =>
    simp only [family, pausing] at back ⊢
    exact ⟨back.1, Number.finiteOr_beq durations durationFinite back.2.1, back.2.2⟩

end

/-! ## Legal steps -/

/-- A motion carries no parameter that its kind does not read. -/
def Tidy (motion : Motion) : Prop :=
  match motion.kind.family with
  | .move | .rotate => motion.scale = none
  | .scale => motion.distance = none
  | .pause => motion.distance = none ∧ motion.scale = none

/-- The degrees shown for a rotation are a number. -/
def Shown (motion : Motion) : Prop :=
  motion.kind.family = .rotate →
    ∀ radians ∈ motion.distance, (Number.degreesFor radians).isFinite = true

/-- In a legal motion the duration and the parameter that its kind reads are
finite numbers. -/
theorem finite_of_legal {motion : Motion} {index : Nat} (legal : motion.fault? index = none) :
    motion.duration.isFinite = true ∧
      ∀ parameter given, motion.required = some (parameter, given) →
        ∃ number, given = some number ∧ number.isFinite = true := by
  unfold fault? at legal
  split at legal
  · simp at legal
  · rename_i finite
    refine ⟨by simpa using finite, fun parameter given required => ?_⟩
    split at legal
    · simp at legal
    · rw [required] at legal
      cases given with
      | none => simp at legal
      | some number => exact ⟨number, rfl, by simpa using legal⟩

/-- A legal motion without a parameter that its kind does not read comes back
unless it is a rotation that could not be shown. -/
theorem rebuilt_beq_iff {motion : Motion} {index : Nat} (legal : motion.fault? index = none)
    (tidy : motion.Tidy) : (motion.rebuilt == motion) = true ↔ motion.Shown := by
  rcases finite_of_legal legal with ⟨durationFinite, required⟩
  rcases motion with ⟨kind, duration, distance, scale⟩
  have kept : ∀ {number default : Float}, number.isFinite = true →
      (Number.finiteOr number default == number) = true := by
    intro number default finite
    rw [Number.finiteOr, if_pos finite]
    exact Number.beq_self finite
  rw [beq_iff]
  unfold Tidy at tidy
  unfold Shown rebuilt
  cases family : kind.family with
  | move =>
    rcases required .distance distance (by simp [Motion.required, family]) with
      ⟨number, rfl, finite⟩
    simp only [family] at tidy
    simp [travelling, tidy, kept durationFinite, kept finite]
  | rotate =>
    rcases required .distance distance (by simp [Motion.required, family]) with
      ⟨number, rfl, finite⟩
    simp only [family] at tidy
    simp [travelling, tidy, kept durationFinite, rebuiltRadians_beq_iff]
  | scale =>
    rcases required .scale scale (by simp [Motion.required, family]) with ⟨number, rfl, finite⟩
    simp only [family] at tidy
    simp [scaling, tidy, kept durationFinite, kept finite]
  | pause =>
    simp only [family] at tidy
    simp [pausing, tidy, kept durationFinite, kind.family_eq_pause_iff.mp family]

/-! ## Whole programs -/

theorem map_beq_iff (change : Motion → Motion) (motions : List Motion) :
    (motions.map change == motions) = true ↔
      ∀ motion ∈ motions, (change motion == motion) = true := by
  induction motions with
  | nil => simp
  | cons motion motions ih => simp [ih]

end Motion
end MotionBlocks
