import MotionBlocks.Program.Legal
import MotionBlocks.Proofs.Number.Angle
import MotionBlocks.Proofs.Rebuilding.Layout

namespace MotionBlocks

/-!
# Steps that come back

The block of a step stands for the step again, except that a literal without a
finite number is read as a default.  A legal step can only lose something in one
way: the angle of a rotation is shown in degrees, degrees are larger numbers than
radians, and an angle whose degrees are too large for a double leaves a literal
without a number.  Such a rotation comes back with the default angle, although
its own angle is kept beside it.
-/

/-- Pauses are the only steps without a parameter. -/
theorem StepKind.family_eq_pause_iff (kind : StepKind) : kind.family = .pause ↔ kind = .pause := by
  cases kind <;> simp [StepKind.family]

/-- The number that a literal is read as: itself if it is finite, else a
default. -/
def Number.finiteOr (number default : Float) : Float :=
  if number.isFinite then number else default

namespace Motion

/-- The radians that come back of a rotation.  They are lost together with the
degrees shown for them. -/
def rebuiltRadians (radians : Float) : Float :=
  if (Number.degreesFor radians).isFinite then radians
  else Number.degreesToRadians Defaults.angleDegrees

/-- The motion that comes back from the block of a motion. -/
def rebuilt (motion : Motion) : Motion :=
  let duration := Number.finiteOr motion.duration Defaults.duration
  match motion.kind.family with
  | .move =>
    .travelling motion.kind duration
      (Number.finiteOr (motion.distance.getD Defaults.distance) Defaults.distance)
  | .rotate =>
    .travelling motion.kind duration
      ((motion.distance.map rebuiltRadians).getD (Number.degreesToRadians Defaults.angleDegrees))
  | .scale =>
    .scaling motion.kind duration
      (Number.finiteOr (motion.scale.getD Defaults.scale) Defaults.scale)
  | .pause => .pausing duration

end Motion

namespace Workspace

section

variable {workspace : Workspace} {id : BlockId} {block : Block}

/-! ## Numbers in slots -/

theorem Fills.literal?_eq {numbers : Table Float} (fills : workspace.Fills id block.slots numbers)
    {slot : String} {number : Float} (given : numbers.get? slot = some number) :
    workspace.literal? block slot = (some number).filter Float.isFinite := by
  rcases fills.held given with ⟨child, held, found⟩
  simp [literal?, held, found, Block.literal, Block.ofKind, Table.get?_put,
    FieldValue.asFiniteNumber?]

/-- A literal that holds no finite number is read as a default. -/
theorem Fills.numberIn_eq {numbers : Table Float}
    (fills : workspace.Fills id block.slots numbers) {slot : String} {number : Float}
    (given : numbers.get? slot = some number) (default : Float) :
    workspace.numberIn block slot default = Number.finiteOr number default := by
  rw [numberIn, fills.literal?_eq given, Number.finiteOr]
  by_cases finite : number.isFinite = true
  · simp [Option.filter, finite]
  · simp [Option.filter, finite]

end

end Workspace

/-- The block of a motion names the kind of the step in the field that decides it. -/
theorem Block.names_of_fields {block : Block} {motion : Motion} {field : String}
    {family : StepFamily} (fields : block.fields = motion.fields)
    (choice : motion.kind.family.blockKind.choice? = some (field, family)) :
    block.Names field family motion.kind := by
  unfold Block.Names
  rw [fields, Motion.fields]
  cases member : motion.kind.family with
  | move | scale =>
    rw [member] at choice
    rcases Option.some.inj choice with ⟨⟩
    simp [Table.get?_put]
  | rotate =>
    rw [member] at choice
    rcases Option.some.inj choice with ⟨⟩
    cases motion.distance <;> simp [Table.get?_put, FieldName.axis, FieldName.radians]
  | pause =>
    rw [member] at choice
    cases choice

namespace Workspace

section

variable {workspace : Workspace} {id : BlockId} {block : Block}

/-! ## Rotations -/

/-- An exact angle counts if the degrees shown for it are a number. -/
theorem Contributes.of_angle {block : Block} {kind : StepKind} {radians : Float}
    (isRotate : block.kind = .rotate) (names : block.Names FieldName.axis .rotate kind)
    (kept : block.fields.get? FieldName.radians = some (.number radians))
    (degrees : workspace.numberIn block SlotName.angle Defaults.angleDegrees =
      Number.finiteOr (Number.degreesFor radians) Defaults.angleDegrees) :
    workspace.Contributes block
      [.travelling kind (workspace.numberIn block SlotName.duration Defaults.duration)
        (Motion.rebuiltRadians radians)] := by
  have exactly : ∀ other, block.ExactAngle other → other = radians := by
    intro other otherExactly
    simp only [Block.ExactAngle, kept, Option.bind_some, FieldValue.asFiniteNumber?,
      Option.filter_eq_some_iff] at otherExactly
    exact (Option.some.inj otherExactly.1).symm
  by_cases shown : (Number.degreesFor radians).isFinite = true
  · rw [Number.finiteOr, if_pos shown] at degrees
    rw [Motion.rebuiltRadians, if_pos shown]
    refine .rotateExactly isRotate names ?_ (by rw [degrees]; exact Number.beq_self shown)
    simp [Block.ExactAngle, kept, FieldValue.asFiniteNumber?, Number.isFinite_of_degreesFor shown]
  · rw [Number.finiteOr, if_neg shown] at degrees
    rw [Motion.rebuiltRadians, if_neg shown]
    have inexact : ∀ other, block.ExactAngle other → (Number.degreesFor other ==
        workspace.numberIn block SlotName.angle Defaults.angleDegrees) = false := by
      intro other otherExactly
      rw [exactly other otherExactly, degrees]
      exact Bool.eq_false_iff.mpr fun same =>
        shown ((Number.isFinite_congr same).trans (by decide +kernel))
    have stands : workspace.Contributes block _ := .rotate isRotate names inexact
    rw [degrees] at stands
    exact stands

/-- A rotate block stands for the angle that is kept in it, if the degrees in its slot are
those of that angle. -/
theorem Contributes.of_rotation {motion : Motion} (family : motion.kind.family = .rotate)
    (isRotate : block.kind = .rotate) (fields : block.fields = motion.fields)
    (fills : workspace.Fills id block.slots motion.numbers) :
    workspace.Contributes block [motion.rebuilt] := by
  have names : block.Names FieldName.axis .rotate motion.kind :=
    Block.names_of_fields fields (by rw [family]; rfl)
  have duration := fills.numberIn_eq motion.get?_numbers_duration Defaults.duration
  have degrees := fills.numberIn_eq (Motion.get?_numbers_measure (Motion.measure?_rotate family))
    Defaults.angleDegrees
  cases given : motion.distance with
  | none =>
    rw [given, Option.map_none, Option.getD_none, Number.finiteOr, ite_self] at degrees
    have stands : workspace.Contributes block _ := .rotate isRotate names (by
      simp [Block.ExactAngle, fields, Motion.fields, family, given, Table.get?_put,
        FieldName.axis, FieldName.radians])
    rw [duration, degrees] at stands
    simp only [Motion.rebuilt, family, given]
    exact stands
  | some radians =>
    rw [given, Option.map_some, Option.getD_some] at degrees
    have stands := Contributes.of_angle isRotate names
      (by simp [fields, Motion.fields, family, given, Table.get?_put]) degrees
    rw [duration] at stands
    simp only [Motion.rebuilt, family, given]
    exact stands

/-! ## All steps -/

/-- The block of a step stands for what comes back of it. -/
theorem Contributes.of_motion {motion : Motion} (kind : block.kind = motion.kind.family.blockKind)
    (fields : block.fields = motion.fields)
    (fills : workspace.Fills id block.slots motion.numbers) :
    workspace.Contributes block [motion.rebuilt] := by
  have names : ∀ field family, _ → block.Names field family motion.kind :=
    fun _ _ => Block.names_of_fields fields
  have duration := fills.numberIn_eq motion.get?_numbers_duration Defaults.duration
  cases family : motion.kind.family with
  | move =>
    rw [family] at kind names
    have stands : workspace.Contributes block _ := .move kind (names _ _ rfl)
    have measured := Motion.get?_numbers_measure (Motion.measure?_move family)
    rw [duration, fills.numberIn_eq measured] at stands
    simp only [Motion.rebuilt, family]
    exact stands
  | rotate =>
    rw [family] at kind
    exact .of_rotation family kind fields fills
  | scale =>
    rw [family] at kind names
    have stands : workspace.Contributes block _ := .scale kind (names _ _ rfl)
    have measured := Motion.get?_numbers_measure (Motion.measure?_scale family)
    rw [duration, fills.numberIn_eq measured] at stands
    simp only [Motion.rebuilt, family]
    exact stands
  | pause =>
    rw [family] at kind
    have stands : workspace.Contributes block _ := .pause kind
    rw [duration] at stands
    simp only [Motion.rebuilt, family]
    exact stands

/-- A row of blocks means what comes back of its steps. -/
theorem Row.means {above : BlockId} {start : Option BlockId} {ids : List BlockId}
    {motions : List Motion} (row : workspace.Row above start ids motions) :
    workspace.Means start (motions.map Motion.rebuilt) := by
  induction row with
  | ends => exact .ends
  | block found fills _ ih => exact .block found (.of_motion rfl rfl fills) ih

end

end Workspace
end MotionBlocks
