import MotionBlocks.Compile.Motion
import MotionBlocks.Proofs.Number.Value

namespace MotionBlocks
namespace Number

open Float.Model

/-!
# Angles that are read alike

The degrees shown for an angle depend on nothing but the number that the angle
is read as.  An angle that agrees with the radians of some degrees can therefore
be replaced by them.
-/

section

variable {first second : Float}

theorem beq_congr (same : first.toModel.unpack = second.toModel.unpack) (other : Float) :
    (other == first) = (other == second) := by
  show (other.toModel.unpack.compare first.toModel.unpack == some .eq) =
    (other.toModel.unpack.compare second.toModel.unpack == some .eq)
  rw [same]

theorem radiansToDegrees_congr (same : first.toModel.unpack = second.toModel.unpack) :
    radiansToDegrees first = radiansToDegrees second := by
  have product : first * 180.0 = second * 180.0 := by
    show Float.ofModel (.pack (UnpackedFloat.mul _ first.toModel.unpack _)) = _
    rw [same]
    rfl
  rw [radiansToDegrees, product, radiansToDegrees]

theorem exactDegrees?_congr (same : first.toModel.unpack = second.toModel.unpack)
    (below above : Float) (tries : Nat) :
    exactDegrees? first below above tries = exactDegrees? second below above tries := by
  induction tries generalizing below above with
  | zero => rfl
  | succ tries ih => simp only [exactDegrees?, beq_congr same, ih]

theorem degreesFor_congr (same : first.toModel.unpack = second.toModel.unpack) :
    degreesFor first = degreesFor second := by
  simp only [degreesFor, radiansToDegrees_congr same, exactDegrees?_congr same]

/-- Only an angle that is a number itself is shown in degrees that are a number. -/
theorem isFinite_of_degreesFor {radians : Float} (shown : (degreesFor radians).isFinite = true) :
    radians.isFinite = true := by
  show radians.toModel.unpack.isFinite = true
  cases read : radians.toModel.unpack with
  | zero sign => rfl
  | finite sign significand exponent positive => rfl
  | notANumber =>
    have undefined : (0.0 / 0.0 : Float).toModel.unpack = .notANumber := rfl
    rw [degreesFor_congr (read.trans undefined.symm)] at shown
    exact absurd shown (by decide +kernel)
  | infinity sign =>
    cases sign with
    | positive =>
      have infinite : (1.0 / 0.0 : Float).toModel.unpack = .infinity .positive := rfl
      rw [degreesFor_congr (read.trans infinite.symm)] at shown
      exact absurd shown (by decide +kernel)
    | negative =>
      have infinite : (-1.0 / 0.0 : Float).toModel.unpack = .infinity .negative := rfl
      rw [degreesFor_congr (read.trans infinite.symm)] at shown
      exact absurd shown (by decide +kernel)

/-- Angles that agree are shown alike or not at all. -/
theorem isFinite_degreesFor_congr (agree : (first == second) = true) :
    (degreesFor first).isFinite = (degreesFor second).isFinite := by
  have shown : ∀ {number : Float} {sign}, number.toModel.unpack = .zero sign →
      (degreesFor number).isFinite = true := by
    intro number sign read
    cases sign with
    | positive =>
      have zero : (0.0 : Float).toModel.unpack = .zero .positive := rfl
      rw [degreesFor_congr (read.trans zero.symm)]
      decide +kernel
    | negative =>
      have zero : (-0.0 : Float).toModel.unpack = .zero .negative := rfl
      rw [degreesFor_congr (read.trans zero.symm)]
      decide +kernel
  rcases unpack_of_beq agree with same | ⟨⟨sign, read⟩, other, otherRead⟩
  · rw [degreesFor_congr same]
  · rw [shown read, shown otherRead]

end

end Number
end MotionBlocks
