import MotionBlocks.Number.Angle
import MotionBlocks.Proofs.Number.Value

namespace MotionBlocks
namespace Number

open Float.Model

/-!
# Comparing and converting numbers

A finite number is either positive or not greater than zero; only an undefined one
escapes both.  Numbers that can be read from a literal are finite, but the radians
of a large number of degrees need not be, because degrees are multiplied before
they are divided.  Undefined they never are.
-/

/-! ## Comparing -/

/-- A finite number is positive if and only if it is not at most zero. -/
theorem not_le_zero_iff {number : Float} (finite : number.isFinite = true) :
    ¬ number ≤ 0.0 ↔ 0.0 < number := by
  have finiteModel : number.toModel.unpack.isFinite = true := finite
  have zero : (0.0 : Float).toModel.unpack = .zero .positive := rfl
  have atMost : number ≤ 0.0 ↔ number.toModel.unpack.le (0.0 : Float).toModel.unpack = true :=
    decide_eq_true_iff
  have above : 0.0 < number ↔ (0.0 : Float).toModel.unpack.lt number.toModel.unpack = true :=
    decide_eq_true_iff
  rw [atMost, above, zero]
  generalize number.toModel.unpack = unpacked at finiteModel ⊢
  cases unpacked with
  | infinity sign => cases finiteModel
  | notANumber => cases finiteModel
  | zero sign => exact iff_of_false (fun large => large rfl) Bool.false_ne_true
  | finite sign significand exponent positive =>
    cases sign with
    | positive => exact iff_of_true Bool.false_ne_true rfl
    | negative => exact iff_of_false (fun large => large rfl) Bool.false_ne_true

/-! ## Converting -/

/-- Rounding a finite number gives a number. -/
theorem roundWithAccuracy_ne (spec : Format) (sign : UnpackedFloat.Sign) (significand : Nat)
    (exponent : Int) (accuracy : UnpackedFloat.Accuracy) :
    UnpackedFloat.roundWithAccuracy spec sign significand exponent accuracy ≠ .notANumber := by
  unfold UnpackedFloat.roundWithAccuracy
  dsimp only
  split <;> simp

/-- Only the largest exponent marks an undefined number. -/
theorem unpack_ne {bits : BitVec Format.binary64.numBits}
    (ordinary : UnpackedFloat.unpackExponent bits ≠ -1#_ ∨
      UnpackedFloat.unpackMantissa bits = 0#_) :
    UnpackedFloat.unpack Format.binary64 bits ≠ .notANumber := by
  unfold UnpackedFloat.unpack
  dsimp only
  split
  · rename_i special
    rcases ordinary with ordinary | plain
    · exact absurd special ordinary
    · rw [if_pos plain]
      exact nofun
  · split
    · split <;> exact nofun
    · exact nofun

/-- A number is still a number when it is put into bits. -/
theorem unpack_pack_ne {number : UnpackedFloat} (defined : number ≠ .notANumber) :
    UnpackedFloat.unpack Format.binary64 (UnpackedFloat.pack Format.binary64 number) ≠
      .notANumber := by
  have infinite : ∀ sign, UnpackedFloat.unpack Format.binary64
      (UnpackedFloat.packedInfinity Format.binary64 sign) ≠ .notANumber := fun sign =>
    unpack_ne (Or.inr (by simp [UnpackedFloat.packedInfinity]))
  fun_cases UnpackedFloat.pack with
  | case1 => exact absurd rfl defined
  | case2 sign => exact infinite sign
  | case3 sign => exact unpack_ne (Or.inr (by simp [UnpackedFloat.packedZero]))
  | case4 sign significand exponent positive biased large => exact infinite sign
  | case5 sign significand exponent positive bits biased small normal =>
    refine unpack_ne (Or.inl ?_)
    rw [UnpackedFloat.unpackExponent_packComponents]
    intro special
    have exponents := congrArg BitVec.toNat special
    have bound : biased + 1 < 2 ^ Format.binary64.exponentBits := Nat.lt_of_not_le small
    have largest : (-1#_ : BitVec Format.binary64.exponentBits).toNat = 2047 := rfl
    have width : 2 ^ Format.binary64.exponentBits = 2048 := rfl
    rw [BitVec.toNat_ofNat, largest, width] at exponents
    omega
  | case6 sign significand exponent positive bits biased small subnormal =>
    refine unpack_ne (Or.inl ?_)
    rw [UnpackedFloat.unpackExponent_packComponents]
    decide

/-- Operations on numbers round a result and put it into bits. -/
theorem isNaN_pack {number : UnpackedFloat} (defined : number ≠ .notANumber) :
    (Float.ofModel (.pack number)).isNaN = false := by
  have unpacked : (Float.Model.pack number).unpack ≠ .notANumber := unpack_pack_ne defined
  show (Float.Model.pack number).unpack.isNaN = false
  cases read : (Float.Model.pack number).unpack with
  | notANumber => exact absurd read unpacked
  | _ => rfl

theorem mul_ne {first second : UnpackedFloat} (firstFinite : first.isFinite = true)
    (secondFinite : second.isFinite = true) :
    UnpackedFloat.mul Format.binary64 first second ≠ .notANumber := by
  cases first with
  | infinity sign => cases firstFinite
  | notANumber => cases firstFinite
  | zero sign =>
    cases second with
    | infinity sign => cases secondFinite
    | notANumber => cases secondFinite
    | zero other => simp [UnpackedFloat.mul]
    | finite other significand exponent positive => simp [UnpackedFloat.mul]
  | finite sign significand exponent positive =>
    cases second with
    | infinity sign => cases secondFinite
    | notANumber => cases secondFinite
    | zero other => simp [UnpackedFloat.mul]
    | finite other significand exponent positive => exact roundWithAccuracy_ne _ _ _ _ _

/-- Only a zero and an infinity can spoil a division. -/
theorem div_ne {first : UnpackedFloat} (defined : first ≠ .notANumber)
    (sign : UnpackedFloat.Sign) (significand : Nat) (exponent : Int)
    (positive : 0 < significand) :
    UnpackedFloat.div Format.binary64 first (.finite sign significand exponent positive) ≠
      .notANumber := by
  cases first with
  | infinity other => simp [UnpackedFloat.div]
  | notANumber => exact absurd rfl defined
  | zero other => simp [UnpackedFloat.div]
  | finite other dividend place dividendPositive => exact roundWithAccuracy_ne _ _ _ _ _

/-- Degrees that are finite have radians that are a number, though perhaps an
infinite one. -/
theorem isNaN_degreesToRadians {degrees : Float} (finite : degrees.isFinite = true) :
    (degreesToRadians degrees).isNaN = false := by
  have constant : circleConstant.isFinite = true := by decide +kernel
  have product : (degrees * circleConstant).toModel.unpack ≠ .notANumber :=
    unpack_pack_ne (mul_ne finite constant)
  have half : (180.0 : Float).toModel.unpack =
      .finite .positive (180 * 2 ^ 45) (-45) (by decide) := by
    rfl
  exact isNaN_pack (half ▸ div_ne product .positive (180 * 2 ^ 45) (-45) (by decide))

end Number
end MotionBlocks
