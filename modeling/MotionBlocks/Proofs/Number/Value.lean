import Mathlib
import MotionBlocks.Number.Double

namespace MotionBlocks
namespace Number

open Float.Model

/-!
# The value of a double

A finite double stands for a rational number: its significand times a power of
two, with its sign.  The bits that the whole part is read from say the same, and
every finite double agrees with itself.
-/

/-- The rational number that a finite double stands for. -/
def value (number : Float) : ℚ :=
  match number.toModel.unpack with
  | .finite sign significand exponent _ => sign.apply 1 * significand * 2 ^ exponent
  | _ => 0

/-! ## Agreement of finite doubles -/

/-- Every double but the undefined one agrees with itself. -/
theorem beq_self_of_defined {number : Float} (defined : number.isNaN = false) :
    (number == number) = true := by
  rw [Float.isNaN_eq_decide_eq_nan, decide_eq_false_iff_not] at defined
  exact Float.beq_self_iff.mpr defined

theorem isNaN_of_isFinite {number : Float} (finite : number.isFinite = true) :
    number.isNaN = false := by
  rw [Float.isNaN_eq_decide_eq_nan, decide_eq_false_iff_not]
  rintro rfl
  cases finite

theorem beq_self {number : Float} (finite : number.isFinite = true) :
    (number == number) = true :=
  beq_self_of_defined (isNaN_of_isFinite finite)

/-- Doubles that agree are read alike, except that the two zeros agree. -/
theorem unpack_of_beq {first second : Float} (agree : (first == second) = true) :
    first.toModel.unpack = second.toModel.unpack ∨
      (∃ sign, first.toModel.unpack = .zero sign) ∧ ∃ sign, second.toModel.unpack = .zero sign := by
  rcases Float.beq_iff_ne_nan_and_eq.mp agree with ⟨-, -, same | ⟨rfl, rfl⟩ | ⟨rfl, rfl⟩⟩
  · exact Or.inl (congrArg (·.toModel.unpack) same)
  · exact Or.inr ⟨⟨.positive, rfl⟩, .negative, rfl⟩
  · exact Or.inr ⟨⟨.negative, rfl⟩, .positive, rfl⟩

theorem isFinite_congr {first second : Float} (agree : (first == second) = true) :
    first.isFinite = second.isFinite := by
  show first.toModel.unpack.isFinite = second.toModel.unpack.isFinite
  rcases unpack_of_beq agree with same | ⟨⟨sign, read⟩, other, otherRead⟩
  · rw [same]
  · rw [read, otherRead]
    rfl

/-! ## Reading the bits -/

section

variable (number : Float)

theorem toBits_eq : number.toBits = number.toModel.toBits := rfl

theorem unpackSign_eq (bits : BitVec 64) :
    @UnpackedFloat.unpackSign Format.binary64 bits = bits.extractLsb' 63 1 := rfl

theorem toNat_unpackMantissa :
    (@UnpackedFloat.unpackMantissa Format.binary64 number.toModel.toBits.toBitVec).toNat =
      magnitudeBits number % hiddenBit := by
  have bound := number.toModel.toBits.toNat_lt
  simp [UnpackedFloat.unpackMantissa, magnitudeBits, hiddenBit, signBit, toBits_eq]

theorem toNat_unpackExponent :
    (@UnpackedFloat.unpackExponent Format.binary64 number.toModel.toBits.toBitVec).toNat =
      magnitudeBits number / hiddenBit := by
  have bound := number.toModel.toBits.toNat_lt
  simp [UnpackedFloat.unpackExponent, magnitudeBits, hiddenBit, signBit, toBits_eq,
    Nat.shiftRight_eq_div_pow]
  omega

theorem unpackSign_eq_zero_iff :
    @UnpackedFloat.unpackSign Format.binary64 number.toModel.toBits.toBitVec = 0#1 ↔
      isNegative number = false := by
  have bound := number.toModel.toBits.toNat_lt
  have sign : isNegative number = false ↔ ¬ signBit ≤ number.toBits.toNat :=
    decide_eq_false_iff_not
  rw [sign]
  simp [unpackSign_eq, signBit, toBits_eq, ← BitVec.toNat_inj,
    Nat.shiftRight_eq_div_pow]
  omega

theorem apply_unpackSign :
    (UnpackedFloat.Sign.ofBitVec
      (@UnpackedFloat.unpackSign Format.binary64 number.toModel.toBits.toBitVec)).apply 1 =
      if isNegative number then -1 else 1 := by
  have sign := unpackSign_eq_zero_iff number
  unfold UnpackedFloat.Sign.ofBitVec
  cases negative : isNegative number <;> simp [sign, negative, UnpackedFloat.Sign.apply]

/-- A normal double has a leading bit that is not stored. -/
theorem toNat_significand :
    (1#1 ++ @UnpackedFloat.unpackMantissa Format.binary64 number.toModel.toBits.toBitVec).toNat =
      hiddenBit + magnitudeBits number % hiddenBit := by
  have bound :=
    (@UnpackedFloat.unpackMantissa Format.binary64 number.toModel.toBits.toBitVec).isLt
  rw [BitVec.toNat_append, ← Nat.shiftLeft_add_eq_or_of_lt bound, toNat_unpackMantissa]
  rfl

end

/-- A double is its sign and its magnitude. -/
theorem ofMagnitude_magnitudeBits (number : Float) :
    ofMagnitude (isNegative number) (magnitudeBits number) = number := by
  have bound : number.toBits.toNat < 2 * signBit := number.toBits.toNat_lt
  have joined : (if isNegative number then magnitudeBits number + signBit
      else magnitudeBits number) = number.toBits.toNat := by
    unfold isNegative magnitudeBits
    by_cases negative : signBit ≤ number.toBits.toNat
    · rw [decide_eq_true negative, if_pos rfl, Nat.mod_eq_sub_mod negative,
        Nat.mod_eq_of_lt (by omega), Nat.sub_add_cancel negative]
    · rw [decide_eq_false negative, if_neg (by decide), Nat.mod_eq_of_lt (by omega)]
  rw [ofMagnitude, joined, UInt64.ofNat_toNat, Float.ofBits_toBits]

theorem magnitudeBits_lt {number : Float} (finite : number.isFinite = true) :
    magnitudeBits number < infinityBits := by
  have finiteModel : number.toModel.unpack.isFinite = true := finite
  have exponent := toNat_unpackExponent number
  have width := (@UnpackedFloat.unpackExponent Format.binary64
    number.toModel.toBits.toBitVec).isLt
  unfold Float.Model.unpack UnpackedFloat.unpack at finiteModel
  dsimp only at finiteModel
  generalize number.toModel.toBits.toBitVec = bits at *
  by_cases special : @UnpackedFloat.unpackExponent Format.binary64 bits = -1#_
  · rw [if_pos special] at finiteModel
    split at finiteModel <;> cases finiteModel
  · have unequal : magnitudeBits number / hiddenBit ≠ 2047 := by
      intro top
      refine special (BitVec.toNat_inj.mp ?_)
      rw [exponent, top]
      rfl
    have below : magnitudeBits number / hiddenBit < 2047 := by
      have : magnitudeBits number / hiddenBit < 2048 := by
        rw [← exponent]
        exact width
      omega
    exact (Nat.div_lt_iff_lt_mul (by decide)).mp below

/-- The bits of a finite double count the smallest positive doubles in its
value. -/
theorem value_eq {number : Float} (finite : number.isFinite = true) :
    value number = (if isNegative number then -1 else 1) *
      (multiple (magnitudeBits number) / 2 ^ finestScale : ℚ) := by
  have finiteModel : number.toModel.unpack.isFinite = true := finite
  have significand := toNat_unpackMantissa number
  have exponent := toNat_unpackExponent number
  have leading := toNat_significand number
  have signed := apply_unpackSign number
  unfold value Float.Model.unpack at *
  generalize number.toModel.toBits.toBitVec = bits at *
  unfold UnpackedFloat.unpack at *
  dsimp only at *
  by_cases special : @UnpackedFloat.unpackExponent Format.binary64 bits = -1#_
  · rw [if_pos special] at finiteModel
    split at finiteModel <;> cases finiteModel
  · rw [if_neg special]
    by_cases subnormal : @UnpackedFloat.unpackExponent Format.binary64 bits = 0#_
    · have small : magnitudeBits number / hiddenBit = 0 := by
        rw [← exponent, subnormal]
        rfl
      have plain : multiple (magnitudeBits number) =
          (@UnpackedFloat.unpackMantissa Format.binary64 bits).toNat := by
        rw [multiple, if_pos small, significand]
        have := Nat.div_add_mod (magnitudeBits number) hiddenBit
        rw [small] at this
        omega
      rw [if_pos subnormal, plain]
      by_cases nothing : @UnpackedFloat.unpackMantissa Format.binary64 bits = 0#_
      · rw [dif_pos nothing, nothing]
        simp
      · have place : ((@UnpackedFloat.unpackExponent Format.binary64 bits).toNat : ℤ) -
            ((Format.binary64.exponentBias : ℤ) + ((52 : ℕ) : ℤ)) + 1 = -(finestScale : ℤ) := by
          rw [exponent, small]
          rfl
        rw [dif_neg nothing]
        dsimp only
        rw [signed, place, zpow_neg, zpow_natCast]
        push_cast
        ring
    · have unequal : magnitudeBits number / hiddenBit ≠ 0 := by
        intro zero
        refine subnormal (BitVec.toNat_inj.mp ?_)
        rw [exponent, zero]
        rfl
      rcases Nat.exists_eq_succ_of_ne_zero unequal with ⟨place, upper⟩
      have shifted : ((@UnpackedFloat.unpackExponent Format.binary64 bits).toNat : ℤ) -
          ((Format.binary64.exponentBias : ℤ) + ((52 : ℕ) : ℤ)) =
            (place : ℤ) - (finestScale : ℤ) := by
        rw [exponent, upper]
        have bias : Format.binary64.exponentBias = 1023 := rfl
        rw [bias, finestScale]
        push_cast
        ring
      rw [if_neg subnormal]
      dsimp only
      rw [signed, shifted, leading, zpow_sub₀ two_ne_zero, zpow_natCast, zpow_natCast, multiple,
        if_neg unequal, upper, Nat.succ_sub_one, Nat.shiftLeft_eq]
      push_cast
      ring

/-- The whole part is the greatest natural number that is not greater than the
number, or zero if the number is negative. -/
theorem wholePart_eq_floor {number : Float} (finite : number.isFinite = true) :
    wholePart number = ⌊max 0 (value number)⌋₊ := by
  have magnitude : (0 : ℚ) ≤ multiple (magnitudeBits number) / 2 ^ finestScale := by positivity
  rw [value_eq finite, wholePart]
  by_cases negative : isNegative number
  · have below : max 0 (-1 * (multiple (magnitudeBits number) / 2 ^ finestScale : ℚ)) = 0 :=
      max_eq_left (by linarith)
    simp only [negative, if_true, below, Nat.floor_zero]
  · have whole := Nat.floor_div_eq_div (K := ℚ) (multiple (magnitudeBits number)) (2 ^ finestScale)
    simp only [negative, Bool.false_eq_true, if_false, one_mul, max_eq_right magnitude,
      Nat.shiftRight_eq_div_pow]
    exact_mod_cast whole.symm

end Number
end MotionBlocks
