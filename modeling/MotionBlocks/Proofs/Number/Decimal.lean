import Mathlib
import MotionBlocks.Number.Decimal

namespace MotionBlocks
namespace Number

/-!
# What a decimal stands for

The double of a decimal depends on the value of the decimal alone.  A coefficient
may give up zeros to the exponent or take some from it, and the powers of ten that
are never formed, because the number is too large or too small for them, would have
led to the same double.
-/

/-! ## Quotients -/

/-- A quotient is rounded as it is in lowest terms. -/
theorem roundHalfEven_mul_mul (dividend divisor : Nat) {factor : Nat} (positive : 0 < factor) :
    roundHalfEven (dividend * factor) (divisor * factor) = roundHalfEven dividend divisor := by
  have rest : 2 * (dividend % divisor * factor) = 2 * (dividend % divisor) * factor :=
    (Nat.mul_assoc _ _ _).symm
  simp only [roundHalfEven, Nat.mul_div_mul_right _ _ positive, Nat.mul_mod_mul_right, rest,
    Nat.mul_lt_mul_right positive, Nat.mul_right_cancel_iff positive]

theorem nearestBits_mul_mul (dividend divisor : Nat) {factor : Nat} (positive : 0 < factor) :
    nearestBits (dividend * factor) (divisor * factor) = nearestBits dividend divisor := by
  have moved : ∀ number places, (number * factor) <<< places = number <<< places * factor := by
    intro number places
    rw [Nat.shiftLeft_eq, Nat.shiftLeft_eq, Nat.mul_right_comm]
  simp only [nearestBits, moved, Nat.mul_div_mul_right _ _ positive,
    roundHalfEven_mul_mul _ _ positive]

/-- Equal quotients have the same nearest double. -/
theorem nearestBits_congr {dividend divisor otherDividend otherDivisor : Nat}
    (positive : 0 < divisor) (otherPositive : 0 < otherDivisor)
    (same : dividend * otherDivisor = otherDividend * divisor) :
    nearestBits dividend divisor = nearestBits otherDividend otherDivisor := by
  rw [← nearestBits_mul_mul dividend divisor otherPositive, same, Nat.mul_comm divisor,
    nearestBits_mul_mul otherDividend otherDivisor positive]

/-- Less than half of the smallest positive double is nearest to zero. -/
theorem nearestBits_of_small {dividend divisor : Nat}
    (small : 2 * (dividend <<< finestScale) < divisor) : nearestBits dividend divisor = 0 := by
  have below : dividend <<< finestScale < divisor := by omega
  simp [nearestBits, Nat.div_eq_of_lt below, roundHalfEven, Nat.mod_eq_of_lt below, small]

/-- From `2 ^ 1025` on, the nearest double is infinite. -/
theorem nearestBits_of_large {dividend divisor places : Nat} (positive : 0 < divisor)
    (many : 1025 ≤ places) (large : divisor * 2 ^ places ≤ dividend) :
    nearestBits dividend divisor = infinityBits := by
  have scaled : 2 ^ (places + finestScale) ≤ dividend <<< finestScale / divisor := by
    rw [Nat.le_div_iff_mul_le positive, Nat.shiftLeft_eq, Nat.pow_add, Nat.mul_right_comm]
    exact Nat.mul_le_mul_right _ (by rwa [Nat.mul_comm])
  have nonzero : dividend <<< finestScale / divisor ≠ 0 :=
    Nat.ne_of_gt (Nat.lt_of_lt_of_le (Nat.two_pow_pos _) scaled)
  have beyond : 2047 ≤ (dividend <<< finestScale / divisor).log2 - 52 := by
    have length := (Nat.le_log2 nonzero).mpr scaled
    rw [finestScale] at length ⊢
    omega
  exact Nat.min_eq_left (Nat.le_add_left_of_le (Nat.mul_le_mul_right hiddenBit beyond))

namespace Decimal

/-! ## Decimals as quotients -/

def dividend (decimal : Decimal) : Nat :=
  decimal.coefficient * 10 ^ decimal.exponent.toNat

def divisor (decimal : Decimal) : Nat :=
  10 ^ (-decimal.exponent).toNat

theorem divisor_pos (decimal : Decimal) : 0 < decimal.divisor :=
  Nat.pow_pos (by decide)

/-- The cases that keep powers of ten small make no difference. -/
theorem bits_eq (decimal : Decimal) :
    decimal.bits = nearestBits decimal.dividend decimal.divisor := by
  rcases decimal with ⟨coefficient, exponent⟩
  unfold bits
  dsimp only
  split
  · rename_i zero
    refine (nearestBits_of_small ?_).symm
    simp [dividend, zero, divisor_pos]
  · rename_i nonzero
    split
    · rename_i huge
      refine (nearestBits_of_large (divisor_pos _) le_rfl ?_).symm
      have whole : (-exponent).toNat = 0 := by omega
      have places : 400 ≤ exponent.toNat := by omega
      simp only [dividend, divisor, whole, Nat.pow_zero, Nat.one_mul]
      calc 2 ^ 1025 ≤ 10 ^ 400 := by decide +kernel
        _ ≤ 10 ^ exponent.toNat := Nat.pow_le_pow_right (by decide) places
        _ ≤ coefficient * 10 ^ exponent.toNat :=
          Nat.le_mul_of_pos_left _ (Nat.pos_of_ne_zero nonzero)
    · split
      · rename_i tiny
        refine (nearestBits_of_small ?_).symm
        have whole : exponent.toNat = 0 := by omega
        have places : coefficient.log2 + 400 ≤ (-exponent).toNat := by omega
        have length : coefficient < 2 ^ (coefficient.log2 + 1) := Nat.lt_log2_self
        simp only [dividend, divisor, whole, Nat.pow_zero, Nat.mul_one, Nat.shiftLeft_eq]
        calc 2 * (coefficient * 2 ^ finestScale)
            < 2 * (2 ^ (coefficient.log2 + 1) * 2 ^ finestScale) := by
              have := Nat.mul_lt_mul_of_pos_right length (Nat.two_pow_pos finestScale)
              omega
          _ = 2 ^ coefficient.log2 * 2 ^ (finestScale + 2) := by
              rw [Nat.pow_add, Nat.pow_add _ _ 2]
              ring
          _ ≤ 10 ^ coefficient.log2 * 10 ^ 400 :=
              Nat.mul_le_mul (Nat.pow_le_pow_left (by decide) _) (by decide +kernel)
          _ = 10 ^ (coefficient.log2 + 400) := by rw [Nat.pow_add]
          _ ≤ 10 ^ (-exponent).toNat := Nat.pow_le_pow_right (by decide) places
      · cases exponent with
        | ofNat places => simp [dividend, divisor]
        | negSucc places => simp [dividend, divisor]

/-! ## Decimals of one value -/

/-- The rational number that a decimal is. -/
def value (decimal : Decimal) : ℚ :=
  decimal.coefficient * 10 ^ decimal.exponent

theorem value_eq_div (decimal : Decimal) :
    decimal.value = decimal.dividend / decimal.divisor := by
  rcases decimal with ⟨coefficient, exponent⟩
  unfold value dividend divisor
  dsimp only
  cases exponent with
  | ofNat places => simp
  | negSucc places =>
    have power : (10 : ℚ) ^ Int.negSucc places = ((10 : ℚ) ^ (places + 1))⁻¹ := zpow_negSucc _ _
    rw [power]
    simp [div_eq_mul_inv]

/-- Decimals of one value stand for the same double. -/
theorem bits_congr {first second : Decimal} (same : first.value = second.value) :
    first.bits = second.bits := by
  have positive : ∀ decimal : Decimal, (decimal.divisor : ℚ) ≠ 0 := fun decimal =>
    Nat.cast_ne_zero.mpr (Nat.ne_of_gt decimal.divisor_pos)
  rw [value_eq_div, value_eq_div, div_eq_div_iff (positive first) (positive second)] at same
  rw [bits_eq, bits_eq]
  exact nearestBits_congr first.divisor_pos second.divisor_pos (by exact_mod_cast same)

/-- A decimal that stands for a number other than zero has a coefficient other than
zero. -/
theorem coefficient_ne_zero {decimal : Decimal} (nonzero : decimal.bits ≠ 0) :
    decimal.coefficient ≠ 0 := by
  intro zero
  simp [bits, zero] at nonzero

end Decimal
end Number
end MotionBlocks
