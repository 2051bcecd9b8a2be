namespace MotionBlocks
namespace Number

/-!
# Doubles as whole multiples of the smallest one

Every finite double is a whole multiple of `2 ^ -1074`, the smallest positive
one.  Reading decimals, choosing shortest digits and cutting a number down to
its whole part are therefore questions about natural numbers, and this module
is the bridge: it passes between the bits of a double and that multiple, and it
rounds an arbitrary quotient of naturals to the nearest double.

Only magnitudes are treated here.  A sign is one separate bit that no rounding
rule looks at, and it is put back by `ofMagnitude`.
-/

/-- The leading bit of a normal double, which its bits do not store. -/
def hiddenBit : Nat := 1 <<< 52

/-- The smallest positive double is one over two to this power. -/
def finestScale : Nat := 1074

/-- The magnitude bits of an infinity: one more than those of the largest
finite double. -/
def infinityBits : Nat := 2047 * hiddenBit

/-- The bit that holds the sign. -/
def signBit : Nat := 1 <<< 63

/-- The nearest whole number to a quotient; a half goes to the even neighbour. -/
def roundHalfEven (dividend divisor : Nat) : Nat :=
  let quotient := dividend / divisor
  let twiceRest := 2 * (dividend % divisor)
  if twiceRest < divisor ∨ (twiceRest = divisor ∧ quotient % 2 = 0) then quotient
  else quotient + 1

/-- How many times the smallest positive double goes into the finite double
with these magnitude bits. -/
def multiple (bits : Nat) : Nat :=
  if bits / hiddenBit = 0 then bits
  else (hiddenBit + bits % hiddenBit) <<< (bits / hiddenBit - 1)

/-- The magnitude bits of the double nearest to `dividend / divisor`.

The significand is rounded at the place where 53 bits end, or at the finest
scale for small numbers.  Adding it to the shifted place counts it into the
exponent, so a significand that rounds up to the next power of two needs no
case of its own. -/
def nearestBits (dividend divisor : Nat) : Nat :=
  let scaled := dividend <<< finestScale
  let place := (scaled / divisor).log2 - 52
  min infinityBits (roundHalfEven scaled (divisor <<< place) + place * hiddenBit)

/-- A whole quotient is its own rounding. -/
theorem roundHalfEven_mul (quotient : Nat) {divisor : Nat} (positive : 0 < divisor) :
    roundHalfEven (quotient * divisor) divisor = quotient := by
  simp [roundHalfEven, Nat.mul_div_cancel _ positive, positive]

/-- A finite double is a significand of at most 53 bits at a place which its
bits count above the hidden one; the length of the multiple tells the place. -/
theorem multiple_eq (bits : Nat) :
    ∃ significand place, multiple bits = significand <<< place ∧
      bits = significand + place * hiddenBit ∧ (multiple bits).log2 - 52 = place := by
  by_cases small : bits / hiddenBit = 0
  · refine ⟨bits, 0, by simp [multiple, small], by simp, ?_⟩
    have bound : bits < 2 ^ 52 := by
      simpa [hiddenBit] using Nat.div_eq_zero_iff.1 small
    simp only [multiple, small, ↓reduceIte]
    by_cases zero : bits = 0
    · simp [zero]
    · have := (Nat.log2_lt zero).2 bound
      omega
  · refine ⟨hiddenBit + bits % hiddenBit, bits / hiddenBit - 1, by simp [multiple, small], ?_, ?_⟩
    · have split := Nat.div_add_mod bits hiddenBit
      obtain ⟨place, upper⟩ := Nat.exists_eq_succ_of_ne_zero small
      rw [upper, Nat.mul_comm, Nat.succ_mul] at split
      rw [upper, Nat.succ_sub_one]
      omega
    · simp only [multiple, small, ↓reduceIte]
      have lower : bits % hiddenBit < 2 ^ 52 := Nat.mod_lt _ (by decide)
      have length : ((hiddenBit + bits % hiddenBit) <<< (bits / hiddenBit - 1)).log2
          = 52 + (bits / hiddenBit - 1) := by
        rw [Nat.shiftLeft_eq]
        have positive : 0 < (hiddenBit + bits % hiddenBit) * 2 ^ (bits / hiddenBit - 1) :=
          Nat.mul_pos (Nat.add_pos_left (by decide) _) (Nat.two_pow_pos _)
        rw [Nat.log2_eq_iff (Nat.ne_of_gt positive), Nat.add_right_comm, Nat.pow_add, Nat.pow_add]
        rw [show hiddenBit = 2 ^ 52 from rfl] at lower ⊢
        exact ⟨Nat.mul_le_mul_right _ (by omega),
          Nat.mul_lt_mul_of_pos_right (by omega) (Nat.two_pow_pos _)⟩
      rw [length]
      omega

/-- A quotient that equals a finite double is rounded to that double. -/
theorem nearestBits_multiple {bits divisor : Nat} (finite : bits < infinityBits)
    (positive : 0 < divisor) :
    nearestBits (multiple bits * divisor) (divisor <<< finestScale) = bits := by
  obtain ⟨significand, place, value, spelled, length⟩ := multiple_eq bits
  have scaled : (multiple bits * divisor) <<< finestScale
      = multiple bits * (divisor <<< finestScale) := by
    rw [Nat.shiftLeft_eq, Nat.shiftLeft_eq, Nat.mul_assoc]
  have finest : 0 < divisor <<< finestScale := by
    rw [Nat.shiftLeft_eq]
    exact Nat.mul_pos positive (Nat.two_pow_pos _)
  have unit : 0 < divisor <<< finestScale <<< place := by
    rw [Nat.shiftLeft_eq _ place]
    exact Nat.mul_pos finest (Nat.two_pow_pos _)
  have whole : multiple bits * (divisor <<< finestScale)
      = significand * (divisor <<< finestScale <<< place) := by
    rw [value, Nat.shiftLeft_eq significand, Nat.shiftLeft_eq _ place, Nat.mul_assoc,
      Nat.mul_comm (2 ^ place)]
  simp only [nearestBits]
  rw [scaled, Nat.mul_div_cancel _ finest, length, whole, roundHalfEven_mul _ unit, ← spelled]
  omega

/-- The double with a given sign and magnitude. -/
def ofMagnitude (negative : Bool) (bits : Nat) : Float :=
  Float.ofBits (UInt64.ofNat (if negative then bits + signBit else bits))

/-- The bits of a double without its sign. -/
def magnitudeBits (number : Float) : Nat :=
  number.toBits.toNat % signBit

/-- Whether the sign bit is set; this holds of a negative zero too. -/
def isNegative (number : Float) : Bool :=
  decide (signBit ≤ number.toBits.toNat)

/-- The whole part of a finite number, taking all negative numbers for zero. -/
def wholePart (number : Float) : Nat :=
  if isNegative number then 0 else multiple (magnitudeBits number) >>> finestScale

/-- The double nearest to a natural number. -/
def ofNat (number : Nat) : Float :=
  ofMagnitude false (nearestBits number 1)

/-- The whole part as a double. -/
def floorPositive (number : Float) : Float :=
  ofNat (wholePart number)

/-- A natural number, or the largest count of 64 bits if it does not fit. -/
def saturated (number : Nat) : Nat :=
  min number (UInt64.size - 1)

/-- The double next to a nonzero one in the order of its bits, or the smallest
double of the wanted sign next to a zero. -/
def neighbour (number : Float) (upward : Bool) : Float :=
  if number == 0.0 then ofMagnitude (!upward) 1
  else if decide (0.0 < number) == upward then Float.ofBits (number.toBits + 1)
  else Float.ofBits (number.toBits - 1)

end Number
end MotionBlocks
