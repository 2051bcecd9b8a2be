import MotionBlocks.Number.Double

namespace MotionBlocks
namespace Number

/-!
# Decimals and their doubles

A decimal is a whole coefficient at a power of ten.  It stands for the double
nearest to it, and the other way round a double is written by the fewest
decimal digits that stand for it again.

The choice of digits looks at one decimal grid after the other, from one digit
to seventeen, and asks of the two grid points around the number whether they
read back.  If any point of a grid reads back, then one of these two does,
because the numbers that read back form an interval around the double.  Should
no grid have a fitting point, the exact expansion is taken, which always reads
back.
-/

/-- A nonnegative decimal: the coefficient times ten to the exponent. -/
structure Decimal where
  coefficient : Nat
  exponent : Int
deriving DecidableEq, Repr

/-- Which of two equally near digit strings is taken. -/
inductive Tie where
  | upward
  | even
deriving DecidableEq, Repr

namespace Decimal

/-- The magnitude bits of the double nearest to a decimal.

The first three cases only keep powers of ten small: a coefficient of `b` bits
at an exponent below `-(b + 400)` is far below half of the smallest double, and
a positive one beyond `10 ^ 400` is far above the largest. -/
def bits (decimal : Decimal) : Nat :=
  if decimal.coefficient = 0 then 0
  else if 400 < decimal.exponent then infinityBits
  else if decimal.exponent < -((decimal.coefficient.log2 + 400 : Nat) : Int) then 0
  else match decimal.exponent with
    | .ofNat places => nearestBits (decimal.coefficient * Nat.pow 10 places) 1
    | .negSucc places => nearestBits decimal.coefficient (Nat.pow 10 (places + 1))

/-- The decimal that equals the double with these magnitude bits. -/
def exact (bits : Nat) : Decimal where
  coefficient := multiple bits * Nat.pow 5 finestScale
  exponent := -(finestScale : Int)

/-- The position of the first digit of a double: the least power of ten above
it.  The finest positive double is above `10 ^ -400`, so no digit is lost. -/
def leadingPosition (bits : Nat) : Int :=
  ((Nat.toDigits 10 ((multiple bits * Nat.pow 10 400) >>> finestScale)).length : Int) - 400

/-- The grid point of `count` digits that reads back as the given double; the
nearer one if both neighbours do. -/
def onGrid? (tie : Tie) (bits count : Nat) : Option Decimal :=
  let exponent := leadingPosition bits - count
  let dividend := multiple bits * Nat.pow 10 (-exponent).toNat
  let divisor := Nat.pow 10 exponent.toNat <<< finestScale
  let below : Decimal := ⟨dividend / divisor, exponent⟩
  let above : Decimal := ⟨dividend / divisor + 1, exponent⟩
  let twiceRest := 2 * (dividend % divisor)
  let nearerAbove := divisor < twiceRest ∨
    (twiceRest = divisor ∧ (tie = .upward ∨ below.coefficient % 2 = 1))
  if below.bits = bits then
    if above.bits = bits ∧ nearerAbove then some above else some below
  else if above.bits = bits then some above
  else none

/-- The shortest decimal that reads back as the double with these magnitude
bits, and the nearest one of those. -/
def shortest (tie : Tie) (bits : Nat) : Decimal :=
  ((List.range 17).findSome? fun fewer => onGrid? tie bits (fewer + 1)).getD (exact bits)

/-- The exact expansion of a finite double reads back. -/
theorem bits_exact {bits : Nat} (finite : bits < infinityBits) :
    (exact bits).bits = bits := by
  by_cases zero : multiple bits = 0
  · obtain ⟨significand, place, value, spelled, length⟩ := multiple_eq bits
    have : bits = 0 := by
      simp [zero] at length value
      subst length
      omega
    simp [this, Decimal.bits, exact, multiple]
  · have many : 2 ^ 674 ≤ (exact bits).coefficient :=
      Nat.le_trans (by decide +kernel : 2 ^ 674 ≤ Nat.pow 5 finestScale)
        (Nat.le_mul_of_pos_left _ (Nat.pos_of_ne_zero zero))
    have nonzero : (exact bits).coefficient ≠ 0 := by
      have := Nat.two_pow_pos 674
      omega
    have length := (Nat.le_log2 nonzero).2 many
    have exponent : (exact bits).exponent = .negSucc 1073 := rfl
    have scale : Nat.pow 10 (1073 + 1) = Nat.pow 5 finestScale <<< finestScale := by
      decide +kernel
    have positive : ∀ places, 0 < Nat.pow 5 places := fun _ => Nat.pow_pos (by decide)
    unfold Decimal.bits
    rw [if_neg nonzero, if_neg (by rw [exponent]; decide), if_neg (by rw [exponent]; omega),
      exponent]
    simp only [scale]
    exact nearestBits_multiple finite (positive finestScale)

/-- The shortest digits of a finite double read back, whichever tie is taken. -/
theorem bits_shortest {tie : Tie} {bits : Nat} (finite : bits < infinityBits) :
    (shortest tie bits).bits = bits := by
  unfold shortest
  cases found : (List.range 17).findSome? fun fewer => onGrid? tie bits (fewer + 1) with
  | none => exact bits_exact finite
  | some decimal =>
    obtain ⟨fewer, _, fits⟩ := List.exists_of_findSome?_eq_some found
    simp only [onGrid?] at fits
    simp only [Option.getD_some]
    split at fits
    · split at fits <;> simp_all
    · split at fits <;> simp_all

end Decimal
end Number
end MotionBlocks
