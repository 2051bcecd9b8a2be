import MotionBlocks.Number.Numeral

namespace MotionBlocks
namespace Number

/-!
# How numbers are written

Two forms of writing share the shortest digits and differ in where the decimal
point goes.  Messages always write a number out in full; program exchange
switches to an exponent for very large and very small numbers and marks a
whole number by a zero after the point.
-/

/-- The digits of a number and the place of its point: the value is
`0.d₁d₂…dₙ` times ten to `point`. -/
structure Significand where
  digits : List Char
  point : Int
deriving DecidableEq, Repr

/-- The digits of a decimal without the zeros that end its coefficient. -/
def Decimal.significand (decimal : Decimal) : Significand :=
  let written := Nat.toDigits 10 decimal.coefficient
  { digits := (written.reverse.dropWhile (· == '0')).reverse
    point := written.length + decimal.exponent }

/-- The rules of one form of writing. -/
structure Layout where
  /-- Whether a number with its point here is written without an exponent. -/
  positional : Int → Bool
  /-- The digits after the point of a whole number, if it gets a point. -/
  wholeFraction : Option (List Char)
  /-- Which of two equally near digit strings is written. -/
  tie : Tie

namespace Layout

/-- The digits around a point, with the zeros that its place takes. -/
def around (layout : Layout) (digits : List Char) : Int → List Char × Option (List Char)
  | .ofNat 0 => (['0'], some digits)
  | .ofNat places =>
    if digits.length ≤ places then
      (digits ++ List.replicate (places - digits.length) '0', layout.wholeFraction)
    else (digits.take places, some (digits.drop places))
  | .negSucc zeros => (['0'], some (List.replicate (zeros + 1) '0' ++ digits))

/-- Writes digits, either around the point or with the point behind the first
one and an exponent. -/
def numeralOf (layout : Layout) (negative : Bool) (significand : Significand) : Numeral :=
  if layout.positional significand.point then
    let (whole, fraction) := layout.around significand.digits significand.point
    ⟨negative, whole, fraction, none⟩
  else
    let fraction := significand.digits.drop 1
    ⟨negative, significand.digits.take 1, if fraction.isEmpty then none else some fraction,
      some (significand.point - 1)⟩

/-- The numeral of a finite double; a zero keeps its sign. -/
def numeral (layout : Layout) (number : Float) : Numeral :=
  let bits := magnitudeBits number
  if bits = 0 then ⟨isNegative number, ['0'], layout.wholeFraction, none⟩
  else layout.numeralOf (isNegative number) (Decimal.shortest layout.tie bits).significand

/-- Messages write every digit out and a whole number without a point. -/
def message : Layout where
  positional := fun _ => true
  wholeFraction := none
  tie := .upward

/-- Exchanged programs write numbers from `10 ^ -5` up to `10 ^ 16` in full and
end a whole number in `.0`. -/
def exchange : Layout where
  positional := fun point => decide (-5 < point ∧ point ≤ 16)
  wholeFraction := some ['0']
  tie := .even

end Layout

/-- A number as messages show it. -/
def messageText (number : Float) : String :=
  if number.isFinite then String.ofList (Layout.message.numeral number).text
  else if number.isNaN then "NaN"
  else if isNegative number then "-inf"
  else "inf"

end Number
end MotionBlocks
