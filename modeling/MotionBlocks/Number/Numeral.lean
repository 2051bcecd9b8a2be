import MotionBlocks.Number.Decimal

namespace MotionBlocks
namespace Number

/-!
# Written numbers

A numeral is a number as it stands on the page: its digits before and after
the point, and its exponent.  Keeping these apart, instead of only the value,
lets the readers below disagree about what they accept while they share one
scanner, and it keeps a whole number apart from the same number with a point.
-/

/-- A number as written.  A missing point and a missing exponent differ from
an empty fraction and an exponent of zero. -/
structure Numeral where
  negative : Bool
  whole : List Char
  fraction : Option (List Char)
  exponent : Option Int
deriving DecidableEq, Repr

namespace Numeral

/-- Writes a numeral.  An exponent always shows its sign. -/
def text (numeral : Numeral) : List Char :=
  (if numeral.negative then ['-'] else [])
    ++ numeral.whole
    ++ (match numeral.fraction with
        | none => []
        | some digits => '.' :: digits)
    ++ (match numeral.exponent with
        | none => []
        | some exponent =>
          'e' :: (if exponent < 0 then '-' else '+') :: Nat.toDigits 10 exponent.natAbs)

/-- The decimal that a numeral stands for, apart from its sign. -/
def decimal (numeral : Numeral) : Decimal :=
  let fraction := numeral.fraction.getD []
  { coefficient := Nat.ofDigitChars 10 (numeral.whole ++ fraction) 0
    exponent := numeral.exponent.getD 0 - fraction.length }

/-- The double nearest to a numeral; one too large for that is infinite. -/
def toFloat (numeral : Numeral) : Float :=
  ofMagnitude numeral.negative numeral.decimal.bits

/-- Whether the numeral has neither a point nor an exponent. -/
def isInteger (numeral : Numeral) : Bool :=
  numeral.fraction.isNone && numeral.exponent.isNone

/-- Reads the part from the point on, if there is one. -/
def scanFraction : List Char → Option (List Char) × List Char
  | '.' :: rest => (some (rest.takeWhile Char.isDigit), rest.dropWhile Char.isDigit)
  | rest => (none, rest)

/-- Reads the digits of an exponent; there has to be one. -/
def scanExponentDigits (negative : Bool) (chars : List Char) : Option (Option Int × List Char) :=
  let digits := chars.takeWhile Char.isDigit
  let size : Int := Nat.ofDigitChars 10 digits 0
  if digits.isEmpty then none
  else some (some (if negative then -size else size), chars.dropWhile Char.isDigit)

/-- Reads an exponent, if there is one; a mark without digits is a mistake. -/
def scanExponent : List Char → Option (Option Int × List Char)
  | mark :: rest =>
    if mark = 'e' ∨ mark = 'E' then
      match rest with
      | '-' :: digits => scanExponentDigits true digits
      | '+' :: digits => scanExponentDigits false digits
      | digits => scanExponentDigits false digits
    else some (none, mark :: rest)
  | [] => some (none, [])

/-- Reads a numeral after its sign and gives back what follows it.  Which
digits may be missing is left to the caller. -/
def scan (negative : Bool) (chars : List Char) : Option (Numeral × List Char) :=
  let (fraction, afterFraction) := scanFraction (chars.dropWhile Char.isDigit)
  match scanExponent afterFraction with
  | none => none
  | some (exponent, rest) =>
    some (⟨negative, chars.takeWhile Char.isDigit, fraction, exponent⟩, rest)

end Numeral

/-- Reads an unsigned number as people type it: one of the names of an
infinity or of the undefined number in any case, or digits with at most one
point in any place. -/
def unsignedOfTyped? (negative : Bool) (chars : List Char) : Option Float :=
  let name := chars.map Char.toLower
  if name = "inf".toList ∨ name = "infinity".toList then some (ofMagnitude negative infinityBits)
  else if name = "nan".toList then some (0.0 / 0.0)
  else
    match Numeral.scan negative chars with
    | some (numeral, []) =>
      if (numeral.whole ++ numeral.fraction.getD []).isEmpty then none else some numeral.toFloat
    | _ => none

/-- Reads a number as people type it, with an optional sign in front. -/
def ofTyped? : List Char → Option Float
  | '-' :: rest => unsignedOfTyped? true rest
  | '+' :: rest => unsignedOfTyped? false rest
  | chars => unsignedOfTyped? false chars

end Number
end MotionBlocks
