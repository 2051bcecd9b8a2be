import MotionBlocks.Number.Numeral

namespace MotionBlocks

/-!
# JSON values

The data that programs, fields and settings are exchanged in.  A number stays
the numeral that was written, because a count must be a whole number without a
point while a length may have one.  Members of an object keep their order and
may repeat a name; what a repetition means is for the reader of a record to say.

A string may name half of a surrogate pair by an escape.  Such a string is well
formed but stands for no text, so the text of a string is optional here.
-/

open Number (Numeral)

inductive Json where
  | null
  | bool (value : Bool)
  | number (numeral : Numeral)
  | string (text : Option String)
  | array (items : List Json)
  | object (members : List (Option String × Json))

namespace Json

/-- A string with a text. -/
def ofText (text : String) : Json :=
  .string (some text)

def ofNat (count : Nat) : Json :=
  .number ⟨false, Nat.toDigits 10 count, none, none⟩

/-- An object whose member names are texts. -/
def record (members : List (String × Json)) : Json :=
  .object (members.map fun (name, value) => (some name, value))

/-- The text of a string that has one. -/
def asText? : Json → Option String
  | .string text => text
  | _ => none

def asBool? : Json → Option Bool
  | .bool value => some value
  | _ => none

/-- A whole number of at most 64 bits, written without point, exponent and
sign. -/
def asCount? : Json → Option Nat
  | .number numeral =>
    let count := numeral.decimal.coefficient
    if numeral.isInteger ∧ numeral.negative = false ∧ count < UInt64.size then some count else none
  | _ => none

end Json
end MotionBlocks
