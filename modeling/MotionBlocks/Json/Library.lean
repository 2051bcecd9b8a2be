import MotionBlocks.Json.Value

namespace MotionBlocks

/-!
# JSON libraries

Texts, numerals and records are the business of a library, and it is left open
which one.  All that this project does with data goes through it: a value is written
and read as a whole, a double becomes a numeral and a numeral a double, and a value
gives its fields or the name of a choice.

The laws below are what is relied on.  They speak of values that can be written, which
have finite numbers only, strings that are texts, and objects that do not repeat a name,
and which nest no deeper than a reader follows.
-/

open Number (Numeral)

structure JsonLibrary where
  /-- The text of a value. -/
  write : Json → Option String
  /-- The value that a text holds. -/
  read : String → Option Json
  /-- The numeral of a finite double. -/
  numeral : Float → Numeral
  /-- The double that a numeral is read as. -/
  double : Numeral → Option Float
  /-- The values given for the fields of a record, in the order of the names. -/
  fields : List String → Json → Option (List (Option Json))
  /-- The name of a choice that carries no data. -/
  choice : Json → Option String

namespace Json

variable (library : JsonLibrary)

/-- A finite double; JSON has no numeral for the others, and they become null. -/
def ofFloat (number : Float) : Json :=
  if number.isFinite then .number (library.numeral number) else .null

def asFloat? : Json → Option Float
  | .number numeral => library.double numeral
  | _ => none

/-- Reads a field that has a default. -/
def fieldOr {α : Type} (default : α) (read : Json → Option α) : Option Json → Option α
  | none => some default
  | some json => read json

/-- Reads a field that may be left out or null. -/
def optionalField {α : Type} (read : Json → Option α) : Option Json → Option (Option α)
  | none => some none
  | some .null => some none
  | some json => (read json).map some

end Json

namespace JsonLibrary

/-- How deep the arrays and objects of a value may nest to be read. -/
def nesting : Nat := 127

/-- The values that can be written, with arrays and objects nested to a depth. -/
inductive Writable (library : JsonLibrary) : Nat → Json → Prop where
  | null {depth : Nat} : Writable library depth .null
  | bool {depth : Nat} (value : Bool) : Writable library depth (.bool value)
  | number {depth : Nat} {number : Float} : number.isFinite = true →
      Writable library depth (.number (library.numeral number))
  | string {depth : Nat} (text : String) : Writable library depth (.ofText text)
  | array {depth : Nat} {items : List Json} : (∀ item ∈ items, Writable library depth item) →
      Writable library (depth + 1) (.array items)
  | record {depth : Nat} {members : List (String × Json)} : (members.map (·.1)).Nodup →
      (∀ member ∈ members, Writable library depth member.2) →
        Writable library (depth + 1) (.record members)

/-- What a library is trusted for. -/
structure Lawful (library : JsonLibrary) : Prop where
  /-- A finite double is read back from its numeral. -/
  double_numeral : ∀ number, number.isFinite = true →
    library.double (library.numeral number) = some number
  /-- A numeral out of the range of doubles is refused. -/
  isFinite_double : ∀ numeral number, library.double numeral = some number →
    number.isFinite = true
  /-- A value that can be written is written, and read back. -/
  read_write : ∀ json, library.Writable nesting json →
    ∃ text, library.write json = some text ∧ library.read text = some json
  /-- A record gives the fields that are asked for, whatever else is in it. -/
  fields_record : ∀ (names : List String) (members : List (String × Json)),
    (members.map (·.1)).Nodup →
      library.fields names (.record members) = some (names.map fun name => members.lookup name)
  /-- A choice may be given by its name. -/
  choice_ofText : ∀ name, library.choice (.ofText name) = some name

end JsonLibrary
end MotionBlocks
