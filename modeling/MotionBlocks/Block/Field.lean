import MotionBlocks.Json.Library
import MotionBlocks.Text.Blank

namespace MotionBlocks

/-!
# Field values and positions

A field holds what the editor's widget produced: a number, or text that may
spell one.  Only finite numbers count as numeric, whichever way they come.
-/

inductive FieldValue where
  | number (value : Float)
  | text (value : String)
deriving BEq

namespace FieldValue

def asText? : FieldValue → Option String
  | .text value => some value
  | .number _ => none

/-- The finite number that a field holds or spells, blanks around it aside. -/
def asFiniteNumber? (field : FieldValue) : Option Float :=
  let reading :=
    match field with
    | .number value => some value
    | .text value => Number.ofTyped? (Text.trim value.toList)
  reading.filter Float.isFinite

def toJson (library : JsonLibrary) : FieldValue → Json
  | .number value => .ofFloat library value
  | .text value => .ofText value

def ofJson? (library : JsonLibrary) (json : Json) : Option FieldValue :=
  match json with
  | .number numeral => (library.double numeral).map .number
  | .string content => content.map .text
  | _ => none

end FieldValue

/-- Where a block stands on the workspace. -/
structure Position where
  x : Float
  y : Float
deriving BEq

namespace Position

def toJson (library : JsonLibrary) (position : Position) : Json :=
  .record [("x", .ofFloat library position.x), ("y", .ofFloat library position.y)]

def ofJson? (library : JsonLibrary) (json : Json) : Option Position :=
  match library.fields ["x", "y"] json with
  | some [some x, some y] =>
    match x.asFloat? library, y.asFloat? library with
    | some x, some y => some ⟨x, y⟩
    | _, _ => none
  | _ => none

end Position
end MotionBlocks
