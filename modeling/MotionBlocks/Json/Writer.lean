import MotionBlocks.Json.Value

namespace MotionBlocks
namespace Json

/-!
# Compact JSON text

Values are written without blanks and members in their order.  Of a string only
the quote, the backslash and the control characters are escaped, the common
ones of those by a letter.
-/

/-- The escape of a control character that has no letter of its own. -/
def controlEscape (char : Char) : List Char :=
  ['\\', 'u', '0', '0', Nat.digitChar (char.toNat / 16), Nat.digitChar (char.toNat % 16)]

/-- One character of a string, escaped if it has to be. -/
def escapeChar (char : Char) : List Char :=
  if char = '"' then ['\\', '"']
  else if char = '\\' then ['\\', '\\']
  else if char = '\x08' then ['\\', 'b']
  else if char = '\x0c' then ['\\', 'f']
  else if char = '\n' then ['\\', 'n']
  else if char = '\r' then ['\\', 'r']
  else if char = '\t' then ['\\', 't']
  else if char.toNat < 0x20 then controlEscape char
  else [char]

/-- A text between quotes. -/
def quote (text : String) : List Char :=
  '"' :: text.toList.flatMap escapeChar ++ ['"']

/-- A string; one without a text is written as half of a surrogate pair. -/
def stringText : Option String → List Char
  | some text => quote text
  | none => "\"\\ud800\"".toList

mutual

/-- Writes a value. -/
def chars : Json → List Char
  | .null => "null".toList
  | .bool true => "true".toList
  | .bool false => "false".toList
  | .number numeral => numeral.text
  | .string text => stringText text
  | .array items => '[' :: itemChars items
  | .object members => '{' :: memberChars members

/-- Writes the items that are left of an array, and its end. -/
def itemChars : List Json → List Char
  | [] => [']']
  | [item] => item.chars ++ [']']
  | item :: next :: items => item.chars ++ ',' :: itemChars (next :: items)

/-- Writes the members that are left of an object, and its end. -/
def memberChars : List (Option String × Json) → List Char
  | [] => ['}']
  | [(name, value)] => stringText name ++ ':' :: value.chars ++ ['}']
  | (name, value) :: next :: members =>
    stringText name ++ ':' :: value.chars ++ ',' :: memberChars (next :: members)

end

/-- The text of a value. -/
def text (json : Json) : String :=
  String.ofList json.chars

end Json
end MotionBlocks
