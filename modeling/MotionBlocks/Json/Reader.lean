import MotionBlocks.Json.Value

namespace MotionBlocks
namespace Json

/-!
# Reading JSON text

A strict reader: no comments, no trailing commas, no leading zeros, no raw
control characters in strings, and nothing but blanks after the value.  It
recurses as deep as values nest, with a bound that the length of the text gives
and that no text can exhaust, since every two calls read a character.
-/

open Number (Numeral)

/-- The four characters that may stand between tokens. -/
def isBlank (char : Char) : Bool :=
  char == ' ' || char == '\t' || char == '\n' || char == '\r'

/-- A numeral with at least one digit on each side of its point and no leading
zero. -/
def scanNumber (negative : Bool) (input : List Char) : Option (Json × List Char) :=
  match Numeral.scan negative input with
  | none => none
  | some (numeral, rest) =>
    if numeral.whole.isEmpty ∨ (numeral.whole.head? = some '0' ∧ 1 < numeral.whole.length)
        ∨ numeral.fraction = some [] then none
    else some (.number numeral, rest)

/-- The value of a hexadecimal digit of either case. -/
def hexDigit? (char : Char) : Option Nat :=
  if '0' ≤ char ∧ char ≤ '9' then some (char.toNat - 48)
  else if 'a' ≤ char ∧ char ≤ 'f' then some (char.toNat - 87)
  else if 'A' ≤ char ∧ char ≤ 'F' then some (char.toNat - 55)
  else none

/-- The number that four hexadecimal digits name. -/
def hexUnit? (first second third fourth : Char) : Option Nat := do
  let a ← hexDigit? first
  let b ← hexDigit? second
  let c ← hexDigit? third
  let d ← hexDigit? fourth
  return ((a * 16 + b) * 16 + c) * 16 + d

/-- The character that a letter behind a backslash stands for. -/
def escapedUnit? (letter : Char) : Option Nat :=
  match letter with
  | '"' => some 0x22
  | '\\' => some 0x5C
  | '/' => some 0x2F
  | 'b' => some 0x08
  | 'f' => some 0x0C
  | 'n' => some 0x0A
  | 'r' => some 0x0D
  | 't' => some 0x09
  | _ => none

/-- Reads a string behind its opening quote, as code points in which an escape
may still stand for half of a surrogate pair. -/
def scanUnits : List Char → Option (List Nat × List Char)
  | [] => none
  | '"' :: rest => some ([], rest)
  | '\\' :: 'u' :: first :: second :: third :: fourth :: rest =>
    match hexUnit? first second third fourth, scanUnits rest with
    | some unit, some (units, rest) => some (unit :: units, rest)
    | _, _ => none
  | '\\' :: letter :: rest =>
    match escapedUnit? letter, scanUnits rest with
    | some unit, some (units, rest) => some (unit :: units, rest)
    | _, _ => none
  | char :: rest =>
    if char.toNat < 0x20 then none
    else
      match scanUnits rest with
      | some (units, rest) => some (char.toNat :: units, rest)
      | none => none

def isHighHalf (unit : Nat) : Bool :=
  decide (0xD800 ≤ unit ∧ unit < 0xDC00)

def isLowHalf (unit : Nat) : Bool :=
  decide (0xDC00 ≤ unit ∧ unit < 0xE000)

/-- Joins the halves of surrogate pairs; a half on its own has no text. -/
def joinHalves : List Nat → Option (List Char)
  | [] => some []
  | [unit] => if isHighHalf unit || isLowHalf unit then none else some [Char.ofNat unit]
  | unit :: next :: units =>
    if isHighHalf unit then
      if isLowHalf next then
        (joinHalves units).map
          (Char.ofNat (0x10000 + (unit - 0xD800) * 0x400 + (next - 0xDC00)) :: ·)
      else none
    else if isLowHalf unit then none
    else (joinHalves (next :: units)).map (Char.ofNat unit :: ·)

/-- Reads a string behind its opening quote. -/
def scanString (input : List Char) : Option (Option String × List Char) :=
  (scanUnits input).map fun (units, rest) => ((joinHalves units).map String.ofList, rest)

mutual

/-- Reads one value and gives back what follows it. -/
def scanValue : Nat → List Char → Option (Json × List Char)
  | 0, _ => none
  | depth + 1, input =>
    match input.dropWhile isBlank with
    | 'n' :: 'u' :: 'l' :: 'l' :: rest => some (.null, rest)
    | 't' :: 'r' :: 'u' :: 'e' :: rest => some (.bool true, rest)
    | 'f' :: 'a' :: 'l' :: 's' :: 'e' :: rest => some (.bool false, rest)
    | '"' :: rest => (scanString rest).map fun (text, rest) => (.string text, rest)
    | '[' :: rest =>
      match rest.dropWhile isBlank with
      | ']' :: rest => some (.array [], rest)
      | rest => (scanItems depth rest).map fun (items, rest) => (.array items, rest)
    | '{' :: rest =>
      match rest.dropWhile isBlank with
      | '}' :: rest => some (.object [], rest)
      | rest => (scanMembers depth rest).map fun (members, rest) => (.object members, rest)
    | '-' :: rest => scanNumber true rest
    | rest => scanNumber false rest

/-- Reads the items of an array that has some, and its end. -/
def scanItems : Nat → List Char → Option (List Json × List Char)
  | 0, _ => none
  | depth + 1, input =>
    match scanValue depth input with
    | none => none
    | some (item, rest) =>
      match rest.dropWhile isBlank with
      | ']' :: rest => some ([item], rest)
      | ',' :: rest => (scanItems depth rest).map fun (items, rest) => (item :: items, rest)
      | _ => none

/-- Reads the members of an object that has some, and its end. -/
def scanMembers : Nat → List Char → Option (List (Option String × Json) × List Char)
  | 0, _ => none
  | depth + 1, input =>
    match input.dropWhile isBlank with
    | '"' :: rest =>
      match scanString rest with
      | none => none
      | some (name, rest) =>
        match rest.dropWhile isBlank with
        | ':' :: rest =>
          match scanValue depth rest with
          | none => none
          | some (value, rest) =>
            match rest.dropWhile isBlank with
            | '}' :: rest => some ([(name, value)], rest)
            | ',' :: rest =>
              (scanMembers depth rest).map fun (members, rest) => ((name, value) :: members, rest)
            | _ => none
        | _ => none
    | _ => none

end

/-- Reads a text that holds one value. -/
def ofChars? (input : List Char) : Option Json :=
  match scanValue (2 * input.length + 2) input with
  | some (json, rest) => if rest.all isBlank then some json else none
  | none => none

/-- The value that a text holds. -/
def ofString? (text : String) : Option Json :=
  ofChars? text.toList

end Json
end MotionBlocks
