import MotionBlocks.Json.Reader
import MotionBlocks.Json.Writer
import MotionBlocks.Proofs.Number.Numeral

namespace MotionBlocks
namespace Json

open Number

/-!
# JSON text read back

The reader gives back every value that was written, as long as its numerals are
proper.  Strings need no such condition: every character comes back from its escape,
and a string without a text comes back without one.

What follows a value matters only behind a number, which has to end where the reader
believes it to end.  Within arrays and objects a comma or a bracket follows, and at the
end of the text nothing does.
-/

/-! ## Strings -/

theorem hexDigit?_digitChar :
    ∀ digit, digit < 16 → hexDigit? (Nat.digitChar digit) = some digit := by
  decide

/-- One code point more in front of those that are read. -/
def withUnit (unit : Nat) : List Nat × List Char → List Nat × List Char
  | (units, rest) => (unit :: units, rest)

section

variable (rest : List Char)

theorem scanUnits_letter {letter : Char} {unit : Nat} (notHex : letter ≠ 'u')
    (escaped : escapedUnit? letter = some unit) :
    scanUnits ('\\' :: letter :: rest) = (scanUnits rest).map (withUnit unit) := by
  rw [scanUnits.eq_def]
  split
  · contradiction
  · rename_i same
    cases same
  · rename_i same
    cases same
    exact absurd rfl notHex
  · rename_i same
    cases same
    rw [escaped]
    cases scanUnits rest <;> rfl
  · rename_i notEscape same
    cases same
    exact (notEscape _ _ rfl rfl).elim

theorem scanUnits_controlEscape {char : Char} (control : char.toNat < 0x20) :
    scanUnits (controlEscape char ++ rest) = (scanUnits rest).map (withUnit char.toNat) := by
  have named : hexUnit? '0' '0' (Nat.digitChar (char.toNat / 16))
      (Nat.digitChar (char.toNat % 16)) = some char.toNat := by
    have zero : hexDigit? '0' = some 0 := by decide
    have joined : ((0 * 16 + 0) * 16 + char.toNat / 16) * 16 + char.toNat % 16 = char.toNat := by
      omega
    simp only [hexUnit?, zero, hexDigit?_digitChar (char.toNat / 16) (by omega),
      hexDigit?_digitChar (char.toNat % 16) (by omega), Option.bind_eq_bind, Option.bind_some,
      Option.pure_def, joined]
  simp only [controlEscape, List.cons_append, List.nil_append, scanUnits, named]
  cases scanUnits rest <;> rfl

theorem scanUnits_plain {char : Char} (notQuote : char ≠ '"') (notEscape : char ≠ '\\')
    (notControl : ¬ char.toNat < 0x20) :
    scanUnits (char :: rest) = (scanUnits rest).map (withUnit char.toNat) := by
  rw [scanUnits.eq_def]
  split
  · contradiction
  · rename_i same
    cases same
    exact absurd rfl notQuote
  · rename_i same
    cases same
    exact absurd rfl notEscape
  · rename_i same
    cases same
    exact absurd rfl notEscape
  · rename_i same
    cases same
    rw [if_neg notControl]
    cases scanUnits rest <;> rfl

/-- Every character is read from its escape. -/
theorem scanUnits_escapeChar (char : Char) :
    scanUnits (escapeChar char ++ rest) = (scanUnits rest).map (withUnit char.toNat) := by
  unfold escapeChar
  -- Seven characters are escaped by a letter.
  iterate 7
    split
    · rename_i lettered
      subst lettered
      exact scanUnits_letter rest (by decide) rfl
  split
  · rename_i control
    exact scanUnits_controlEscape rest control
  · rename_i notQuote notBackslash _ _ _ _ _ notControl
    exact scanUnits_plain rest notQuote notBackslash notControl

theorem scanUnits_flatMap_escapeChar (chars : List Char) :
    scanUnits (chars.flatMap escapeChar ++ '"' :: rest) = some (chars.map Char.toNat, rest) := by
  induction chars with
  | nil => rfl
  | cons char chars ih =>
    rw [List.flatMap_cons, List.append_assoc, scanUnits_escapeChar, ih]
    rfl

end

/-- No character is half of a surrogate pair. -/
theorem joinHalves_cons (char : Char) (units : List Nat) :
    joinHalves (char.toNat :: units) = (joinHalves units).map (char :: ·) := by
  have range : char.toNat < 0xD800 ∨ 0xDFFF < char.toNat := by
    rcases char.valid with low | ⟨high, -⟩
    · exact Or.inl low
    · exact Or.inr high
  have notHigh : isHighHalf char.toNat = false := decide_eq_false (by omega)
  have notLow : isLowHalf char.toNat = false := decide_eq_false (by omega)
  cases units with
  | nil => simp [joinHalves, notHigh, notLow]
  | cons next units => simp [joinHalves, notHigh, notLow]

theorem joinHalves_map_toNat (chars : List Char) :
    joinHalves (chars.map Char.toNat) = some chars := by
  induction chars with
  | nil => rfl
  | cons char chars ih => rw [List.map_cons, joinHalves_cons, ih, Option.map_some]

/-- A string is read up to the quote that closes it. -/
theorem scanString_stringText (text : Option String) (rest : List Char) :
    ∃ inner, stringText text ++ rest = '"' :: inner ∧ scanString inner = some (text, rest) := by
  cases text with
  | none =>
    have unit : hexUnit? 'd' '8' '0' '0' = some 0xD800 := by decide
    have half : joinHalves [0xD800] = none := by decide
    refine ⟨['\\', 'u', 'd', '8', '0', '0', '"'] ++ rest, rfl, ?_⟩
    simp [scanString, scanUnits, unit, half]
  | some text =>
    refine ⟨text.toList.flatMap escapeChar ++ '"' :: rest, ?_, ?_⟩
    · show quote text ++ rest = _
      rw [quote, List.cons_append, List.cons_append, List.append_assoc, List.singleton_append]
    · simp [scanString, scanUnits_flatMap_escapeChar, joinHalves_map_toNat]

/-! ## Values that are given back -/

/-- All numerals of a value are proper. -/
inductive Proper : Json → Prop where
  | null : Proper .null
  | bool (value : Bool) : Proper (.bool value)
  | number {numeral : Numeral} : numeral.Proper → Proper (.number numeral)
  | string (text : Option String) : Proper (.string text)
  | array {items : List Json} : (∀ item ∈ items, Proper item) → Proper (.array items)
  | object {members : List (Option String × Json)} :
    (∀ member ∈ members, Proper member.2) → Proper (.object members)

/-- A value starts with a character that ends neither blanks nor an array. -/
structure Opening (first : Char) : Prop where
  notBlank : isBlank first = false
  notEnd : first ≠ ']'

theorem opening_of_isDigit {first : Char} (digit : first.isDigit = true) : Opening first := by
  refine ⟨?_, ?_⟩
  · by_contra blank
    rw [Bool.not_eq_false] at blank
    simp only [isBlank, Bool.or_eq_true, beq_iff_eq] at blank
    rcases blank with ((rfl | rfl) | rfl) | rfl <;> cases digit
  · rintro rfl
    cases digit

theorem unsigned_opening {numeral : Numeral} (proper : numeral.Proper) :
    ∃ first tail, numeral.unsigned = first :: tail ∧ first.isDigit = true := by
  rcases List.exists_cons_of_ne_nil proper.nonempty with ⟨first, tail, whole⟩
  refine ⟨first, tail ++ Numeral.fractionText numeral.fraction ++
    Numeral.exponentText numeral.exponent, ?_, proper.digits first ?_⟩
  · rw [Numeral.unsigned, whole]
    rfl
  · rw [whole]
    exact List.mem_cons_self

theorem Proper.opening {json : Json} (proper : json.Proper) :
    ∃ first tail, json.chars = first :: tail ∧ Opening first := by
  cases proper with
  | null => exact ⟨'n', _, rfl, by decide, by decide⟩
  | bool value =>
    cases value with
    | false => exact ⟨'f', _, rfl, by decide, by decide⟩
    | true => exact ⟨'t', _, rfl, by decide, by decide⟩
  | @number numeral proper =>
    show ∃ first tail, numeral.text = first :: tail ∧ Opening first
    rw [numeral.text_eq]
    cases numeral.negative with
    | false =>
      rcases unsigned_opening proper with ⟨first, tail, written, digit⟩
      exact ⟨first, tail, written, opening_of_isDigit digit⟩
    | true => exact ⟨'-', _, rfl, by decide, by decide⟩
  | string text =>
    cases text with
    | none => exact ⟨'"', _, rfl, by decide, by decide⟩
    | some text => exact ⟨'"', _, rfl, by decide, by decide⟩
  | array => exact ⟨'[', _, rfl, by decide, by decide⟩
  | object => exact ⟨'{', _, rfl, by decide, by decide⟩

/-! ## Single readings -/

section

variable {rest : List Char} {depth : Nat}

theorem scanNumber_unsigned {numeral : Numeral} (proper : numeral.Proper)
    (ends : Numeral.Ends rest) :
    scanNumber numeral.negative (numeral.unsigned ++ rest) = some (.number numeral, rest) := by
  have accepted : ¬ (numeral.whole.isEmpty = true ∨
      (numeral.whole.head? = some '0' ∧ 1 < numeral.whole.length) ∨
      numeral.fraction = some []) := by
    rintro (empty | ⟨zero, longer⟩ | bare)
    · exact proper.nonempty (List.isEmpty_iff.mp empty)
    · exact absurd (proper.unpadded zero) (Nat.ne_of_gt longer)
    · exact (proper.fraction [] bare).1 rfl
  rw [scanNumber, Numeral.scan_unsigned proper ends]
  exact if_neg accepted

theorem scanValue_digit {first : Char} (digit : first.isDigit = true) :
    scanValue (depth + 1) (first :: rest) = scanNumber false (first :: rest) := by
  have kept : (first :: rest).dropWhile isBlank = first :: rest := by
    simp [(opening_of_isDigit digit).notBlank]
  rw [scanValue, kept]
  -- No other value starts with a digit.
  split <;> first | rfl | (rename_i same; cases same; cases digit)

theorem scanValue_number {numeral : Numeral} (proper : numeral.Proper)
    (ends : Numeral.Ends rest) :
    scanValue (depth + 1) (numeral.text ++ rest) = some (.number numeral, rest) := by
  have read := scanNumber_unsigned proper ends
  rw [numeral.text_eq]
  cases negative : numeral.negative with
  | false =>
    rcases unsigned_opening proper with ⟨first, tail, written, digit⟩
    rw [negative, written, List.cons_append] at read
    rw [if_neg (by decide), List.nil_append, written, List.cons_append, scanValue_digit digit, read]
  | true =>
    rw [negative] at read
    exact read

theorem scanValue_string (text : Option String) :
    scanValue (depth + 1) (stringText text ++ rest) = some (.string text, rest) := by
  rcases scanString_stringText text rest with ⟨inner, written, read⟩
  rw [written]
  show (scanString inner).map _ = _
  rw [read]
  rfl

theorem scanValue_array {first : Char} (opening : Opening first) :
    scanValue (depth + 1) ('[' :: first :: rest) =
      (scanItems depth (first :: rest)).map fun (items, rest) => (.array items, rest) := by
  have kept : (first :: rest).dropWhile isBlank = first :: rest := by
    simp [opening.notBlank]
  have mark : ('[' :: first :: rest).dropWhile isBlank = '[' :: first :: rest := rfl
  simp only [scanValue, mark, kept]
  split
  · rename_i same
    cases same
    exact absurd rfl opening.notEnd
  · rfl

theorem scanItems_last {input : List Char} {item : Json}
    (read : scanValue depth input = some (item, ']' :: rest)) :
    scanItems (depth + 1) input = some ([item], rest) := by
  rw [scanItems, read]
  rfl

theorem scanItems_more {input : List Char} {item : Json}
    (read : scanValue depth input = some (item, ',' :: rest)) :
    scanItems (depth + 1) input =
      (scanItems depth rest).map fun (items, rest) => (item :: items, rest) := by
  rw [scanItems, read]
  rfl

/-- An object that has members starts with a name. -/
theorem scanValue_object (name : Option String) (input : List Char) :
    scanValue (depth + 1) ('{' :: (stringText name ++ input)) =
      (scanMembers depth (stringText name ++ input)).map
        fun (members, rest) => (.object members, rest) := by
  rcases scanString_stringText name input with ⟨inner, written, -⟩
  rw [written]
  rfl

theorem scanMembers_last {name : Option String} {input : List Char} {value : Json}
    (read : scanValue depth input = some (value, '}' :: rest)) :
    scanMembers (depth + 1) (stringText name ++ ':' :: input) = some ([(name, value)], rest) := by
  rcases scanString_stringText name (':' :: input) with ⟨inner, written, named⟩
  have kept : ('"' :: inner).dropWhile isBlank = '"' :: inner := rfl
  have mark : (':' :: input).dropWhile isBlank = ':' :: input := rfl
  rw [written, scanMembers, kept]
  simp only [named, mark, read]
  rfl

theorem scanMembers_more {name : Option String} {input : List Char} {value : Json}
    (read : scanValue depth input = some (value, ',' :: rest)) :
    scanMembers (depth + 1) (stringText name ++ ':' :: input) =
      (scanMembers depth rest).map fun (members, rest) => ((name, value) :: members, rest) := by
  rcases scanString_stringText name (':' :: input) with ⟨inner, written, named⟩
  have kept : ('"' :: inner).dropWhile isBlank = '"' :: inner := rfl
  have mark : (':' :: input).dropWhile isBlank = ':' :: input := rfl
  rw [written, scanMembers, kept]
  simp only [named, mark, read]
  rfl

end

/-! ## Whole values -/

theorem ends_cons {char : Char} {rest : List Char}
    (ends : char.isDigit = false ∧ char ≠ '.' ∧ char ≠ 'e' ∧ char ≠ 'E') :
    Numeral.Ends (char :: rest) := by
  intro head same
  rcases Option.some.inj same with rfl
  exact ends

theorem itemChars_opening {item : Json} (proper : item.Proper) (items : List Json)
    (rest : List Char) :
    ∃ first tail, itemChars (item :: items) ++ rest = first :: tail ∧ Opening first := by
  rcases proper.opening with ⟨first, tail, written, opening⟩
  cases items with
  | nil => exact ⟨first, _, by rw [itemChars, written]; rfl, opening⟩
  | cons next items => exact ⟨first, _, by rw [itemChars, written]; rfl, opening⟩

theorem memberChars_opening (name : Option String) (value : Json)
    (members : List (Option String × Json)) (rest : List Char) :
    ∃ input, memberChars ((name, value) :: members) ++ rest = stringText name ++ input := by
  cases members with
  | nil => exact ⟨_, by rw [memberChars, List.append_assoc, List.append_assoc]⟩
  | cons next members => exact ⟨_, by rw [memberChars, List.append_assoc, List.append_assoc]⟩

mutual

/-- A value is read up to its end.  Each call takes one from the depth, and every two
calls take a character from the text. -/
theorem scanValue_chars : ∀ (json : Json) (depth : Nat) (rest : List Char), json.Proper →
    2 * json.chars.length < depth → Numeral.Ends rest →
      scanValue depth (json.chars ++ rest) = some (json, rest)
  | .null, depth + 1, rest, _, _, _ => rfl
  | .bool false, depth + 1, rest, _, _, _ => rfl
  | .bool true, depth + 1, rest, _, _, _ => rfl
  | .number numeral, depth + 1, rest, proper, _, ends => by
    cases proper with
    | number proper => exact scanValue_number proper ends
  | .string text, depth + 1, rest, _, _, _ => scanValue_string text
  | .array [], depth + 1, rest, _, _, _ => rfl
  | .array (item :: items), depth + 1, rest, proper, deep, _ => by
    cases proper with
    | array proper =>
      simp only [chars, List.length_cons] at deep
      have read := scanItems_itemChars item items depth rest proper (by omega)
      rcases itemChars_opening (proper item List.mem_cons_self) items rest with
        ⟨first, tail, written, opening⟩
      rw [written] at read
      rw [chars, List.cons_append, written, scanValue_array opening, read]
      rfl
  | .object [], depth + 1, rest, _, _, _ => rfl
  | .object ((name, value) :: members), depth + 1, rest, proper, deep, _ => by
    cases proper with
    | object proper =>
      simp only [chars, List.length_cons] at deep
      have read := scanMembers_memberChars name value members depth rest proper (by omega)
      rcases memberChars_opening name value members rest with ⟨input, written⟩
      rw [written] at read
      rw [chars, List.cons_append, written, scanValue_object, read]
      rfl

/-- Some items of an array are read up to its end. -/
theorem scanItems_itemChars : ∀ (item : Json) (items : List Json) (depth : Nat)
    (rest : List Char), (∀ json ∈ item :: items, json.Proper) →
      2 * (itemChars (item :: items)).length < depth →
        scanItems depth (itemChars (item :: items) ++ rest) = some (item :: items, rest)
  | item, [], depth + 1, rest, proper, deep => by
    simp only [itemChars, List.length_append, List.length_singleton] at deep
    have read := scanValue_chars item depth (']' :: rest) (proper item List.mem_cons_self)
      (by omega) (ends_cons (by decide))
    rw [itemChars, List.append_assoc]
    exact scanItems_last read
  | item, next :: items, depth + 1, rest, proper, deep => by
    simp only [itemChars, List.length_append, List.length_cons] at deep
    have read := scanValue_chars item depth (',' :: (itemChars (next :: items) ++ rest))
      (proper item List.mem_cons_self) (by omega) (ends_cons (by decide))
    have others := scanItems_itemChars next items depth rest
      (fun json listed => proper json (List.mem_cons_of_mem item listed)) (by omega)
    rw [itemChars, List.append_assoc, List.cons_append, scanItems_more read, others]
    rfl

/-- Some members of an object are read up to its end. -/
theorem scanMembers_memberChars : ∀ (name : Option String) (value : Json)
    (members : List (Option String × Json)) (depth : Nat) (rest : List Char),
    (∀ member ∈ (name, value) :: members, member.2.Proper) →
      2 * (memberChars ((name, value) :: members)).length < depth →
        scanMembers depth (memberChars ((name, value) :: members) ++ rest) =
          some ((name, value) :: members, rest)
  | name, value, [], depth + 1, rest, proper, deep => by
    simp only [memberChars, List.length_append, List.length_cons, List.length_nil] at deep
    have read := scanValue_chars value depth ('}' :: rest) (proper (name, value) List.mem_cons_self)
      (by omega) (ends_cons (by decide))
    rw [memberChars, List.append_assoc, List.append_assoc, List.cons_append]
    exact scanMembers_last read
  | name, value, (nextName, nextValue) :: members, depth + 1, rest, proper, deep => by
    simp only [memberChars, List.length_append, List.length_cons] at deep
    have read := scanValue_chars value depth
      (',' :: (memberChars ((nextName, nextValue) :: members) ++ rest))
      (proper (name, value) List.mem_cons_self) (by omega) (ends_cons (by decide))
    have others := scanMembers_memberChars nextName nextValue members depth rest
      (fun member listed => proper member (List.mem_cons_of_mem _ listed)) (by omega)
    rw [memberChars, List.append_assoc, List.append_assoc, List.cons_append, List.cons_append,
      scanMembers_more read, others]
    rfl

end

/-- A value is read back from its text. -/
theorem ofString?_text {json : Json} (proper : json.Proper) : ofString? json.text = some json := by
  have read := scanValue_chars json (2 * json.chars.length + 2) [] proper (by omega)
    (fun char head => nomatch head)
  rw [List.append_nil] at read
  rw [ofString?, text, String.toList_ofList, ofChars?, read]
  rfl

end Json
end MotionBlocks
