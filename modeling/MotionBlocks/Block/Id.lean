namespace MotionBlocks

/-!
# Block identifiers

Blocks are numbered in the order of their creation, and the identifier that
the host sees spells that number.  A host may ask for any text; one that spells
no number is kept as it is, so that a refusal can repeat it.
-/

inductive BlockId where
  | numbered (serial : Nat)
  | named (text : String)
deriving DecidableEq, Repr

namespace BlockId

/-- The identifier as the host sees it. -/
def text : BlockId → String
  | .numbered serial => "block_" ++ serial.repr
  | .named text => text

/-- The identifier that a host means by a text. -/
def ofText (text : String) : BlockId :=
  let serial := Nat.ofDigitChars 10 (text.toList.drop "block_".length) 0
  if (BlockId.numbered serial).text = text then .numbered serial else .named text

/-- One block was created before another one. -/
def Before : BlockId → BlockId → Prop
  | .numbered first, .numbered second => first < second
  | _, _ => False

theorem Before.asymm {first second : BlockId} (before : first.Before second) :
    ¬ second.Before first := by
  intro after
  cases first with
  | named text => exact before
  | numbered serial =>
    cases second with
    | named text => exact before
    | numbered other => exact Nat.lt_asymm before after

/-- No text is lost: an identifier spells the text it was made from. -/
theorem text_ofText (text : String) : (ofText text).text = text := by
  simp only [ofText]
  split
  · assumption
  · rfl

/-- Every number is found again by the identifier that spells it. -/
theorem ofText_text_numbered (serial : Nat) :
    ofText (BlockId.numbered serial).text = .numbered serial := by
  have spelled : (BlockId.numbered serial).text.toList =
      ['b', 'l', 'o', 'c', 'k', '_'] ++ Nat.toDigits 10 serial := by
    simp [text]
  have digits : Nat.ofDigitChars 10
      ((BlockId.numbered serial).text.toList.drop "block_".length) 0 = serial := by
    rw [spelled, List.drop_left' (by decide)]
    exact Nat.ofDigitChars_ten_toDigits
  simp [ofText, digits]

end BlockId
end MotionBlocks
