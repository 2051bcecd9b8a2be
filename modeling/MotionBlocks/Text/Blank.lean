namespace MotionBlocks
namespace Text

/-!
# Blank characters

The characters that Unicode gives the property White_Space.  Core's
`Char.isWhitespace` knows four of them only, and people paste the others into
number fields.
-/

/-- The code points with the property White_Space, as closed ranges. -/
def blankRanges : List (Nat × Nat) :=
  [(0x0009, 0x000D), (0x0020, 0x0020), (0x0085, 0x0085), (0x00A0, 0x00A0), (0x1680, 0x1680),
    (0x2000, 0x200A), (0x2028, 0x2029), (0x202F, 0x202F), (0x205F, 0x205F), (0x3000, 0x3000)]

def isBlank (char : Char) : Bool :=
  blankRanges.any fun (first, last) => decide (first ≤ char.toNat ∧ char.toNat ≤ last)

/-- Drops the blank characters at both ends. -/
def trim (chars : List Char) : List Char :=
  ((chars.dropWhile isBlank).reverse.dropWhile isBlank).reverse

end Text
end MotionBlocks
