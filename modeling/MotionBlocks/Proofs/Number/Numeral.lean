import MotionBlocks.Number.Layout
import MotionBlocks.Proofs.Number.Decimal
import MotionBlocks.Proofs.Number.Value

namespace MotionBlocks
namespace Number

/-!
# Numerals written and read

A double is written by digits that read back as the same double, and wherever the
layout puts the point, and whether it takes an exponent, the numeral has the value
of the digits.  The page that a numeral is written on is read back as that numeral,
as long as what follows it cannot be taken for a part of it.
-/

/-! ## Digits -/

theorem ofDigitChars_append_zeros (digits : List Char) (count : Nat) :
    Nat.ofDigitChars 10 (digits ++ List.replicate count '0') 0 =
      Nat.ofDigitChars 10 digits 0 * 10 ^ count := by
  rw [Nat.ofDigitChars_append, Nat.ofDigitChars_replicate_zero, Nat.mul_comm]

theorem ofDigitChars_zeros_append (digits : List Char) (count : Nat) :
    Nat.ofDigitChars 10 (List.replicate count '0' ++ digits) 0 = Nat.ofDigitChars 10 digits 0 := by
  rw [Nat.ofDigitChars_append, Nat.ofDigitChars_replicate_zero, Nat.mul_zero]

theorem isDigit_of_mem_zeros {count : Nat} {char : Char}
    (listed : char ∈ List.replicate count '0') : char.isDigit = true := by
  rw [List.eq_of_mem_replicate listed]
  rfl

/-- The digits of a positive number start with one that is not zero. -/
theorem head_toDigits_ne {number : Nat} (positive : 0 < number) :
    (Nat.toDigits 10 number).head? ≠ some '0' := by
  induction number using Nat.strong_induction_on with
  | _ number ih =>
    rcases Nat.lt_or_ge number 10 with small | large
    · rw [Nat.toDigits_of_lt_base small]
      simp only [List.head?_cons, ne_eq, Option.some.injEq, Nat.digitChar_eq_zero]
      omega
    · rw [Nat.toDigits_of_base_le (by decide) large,
        List.head?_append_of_ne_nil _ Nat.toDigits_ne_nil]
      exact ih (number / 10) (by omega) (by omega)

namespace Decimal

/-- A factor of ten may be moved between coefficient and exponent. -/
theorem value_mul_pow (coefficient count : Nat) (exponent : Int) :
    value ⟨coefficient * 10 ^ count, exponent⟩ = value ⟨coefficient, exponent + count⟩ := by
  unfold value
  rw [zpow_add₀ (by norm_num), zpow_natCast]
  push_cast
  ring

end Decimal

/-! ## Significant digits -/

namespace Significand

/-- The decimal of a digit string that is read as a whole number. -/
def decimal (significand : Significand) : Decimal where
  coefficient := Nat.ofDigitChars 10 significand.digits 0
  exponent := significand.point - significand.digits.length

/-- Some digits, of which the first is not zero. -/
structure Leading (digits : List Char) : Prop where
  nonempty : digits ≠ []
  allDigits : ∀ char ∈ digits, char.isDigit = true
  unpadded : digits.head? ≠ some '0'

end Significand

namespace Decimal

/-- The digits of a decimal are those that are kept and some zeros. -/
theorem toDigits_coefficient (decimal : Decimal) :
    ∃ count, Nat.toDigits 10 decimal.coefficient =
      decimal.significand.digits ++ List.replicate count '0' := by
  unfold significand
  generalize Nat.toDigits 10 decimal.coefficient = written
  have zeros : written.reverse.takeWhile (· == '0') =
      List.replicate (written.reverse.takeWhile (· == '0')).length '0' := by
    refine List.eq_replicate_iff.mpr ⟨rfl, fun char listed => ?_⟩
    simpa using List.mem_takeWhile_imp listed
  have split := congrArg List.reverse
    (List.takeWhile_append_dropWhile (p := (· == '0')) (l := written.reverse))
  rw [zeros, List.reverse_append, List.reverse_replicate, List.reverse_reverse] at split
  exact ⟨_, split.symm⟩

theorem value_significand (decimal : Decimal) :
    decimal.significand.decimal.value = decimal.value := by
  rcases decimal.toDigits_coefficient with ⟨count, written⟩
  have coefficient : decimal.coefficient =
      Nat.ofDigitChars 10 decimal.significand.digits 0 * 10 ^ count := by
    rw [← ofDigitChars_append_zeros, ← written, Nat.ofDigitChars_ten_toDigits]
  have length : ((Nat.toDigits 10 decimal.coefficient).length : Int) =
      decimal.significand.digits.length + count := by
    rw [written]
    simp
  have exponent : decimal.exponent + count =
      decimal.significand.point - decimal.significand.digits.length := by
    simp only [significand] at length ⊢
    omega
  calc decimal.significand.decimal.value
      = value ⟨Nat.ofDigitChars 10 decimal.significand.digits 0, decimal.exponent + count⟩ := by
        rw [exponent]
        rfl
    _ = value ⟨Nat.ofDigitChars 10 decimal.significand.digits 0 * 10 ^ count,
          decimal.exponent⟩ := (value_mul_pow _ _ _).symm
    _ = decimal.value := by rw [← coefficient]

theorem leading_significand {decimal : Decimal} (nonzero : decimal.coefficient ≠ 0) :
    Significand.Leading decimal.significand.digits := by
  rcases decimal.toDigits_coefficient with ⟨count, written⟩
  have head := head_toDigits_ne (Nat.pos_of_ne_zero nonzero)
  have nonempty : decimal.significand.digits ≠ [] := by
    intro none
    rw [none, List.nil_append] at written
    cases count with
    | zero => exact Nat.toDigits_ne_nil written
    | succ count => simp [written, List.replicate_succ] at head
  refine ⟨nonempty, fun char listed => ?_, ?_⟩
  · have found : char ∈ Nat.toDigits 10 decimal.coefficient := by
      rw [written]
      exact List.mem_append_left _ listed
    exact Nat.isDigit_of_mem_toDigits (by decide) le_rfl found
  · rwa [written, List.head?_append_of_ne_nil _ nonempty] at head

end Decimal

/-! ## Proper numerals -/

/-- A numeral as a strict reader wants it: digits on both sides of a point, and no
zeros in front. -/
structure Numeral.Proper (numeral : Numeral) : Prop where
  nonempty : numeral.whole ≠ []
  digits : ∀ char ∈ numeral.whole, char.isDigit = true
  unpadded : numeral.whole.head? = some '0' → numeral.whole.length = 1
  fraction : ∀ digits, numeral.fraction = some digits →
    digits ≠ [] ∧ ∀ char ∈ digits, char.isDigit = true

namespace Layout

/-- A whole number gets no other digits after its point than zeros. -/
def Padded (layout : Layout) : Prop :=
  ∀ digits, layout.wholeFraction = some digits → ∃ count, digits = List.replicate (count + 1) '0'

theorem padded_exchange : exchange.Padded := by
  intro digits given
  exact ⟨0, (Option.some.inj given).symm⟩

theorem Padded.getD_eq {layout : Layout} (padded : layout.Padded) :
    ∃ count, layout.wholeFraction.getD [] = List.replicate count '0' := by
  cases given : layout.wholeFraction with
  | none => exact ⟨0, rfl⟩
  | some digits =>
    rcases padded digits given with ⟨count, zeros⟩
    exact ⟨count + 1, zeros⟩

theorem Padded.fraction {layout : Layout} (padded : layout.Padded) {digits : List Char}
    (given : layout.wholeFraction = some digits) :
    digits ≠ [] ∧ ∀ char ∈ digits, char.isDigit = true := by
  rcases padded digits given with ⟨count, rfl⟩
  exact ⟨by simp, fun _ => isDigit_of_mem_zeros⟩

/-- Where the point can be: in front of the digits, between them, or behind them. -/
inductive Around (layout : Layout) (digits : List Char) (point : Int) :
    List Char × Option (List Char) → Prop where
  | before : point ≤ 0 →
    Around layout digits point (['0'], some (List.replicate (-point).toNat '0' ++ digits))
  | between {places : Nat} : point = places → 0 < places → places < digits.length →
    Around layout digits point (digits.take places, some (digits.drop places))
  | behind {places : Nat} : point = places → digits.length ≤ places →
    Around layout digits point
      (digits ++ List.replicate (places - digits.length) '0', layout.wholeFraction)

theorem around_spec (layout : Layout) (digits : List Char) (point : Int) :
    Around layout digits point (layout.around digits point) := by
  cases point with
  | ofNat places =>
    cases places with
    | zero => exact .before le_rfl
    | succ places =>
      have written : layout.around digits (.ofNat (places + 1)) =
          if digits.length ≤ places + 1 then
            (digits ++ List.replicate (places + 1 - digits.length) '0', layout.wholeFraction)
          else (digits.take (places + 1), some (digits.drop (places + 1))) := rfl
      rw [written]
      split
      · rename_i short
        exact .behind rfl short
      · rename_i long
        exact .between rfl (Nat.succ_pos places) (by omega)
  | negSucc zeros => exact .before (Int.negSucc_lt_zero zeros).le

section

variable {layout : Layout} {digits : List Char} {point : Int}
  {written : List Char × Option (List Char)}

/-- The digits around the point have the value of the digit string. -/
theorem Around.value_eq (around : Around layout digits point written) (padded : layout.Padded)
    (negative : Bool) :
    (⟨negative, written.1, written.2, none⟩ : Numeral).decimal.value =
      (⟨digits, point⟩ : Significand).decimal.value := by
  unfold Numeral.decimal Significand.decimal
  dsimp only
  cases around with
  | before atMost =>
    have places : ((-point).toNat : Int) = -point := Int.toNat_of_nonneg (by omega)
    have exponent : (0 : Int) - (List.replicate (-point).toNat '0' ++ digits).length =
        point - digits.length := by
      rw [List.length_append, List.length_replicate]
      omega
    have coefficient :
        Nat.ofDigitChars 10 ('0' :: (List.replicate (-point).toNat '0' ++ digits)) 0 =
          Nat.ofDigitChars 10 digits 0 := ofDigitChars_zeros_append digits ((-point).toNat + 1)
    simp only [Option.getD_some, Option.getD_none, List.singleton_append, coefficient, exponent]
  | @between places here after within =>
    have exponent : (0 : Int) - (digits.drop places).length = point - digits.length := by
      rw [List.length_drop]
      omega
    simp only [Option.getD_some, Option.getD_none, List.take_append_drop, exponent]
  | @behind places here within =>
    rcases padded.getD_eq with ⟨count, zeros⟩
    have joined :
        digits ++ List.replicate (places - digits.length) '0' ++ List.replicate count '0' =
          digits ++ List.replicate (places - digits.length + count) '0' := by
      rw [List.append_assoc, List.replicate_append_replicate]
    have exponent : (0 : Int) - (count : Int) + (places - digits.length + count : Nat) =
        point - digits.length := by
      omega
    simp only [zeros, joined, ofDigitChars_append_zeros, Option.getD_none, List.length_replicate]
    rw [Decimal.value_mul_pow, exponent]

theorem Around.proper (around : Around layout digits point written) (padded : layout.Padded)
    (leading : Significand.Leading digits) (negative : Bool) :
    (⟨negative, written.1, written.2, none⟩ : Numeral).Proper := by
  rcases leading with ⟨nonempty, allDigits, unpadded⟩
  cases around with
  | before atMost =>
    refine ⟨by simp, by simp, fun _ => rfl, fun fraction given => ?_⟩
    rcases Option.some.inj given with rfl
    refine ⟨by simp [nonempty], fun char listed => ?_⟩
    rcases List.mem_append.mp listed with zero | digit
    · exact isDigit_of_mem_zeros zero
    · exact allDigits char digit
  | @between places here after within =>
    refine ⟨?_, fun char listed => allDigits char (List.mem_of_mem_take listed), fun zero => ?_,
      fun fraction given => ?_⟩
    · rw [ne_eq, List.take_eq_nil_iff]
      simp [nonempty, after.ne']
    · rw [List.head?_take, if_neg after.ne'] at zero
      exact absurd zero unpadded
    · rcases Option.some.inj given with rfl
      refine ⟨?_, fun char listed => allDigits char (List.mem_of_mem_drop listed)⟩
      rw [ne_eq, List.drop_eq_nil_iff]
      omega
  | behind here within =>
    refine ⟨by simp [nonempty], fun char listed => ?_, fun zero => ?_,
      fun _ given => padded.fraction given⟩
    · rcases List.mem_append.mp listed with digit | zero
      · exact allDigits char digit
      · exact isDigit_of_mem_zeros zero
    · rw [List.head?_append_of_ne_nil _ nonempty] at zero
      exact absurd zero unpadded

end

section

variable {layout : Layout} {significand : Significand}

/-- The fraction behind a first digit is left out if there is none. -/
theorem getD_fraction (digits : List Char) :
    (if digits.isEmpty then none else some digits).getD [] = digits := by
  cases digits <;> rfl

theorem negative_numeralOf (layout : Layout) (negative : Bool) (significand : Significand) :
    (layout.numeralOf negative significand).negative = negative := by
  unfold numeralOf
  split
  · rfl
  · rfl

theorem value_numeralOf (padded : layout.Padded) (nonempty : significand.digits ≠ [])
    (negative : Bool) :
    (layout.numeralOf negative significand).decimal.value = significand.decimal.value := by
  unfold numeralOf
  split
  · exact (around_spec layout significand.digits significand.point).value_eq padded negative
  · have length : 0 < significand.digits.length := List.length_pos_iff.mpr nonempty
    have exponent : significand.point - 1 - ((significand.digits.drop 1).length : Int) =
        significand.point - significand.digits.length := by
      rw [List.length_drop]
      omega
    simp only [Numeral.decimal, Significand.decimal, getD_fraction, List.take_append_drop,
      Option.getD_some, exponent]

theorem proper_numeralOf (padded : layout.Padded)
    (leading : Significand.Leading significand.digits) (negative : Bool) :
    (layout.numeralOf negative significand).Proper := by
  unfold numeralOf
  split
  · exact (around_spec layout significand.digits significand.point).proper padded leading negative
  · rcases leading with ⟨nonempty, allDigits, unpadded⟩
    refine ⟨?_, fun char listed => allDigits char (List.mem_of_mem_take listed), fun zero => ?_,
      fun fraction given => ?_⟩
    · rw [ne_eq, List.take_eq_nil_iff]
      simp [nonempty]
    · rw [List.head?_take, if_neg (by decide)] at zero
      exact absurd zero unpadded
    · dsimp only at given
      split at given
      · cases given
      · rename_i filled
        rcases Option.some.inj given with rfl
        exact ⟨fun none => filled (by rw [none]; rfl),
          fun char listed => allDigits char (List.mem_of_mem_drop listed)⟩

end

/-! ## Doubles written and read -/

section

variable {layout : Layout} {number : Float}

/-- The digits of a double other than zero. -/
theorem leading_shortest (tie : Tie) {bits : Nat} (finite : bits < infinityBits)
    (nonzero : bits ≠ 0) :
    Significand.Leading (Decimal.shortest tie bits).significand.digits := by
  have reads : (Decimal.shortest tie bits).bits = bits := Decimal.bits_shortest finite
  refine Decimal.leading_significand (Decimal.coefficient_ne_zero ?_)
  rw [reads]
  exact nonzero

/-- The numeral of a finite double is read as that double. -/
theorem toFloat_numeral (padded : layout.Padded) (finite : number.isFinite = true) :
    (layout.numeral number).toFloat = number := by
  have bound := magnitudeBits_lt finite
  suffices read : (layout.numeral number).negative = isNegative number ∧
      (layout.numeral number).decimal.bits = magnitudeBits number by
    rw [Numeral.toFloat, read.1, read.2, ofMagnitude_magnitudeBits]
  unfold numeral
  dsimp only
  split
  · rename_i zero
    rcases padded.getD_eq with ⟨count, zeros⟩
    have nothing : Nat.ofDigitChars 10 (['0'] ++ layout.wholeFraction.getD []) 0 = 0 := by
      rw [zeros, ofDigitChars_append_zeros]
      exact Nat.zero_mul _
    refine ⟨rfl, ?_⟩
    simp only [Numeral.decimal, Decimal.bits, nothing, if_pos, zero]
  · rename_i nonzero
    have leading := leading_shortest layout.tie bound nonzero
    have same := (value_numeralOf padded leading.nonempty (isNegative number)).trans
      (Decimal.value_significand _)
    refine ⟨negative_numeralOf _ _ _, ?_⟩
    rw [Decimal.bits_congr same, Decimal.bits_shortest bound]

theorem proper_numeral (padded : layout.Padded) (finite : number.isFinite = true) :
    (layout.numeral number).Proper := by
  unfold numeral
  dsimp only
  split
  · exact ⟨by simp, by simp, fun _ => rfl, fun _ given => padded.fraction given⟩
  · rename_i nonzero
    exact proper_numeralOf padded
      (leading_shortest layout.tie (magnitudeBits_lt finite) nonzero) _

end

end Layout

/-! ## The page read back -/

/-- A digit string is read up to its end, if no digit follows it. -/
theorem span_digits {digits rest : List Char} (allDigits : ∀ char ∈ digits, char.isDigit = true)
    (ends : ∀ char, rest.head? = some char → char.isDigit = false) :
    (digits ++ rest).takeWhile Char.isDigit = digits ∧
      (digits ++ rest).dropWhile Char.isDigit = rest := by
  rw [List.takeWhile_append_of_pos allDigits, List.dropWhile_append_of_pos allDigits]
  cases rest with
  | nil => exact ⟨List.append_nil digits, rfl⟩
  | cons char rest =>
    have notDigit := ends char rfl
    simp [notDigit]

namespace Numeral

/-- What follows a numeral on the page starts with nothing that the numeral could go
on with. -/
def Ends (rest : List Char) : Prop :=
  ∀ char, rest.head? = some char →
    char.isDigit = false ∧ char ≠ '.' ∧ char ≠ 'e' ∧ char ≠ 'E'

def fractionText : Option (List Char) → List Char
  | none => []
  | some digits => '.' :: digits

def exponentText : Option Int → List Char
  | none => []
  | some exponent =>
    'e' :: (if exponent < 0 then '-' else '+') :: Nat.toDigits 10 exponent.natAbs

/-- The numeral behind its sign. -/
def unsigned (numeral : Numeral) : List Char :=
  numeral.whole ++ fractionText numeral.fraction ++ exponentText numeral.exponent

theorem text_eq (numeral : Numeral) :
    numeral.text = (if numeral.negative then ['-'] else []) ++ numeral.unsigned := by
  rcases numeral with ⟨negative, whole, fraction, exponent⟩
  unfold text unsigned
  cases fraction <;> cases exponent <;> simp [fractionText, exponentText]

section

variable {rest : List Char}

theorem scanFraction_text {fraction : Option (List Char)}
    (allDigits : ∀ digits, fraction = some digits → ∀ char ∈ digits, char.isDigit = true)
    (ends : ∀ char, rest.head? = some char → char.isDigit = false ∧ char ≠ '.') :
    scanFraction (fractionText fraction ++ rest) = (fraction, rest) := by
  cases fraction with
  | none =>
    show scanFraction rest = (none, rest)
    unfold scanFraction
    split
    · exact absurd rfl (ends '.' rfl).2
    · rfl
  | some digits =>
    have span := span_digits (allDigits digits rfl) fun char head => (ends char head).1
    rw [fractionText, List.cons_append, scanFraction, span.1, span.2]

theorem scanExponentDigits_text (negative : Bool) (size : Nat)
    (ends : ∀ char, rest.head? = some char → char.isDigit = false) :
    scanExponentDigits negative (Nat.toDigits 10 size ++ rest) =
      some (some (if negative then -(size : Int) else size), rest) := by
  have allDigits : ∀ char ∈ Nat.toDigits 10 size, char.isDigit = true := fun char listed =>
    Nat.isDigit_of_mem_toDigits (by decide) le_rfl listed
  have span := span_digits allDigits ends
  have filled : (Nat.toDigits 10 size).isEmpty = false :=
    List.isEmpty_eq_false_iff.mpr Nat.toDigits_ne_nil
  simp only [scanExponentDigits, span.1, span.2, filled, Nat.ofDigitChars_ten_toDigits,
    Bool.false_eq_true, if_false]

theorem scanExponent_text (exponent : Option Int) (ends : Ends rest) :
    scanExponent (exponentText exponent ++ rest) = some (exponent, rest) := by
  cases exponent with
  | none =>
    show scanExponent rest = some (none, rest)
    cases rest with
    | nil => rfl
    | cons mark rest =>
      rcases ends mark rfl with ⟨-, -, notLower, notUpper⟩
      simp [scanExponent, notLower, notUpper]
  | some exponent =>
    have notDigit : ∀ char, rest.head? = some char → char.isDigit = false := fun char head =>
      (ends char head).1
    by_cases negative : exponent < 0
    · have read := scanExponentDigits_text true exponent.natAbs notDigit
      rw [if_pos rfl, (by omega : -(exponent.natAbs : Int) = exponent)] at read
      simp only [exponentText, if_pos negative]
      exact read
    · have read := scanExponentDigits_text false exponent.natAbs notDigit
      rw [if_neg (by decide), (by omega : (exponent.natAbs : Int) = exponent)] at read
      simp only [exponentText, if_neg negative]
      exact read

theorem scan_unsigned {numeral : Numeral} (proper : numeral.Proper) (ends : Ends rest) :
    scan numeral.negative (numeral.unsigned ++ rest) = some (numeral, rest) := by
  have afterFraction : ∀ char, (exponentText numeral.exponent ++ rest).head? = some char →
      char.isDigit = false ∧ char ≠ '.' := by
    intro char head
    cases given : numeral.exponent with
    | none =>
      rw [given] at head
      exact ⟨(ends char head).1, (ends char head).2.1⟩
    | some exponent =>
      rw [given] at head
      rcases Option.some.inj head with rfl
      decide
  have afterWhole : ∀ char,
      (fractionText numeral.fraction ++ (exponentText numeral.exponent ++ rest)).head? =
        some char → char.isDigit = false := by
    intro char head
    cases given : numeral.fraction with
    | none =>
      rw [given] at head
      exact (afterFraction char head).1
    | some digits =>
      rw [given] at head
      rcases Option.some.inj head with rfl
      rfl
  have whole := span_digits proper.digits afterWhole
  have fraction := scanFraction_text (fun digits given => (proper.fraction digits given).2)
    afterFraction
  have joined : numeral.unsigned ++ rest = numeral.whole ++
      (fractionText numeral.fraction ++ (exponentText numeral.exponent ++ rest)) := by
    rw [unsigned, List.append_assoc, List.append_assoc]
  simp only [scan, joined, whole.1, whole.2, fraction, scanExponent_text _ ends]

end

end Numeral

end Number
end MotionBlocks
