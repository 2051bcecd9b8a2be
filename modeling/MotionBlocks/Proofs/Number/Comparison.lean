import MotionBlocks.Proofs.Number.Decimal
import MotionBlocks.Proofs.Number.Value

namespace MotionBlocks
namespace Number

open Float.Model

/-!
# Comparing whole numbers as doubles

A natural number beyond `2 ^ 53` need not be a double and is rounded to one, so two
different numbers may become the same.  They never change places: what is less as a
double is less.  And where one of the two is the whole part of a double and the other
one is not beyond `2 ^ 53`, nothing is rounded, and comparing the doubles is comparing
the numbers.
-/

/-! ## Whole numbers that are doubles -/

/-- A natural number is the value of a double. -/
def IsDouble (number : ℕ) : Prop :=
  ∃ bits < infinityBits, multiple bits = number <<< finestScale

theorem IsDouble.nearestBits_eq {number bits : ℕ} (finite : bits < infinityBits)
    (value : multiple bits = number <<< finestScale) : nearestBits number 1 = bits := by
  have read := nearestBits_multiple finite Nat.one_pos
  rw [Nat.mul_one, value] at read
  rw [← read]
  refine nearestBits_congr Nat.one_pos ?_ ?_
  · rw [Nat.shiftLeft_eq]
    exact Nat.mul_pos Nat.one_pos (Nat.two_pow_pos _)
  · rw [Nat.shiftLeft_eq, Nat.shiftLeft_eq, Nat.one_mul, Nat.mul_one]

/-- Bits that count a place and a significand with its leading bit. -/
theorem multiple_normal (place : ℕ) {rest : ℕ} (short : rest < hiddenBit) :
    multiple ((place + 1) * hiddenBit + rest) = (hiddenBit + rest) <<< place := by
  have positive : 0 < hiddenBit := by decide
  have upper : ((place + 1) * hiddenBit + rest) / hiddenBit = place + 1 := by
    rw [Nat.mul_comm, Nat.mul_add_div positive, Nat.div_eq_of_lt short, Nat.add_zero]
  have lower : ((place + 1) * hiddenBit + rest) % hiddenBit = rest := by
    rw [Nat.mul_comm, Nat.mul_add_mod, Nat.mod_eq_of_lt short]
  rw [multiple, upper, lower, if_neg (Nat.succ_ne_zero place), Nat.add_sub_cancel]

theorem exists_multiple_of_leading (place : ℕ) {significand : ℕ} (leading : hiddenBit ≤ significand)
    (short : significand < 2 * hiddenBit) :
    ∃ bits < (place + 2) * hiddenBit, multiple bits = significand <<< place := by
  have shorter : significand - hiddenBit < hiddenBit := by omega
  refine ⟨(place + 1) * hiddenBit + (significand - hiddenBit), ?_, ?_⟩
  · rw [Nat.succ_mul (place + 1)]
    omega
  · rw [multiple_normal place shorter, Nat.add_sub_cancel' leading]

/-- Every significand of 53 bits is that of a double, at any place. -/
theorem exists_multiple (place : ℕ) {significand : ℕ} (short : significand < 2 * hiddenBit) :
    ∃ bits < (place + 2) * hiddenBit, multiple bits = significand <<< place := by
  induction place generalizing significand with
  | zero =>
    by_cases small : significand < hiddenBit
    · refine ⟨significand, by omega, ?_⟩
      rw [multiple, if_pos (Nat.div_eq_of_lt small), Nat.shiftLeft_zero]
    · exact exists_multiple_of_leading 0 (Nat.le_of_not_lt small) short
  | succ place ih =>
    by_cases small : significand < hiddenBit
    · -- A significand without its leading bit is doubled one place lower.
      have doubled : 2 * significand < 2 * hiddenBit := by omega
      rcases ih doubled with ⟨bits, bound, value⟩
      refine ⟨bits, bound.trans (Nat.mul_lt_mul_of_pos_right (by omega) (by decide)), ?_⟩
      rw [value, Nat.shiftLeft_succ_inside]
    · exact exists_multiple_of_leading (place + 1) (Nat.le_of_not_lt small) short

/-- The bits of a double count a place and a significand, which has its leading bit unless
the place is the last one. -/
theorem exists_significand (bits : ℕ) : ∃ significand place,
    multiple bits = significand <<< place ∧ bits = significand + place * hiddenBit ∧
      significand < 2 * hiddenBit ∧ (place = 0 ∨ hiddenBit ≤ significand) := by
  have split := Nat.div_add_mod' bits hiddenBit
  have short : bits % hiddenBit < hiddenBit := Nat.mod_lt _ (by decide)
  cases upper : bits / hiddenBit with
  | zero =>
    rw [upper, Nat.zero_mul, Nat.zero_add] at split
    refine ⟨bits, 0, ?_, ?_, by omega, Or.inl rfl⟩
    · rw [multiple, if_pos upper, Nat.shiftLeft_zero]
    · rw [Nat.zero_mul, Nat.add_zero]
  | succ place =>
    rw [upper] at split
    refine ⟨hiddenBit + bits % hiddenBit, place, ?_, ?_, by omega, Or.inr (Nat.le_add_right _ _)⟩
    · rw [← multiple_normal place short, split]
    · rw [Nat.succ_mul] at split
      omega

theorem isDouble_of_le {number : ℕ} (exact : number ≤ 2 ^ 53) : IsDouble number := by
  have finite : ∀ place ≤ 1075, (place + 2) * hiddenBit < infinityBits := fun place low =>
    Nat.mul_lt_mul_of_pos_right (by omega) (by decide)
  rcases Nat.lt_or_eq_of_le exact with below | rfl
  · have short : number < 2 * hiddenBit := below
    rcases exists_multiple finestScale short with ⟨bits, bound, value⟩
    exact ⟨bits, bound.trans (finite _ (by decide)), value⟩
  · have short : hiddenBit < 2 * hiddenBit := by decide
    rcases exists_multiple (finestScale + 1) short with ⟨bits, bound, value⟩
    refine ⟨bits, bound.trans (finite _ (by decide)), value.trans ?_⟩
    rw [Nat.shiftLeft_succ_inside]
    rfl

theorem isDouble_wholePart {number : Float} (finite : number.isFinite = true) :
    IsDouble (wholePart number) := by
  unfold wholePart
  split
  · exact isDouble_of_le (Nat.zero_le _)
  · rcases exists_significand (magnitudeBits number) with ⟨significand, place, value, -, short, -⟩
    by_cases whole : finestScale ≤ place
    · -- The number is whole already.
      refine ⟨magnitudeBits number, magnitudeBits_lt finite, ?_⟩
      rw [value, Nat.shiftRight_eq_div_pow, Nat.shiftLeft_eq, Nat.shiftLeft_eq,
        Nat.div_mul_cancel ((Nat.pow_dvd_pow 2 whole).mul_left significand)]
    · refine isDouble_of_le ?_
      have small : significand <<< place ≤ significand <<< finestScale := by
        rw [Nat.shiftLeft_eq, Nat.shiftLeft_eq]
        exact Nat.mul_le_mul_left _ (Nat.pow_le_pow_right Nat.two_pos (by omega))
      rw [value, Nat.shiftRight_eq_div_pow]
      refine Nat.div_le_of_le_mul ?_
      rw [Nat.shiftLeft_eq _ finestScale, Nat.mul_comm] at small
      refine small.trans (Nat.mul_le_mul_left _ ?_)
      rw [show hiddenBit = 2 ^ 52 from rfl] at short
      omega

/-! ## Rounding keeps the order -/

theorem le_roundHalfEven (dividend divisor : ℕ) :
    dividend / divisor ≤ roundHalfEven dividend divisor := by
  unfold roundHalfEven
  dsimp only
  split <;> omega

/-- The place at which a number is rounded is the highest one that leaves a leading bit. -/
theorem le_place_iff {place scaled : ℕ} (positive : 0 < place) :
    place ≤ scaled.log2 - 52 ↔ hiddenBit * 2 ^ place ≤ scaled := by
  rw [show hiddenBit = 2 ^ 52 from rfl, ← Nat.pow_add]
  by_cases zero : scaled = 0
  · have empty := Nat.two_pow_pos (52 + place)
    rw [zero, Nat.log2_zero]
    omega
  · rw [← Nat.le_log2 zero]
    omega

/-- What is not less than a double is not rounded below it. -/
theorem le_nearestBits {bits number : ℕ} (finite : bits < infinityBits)
    (least : multiple bits ≤ number <<< finestScale) : bits ≤ nearestBits number 1 := by
  rcases exists_significand bits with ⟨significand, place, value, spelled, short, leading⟩
  rw [nearestBits, Nat.div_one]
  refine Nat.le_min.mpr ⟨finite.le, ?_⟩
  rw [value, Nat.shiftLeft_eq] at least
  generalize number <<< finestScale = scaled at least ⊢
  have rounded := le_roundHalfEven scaled (1 <<< (scaled.log2 - 52))
  have reached : ∀ count, count * 2 ^ (scaled.log2 - 52) ≤ scaled →
      count ≤ roundHalfEven scaled (1 <<< (scaled.log2 - 52)) := by
    intro count fits
    rw [Nat.shiftLeft_eq, Nat.one_mul] at rounded ⊢
    exact ((Nat.le_div_iff_mul_le (Nat.two_pow_pos _)).mpr fits).trans rounded
  have upward : place ≤ scaled.log2 - 52 := by
    rcases Nat.eq_zero_or_pos place with rfl | positive
    · exact Nat.zero_le _
    · have long := leading.resolve_left (Nat.ne_of_gt positive)
      exact (le_place_iff positive).mpr ((Nat.mul_le_mul_right _ long).trans least)
  rcases upward.lt_or_eq with higher | same
  · -- At a higher place the leading bit alone is enough.
    have counted := reached hiddenBit ((le_place_iff (Nat.zero_lt_of_lt higher)).mp le_rfl)
    have places := Nat.mul_le_mul_right hiddenBit (Nat.succ_le_of_lt higher)
    rw [Nat.succ_mul] at places
    omega
  · rw [← same] at reached ⊢
    rw [spelled]
    exact Nat.add_le_add_right (reached significand least) _

/-- Rounding does not bring a number before a smaller one that is a double. -/
theorem IsDouble.nearestBits_mono {first second : ℕ} (isDouble : IsDouble first)
    (le : first ≤ second) : nearestBits first 1 ≤ nearestBits second 1 := by
  rcases isDouble with ⟨bits, finite, value⟩
  rw [IsDouble.nearestBits_eq finite value]
  refine le_nearestBits finite ?_
  rw [value, Nat.shiftLeft_eq, Nat.shiftLeft_eq]
  exact Nat.mul_le_mul_right _ le

theorem IsDouble.nearestBits_lt_iff {first second : ℕ} (isDouble : IsDouble first)
    (otherDouble : IsDouble second) :
    nearestBits first 1 < nearestBits second 1 ↔ first < second := by
  constructor
  · intro less
    by_contra notLess
    exact Nat.not_lt.mpr (otherDouble.nearestBits_mono (Nat.le_of_not_lt notLess)) less
  · intro less
    refine lt_of_le_of_ne (isDouble.nearestBits_mono less.le) fun same => ?_
    rcases isDouble with ⟨bits, finite, value⟩
    rcases otherDouble with ⟨otherBits, otherFinite, otherValue⟩
    rw [IsDouble.nearestBits_eq finite value, IsDouble.nearestBits_eq otherFinite otherValue]
      at same
    rw [same, otherValue, Nat.shiftLeft_eq, Nat.shiftLeft_eq] at value
    exact less.ne' (Nat.eq_of_mul_eq_mul_right (Nat.two_pow_pos _) value)

/-! ## The order of doubles -/

/-- What the bits of a double without a sign stand for. -/
inductive Reads : ℕ → UnpackedFloat → Prop where
  | zero : Reads 0 (.zero .positive)
  | finite {bits significand : ℕ} {exponent : ℤ} {positive : 0 < significand} (place : ℕ) :
      bits < infinityBits → bits = significand + place * hiddenBit →
      exponent = place - finestScale → significand < 2 * hiddenBit →
      (place = 0 ∨ hiddenBit ≤ significand) →
        Reads bits (.finite .positive significand exponent positive)
  | infinity : Reads infinityBits (.infinity .positive)

theorem Reads.lt_iff {first second : ℕ} {unpacked otherUnpacked : UnpackedFloat}
    (reads : Reads first unpacked) (otherReads : Reads second otherUnpacked) :
    unpacked.lt otherUnpacked = true ↔ first < second := by
  cases reads with
  | zero =>
    cases otherReads with
    | zero => decide
    | infinity => decide
    | @finite _ significand _ _ positive _ spelled =>
      exact iff_of_true rfl (by omega)
  | infinity =>
    cases otherReads with
    | zero => decide
    | infinity => decide
    | finite _ finite => exact iff_of_false nofun finite.asymm
  | @finite _ significand exponent positive place finite spelled placed short leading =>
    cases otherReads with
    | zero => exact iff_of_false nofun (Nat.not_lt_zero _)
    | infinity => exact iff_of_true rfl finite
    | @finite _ other otherExponent _ otherPlace _ otherSpelled otherPlaced otherShort
        otherLeading =>
      have compared : (UnpackedFloat.finite .positive significand exponent positive).lt
          (.finite .positive other otherExponent ‹_›) = true ↔
            exponent < otherExponent ∨ exponent = otherExponent ∧ significand < other := by
        simp [UnpackedFloat.lt, UnpackedFloat.compare, Ordering.then_eq_lt, compare_lt_iff_lt]
      have places : ∀ {lower upper : ℕ}, lower < upper →
          lower * hiddenBit + hiddenBit ≤ upper * hiddenBit := fun less =>
        (Nat.succ_mul _ _).symm.trans_le (Nat.mul_le_mul_right _ less)
      rw [compared]
      rcases Nat.lt_trichotomy place otherPlace with less | rfl | more
      · have := places less
        omega
      · omega
      · have := places more
        omega

/-- Only an undefined number has bits beyond those of infinity. -/
theorem reads_of_nonnegative {number : Float} (nonnegative : isNegative number = false)
    (bound : magnitudeBits number ≤ infinityBits) :
    Reads (magnitudeBits number) number.toModel.unpack := by
  have mantissa := toNat_unpackMantissa number
  have exponent := toNat_unpackExponent number
  have leading := toNat_significand number
  have sign := (unpackSign_eq_zero_iff number).mpr nonnegative
  have split := Nat.div_add_mod' (magnitudeBits number) hiddenBit
  have short : magnitudeBits number % hiddenBit < hiddenBit := Nat.mod_lt _ (by decide)
  unfold Float.Model.unpack UnpackedFloat.unpack
  generalize number.toModel.toBits.toBitVec = bits at *
  dsimp only
  rw [sign, show UnpackedFloat.Sign.ofBitVec 0#1 = .positive from rfl]
  have top : @UnpackedFloat.unpackExponent Format.binary64 bits = -1#_ ↔
      magnitudeBits number / hiddenBit = 2047 := by
    rw [← BitVec.toNat_inj, exponent]
    rfl
  have bottom : @UnpackedFloat.unpackExponent Format.binary64 bits = 0#_ ↔
      magnitudeBits number / hiddenBit = 0 := by
    rw [← BitVec.toNat_inj, exponent]
    rfl
  have plain : @UnpackedFloat.unpackMantissa Format.binary64 bits = 0#_ ↔
      magnitudeBits number % hiddenBit = 0 := by
    rw [← BitVec.toNat_inj, mantissa]
    rfl
  by_cases special : magnitudeBits number / hiddenBit = 2047
  · have whole : magnitudeBits number = infinityBits := by
      rw [special] at split
      exact le_antisymm bound (Nat.le.intro split)
    rw [if_pos (top.mpr special), if_pos (plain.mpr (by rw [whole]; decide)), whole]
    exact .infinity
  · rw [if_neg (mt top.mp special)]
    have finite : magnitudeBits number < infinityBits := by
      refine lt_of_le_of_ne bound fun whole => special ?_
      rw [whole]
      decide
    by_cases subnormal : magnitudeBits number / hiddenBit = 0
    · rw [if_pos (bottom.mpr subnormal)]
      rw [subnormal, Nat.zero_mul, Nat.zero_add] at split
      by_cases nothing : magnitudeBits number % hiddenBit = 0
      · rw [dif_pos (plain.mpr nothing), ← split, nothing]
        exact .zero
      · rw [dif_neg (mt plain.mp nothing)]
        refine .finite 0 finite (by omega) ?_ (by omega) (Or.inl rfl)
        rw [exponent, subnormal]
        rfl
    · rw [if_neg (mt bottom.mp subnormal)]
      rcases Nat.exists_eq_succ_of_ne_zero subnormal with ⟨place, upper⟩
      rw [upper, Nat.succ_mul] at split
      refine .finite place finite (by omega) ?_ (by omega) (Or.inr (by omega))
      rw [exponent, upper, show (Format.binary64.exponentBias : ℤ) = 1023 from rfl, finestScale]
      push_cast
      ring

theorem toBits_ofMagnitude {bits : ℕ} (bound : bits ≤ infinityBits) :
    (ofMagnitude false bits).toBits.toNat = bits := by
  have small : bits < 2 ^ 64 := bound.trans_lt (by decide)
  have spelled : (UInt64.ofNat bits).toNat = bits := UInt64.toNat_ofNat_of_lt' small
  have valid : Format.binary64.Valid (UInt64.ofNat bits).toBitVec := by
    refine ⟨fun special nonzero => ?_⟩
    have exponent : bits % 2 ^ 64 / 2 ^ 52 % 2 ^ 11 = 2047 := by
      simpa [UnpackedFloat.unpackExponent, Nat.shiftRight_eq_div_pow] using
        congrArg BitVec.toNat special
    have mantissa : ¬ bits % 2 ^ 52 = 0 := by
      simpa [UnpackedFloat.unpackMantissa] using mt BitVec.toNat_inj.mp nonzero
    rw [infinityBits, show hiddenBit = 2 ^ 52 from rfl] at bound
    omega
  have packed := UnpackedFloat.pack_unpack_of_valid valid
  have read : (ofMagnitude false bits).toBits = UInt64.ofBitVec (UnpackedFloat.pack
    Format.binary64 (UnpackedFloat.unpack Format.binary64 (UInt64.ofNat bits).toBitVec)) := rfl
  rw [read, packed]
  exact spelled
theorem reads_ofMagnitude {bits : ℕ} (bound : bits ≤ infinityBits) :
    Reads bits (ofMagnitude false bits).toModel.unpack := by
  have same := toBits_ofMagnitude bound
  have low : bits < signBit := bound.trans_lt (by decide)
  have magnitude : magnitudeBits (ofMagnitude false bits) = bits := by
    rw [magnitudeBits, same, Nat.mod_eq_of_lt low]
  have nonnegative : isNegative (ofMagnitude false bits) = false := by
    rw [isNegative, same]
    exact decide_eq_false (Nat.not_le.mpr low)
  have reads := reads_of_nonnegative nonnegative (magnitude.trans_le bound)
  rwa [magnitude] at reads

theorem ofMagnitude_lt_iff {first second : ℕ} (bound : first ≤ infinityBits)
    (otherBound : second ≤ infinityBits) :
    ofMagnitude false first < ofMagnitude false second ↔ first < second := by
  have compared : ofMagnitude false first < ofMagnitude false second ↔
      (ofMagnitude false first).toModel.unpack.lt (ofMagnitude false second).toModel.unpack =
        true := decide_eq_true_iff
  rw [compared]
  exact (reads_ofMagnitude bound).lt_iff (reads_ofMagnitude otherBound)

/-! ## Whole parts -/

theorem nearestBits_le (dividend divisor : ℕ) : nearestBits dividend divisor ≤ infinityBits :=
  Nat.min_le_left _ _

/-- What is less than a whole part as a double is less than it. -/
theorem lt_wholePart_of_ofNat_lt {count : ℕ} {number : Float} (finite : number.isFinite = true)
    (less : ofNat count < floorPositive number) : count < wholePart number := by
  have bits := (ofMagnitude_lt_iff (nearestBits_le count 1) (nearestBits_le _ 1)).mp less
  by_contra notLess
  exact Nat.not_lt.mpr
    ((isDouble_wholePart finite).nearestBits_mono (Nat.le_of_not_lt notLess)) bits

/-- Up to `2 ^ 53`, a number is compared with a whole part exactly. -/
theorem ofNat_lt_floorPositive_iff {count : ℕ} {number : Float} (finite : number.isFinite = true)
    (exact : count ≤ 2 ^ 53) : ofNat count < floorPositive number ↔ count < wholePart number :=
  (ofMagnitude_lt_iff (nearestBits_le count 1) (nearestBits_le _ 1)).trans
    ((isDouble_of_le exact).nearestBits_lt_iff (isDouble_wholePart finite))

end Number
end MotionBlocks
