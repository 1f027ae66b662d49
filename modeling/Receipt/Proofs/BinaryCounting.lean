import Receipt.Proofs.Counting
import Receipt.Proofs.Extent

/-!
# Whole numbers among the binary ones

A whole number of no more than 53 bits is taken to its own digits, with the first one in front
(`Rounding.unpack_ofNat_short`); a longer one is rounded to a number whose last place is above the
units (`Rounding.unpack_ofNat_long`). So short whole numbers are compared with all others as they
should be (`Rounding.lt_iff_of_isWhole`), their sums and differences are exact
(`Rounding.ofNat_add_ofNat`, `Rounding.ofNat_sub_ofNat`), and cutting one gives it back
(`Binary.truncate_ofNat`).

Together this is `Scalar.Counts.binary`: binary numbers count up to `2 ^ 53 - 1`.
-/

namespace Receipt

namespace Rounding

open Float.Model Float.Model.UnpackedFloat

/-- The significand of a whole number, with the first bit in its place. -/
def wholeSignificand (n : Nat) : Nat := n * 2 ^ (52 - n.log2)

/-- Where the significand of a whole number ends. -/
def wholePlace (n : Nat) : Int := n.log2 - 52

theorem log2_mul_two_pow {n : Nat} (positive : n ≠ 0) (places : Nat) :
    (n * 2 ^ places).log2 = n.log2 + places := by
  rw [Nat.log2_eq_iff (Nat.mul_ne_zero positive (Nat.two_pow_pos _).ne')]
  have low : 2 ^ n.log2 ≤ n := Nat.log2_self_le positive
  have high : n < 2 ^ (n.log2 + 1) := Nat.lt_log2_self
  have next : n.log2 + places + 1 = n.log2 + 1 + places := by omega
  rw [next, Nat.pow_add 2 n.log2 places, Nat.pow_add 2 (n.log2 + 1) places]
  exact ⟨Nat.mul_le_mul_right _ low, Nat.mul_lt_mul_of_pos_right high (Nat.two_pow_pos _)⟩

theorem log2_of_bits {n : Nat} (low : 2 ^ 52 ≤ n) (high : n < 2 ^ 53) : n.log2 = 52 := by
  have : n ≠ 0 := by omega
  exact (Nat.log2_eq_iff this).2 ⟨low, high⟩

theorem log2_le_of_short {n : Nat} (short : n < 2 ^ 53) : n.log2 ≤ 52 := by
  rcases Nat.eq_zero_or_pos n with rfl | positive
  · decide
  · exact Nat.le_of_lt_succ ((Nat.log2_lt (Nat.ne_of_gt positive)).2 short)

theorem bits_wholeSignificand {n : Nat} (positive : n ≠ 0) (short : n < 2 ^ 53) :
    2 ^ 52 ≤ wholeSignificand n ∧ wholeSignificand n < 2 ^ 53 := by
  have few := log2_le_of_short short
  have low : 2 ^ n.log2 ≤ n := Nat.log2_self_le positive
  have high : n < 2 ^ (n.log2 + 1) := Nat.lt_log2_self
  have places : 52 = n.log2 + (52 - n.log2) := by omega
  unfold wholeSignificand
  constructor
  · calc 2 ^ 52 = 2 ^ n.log2 * 2 ^ (52 - n.log2) := by rw [← Nat.pow_add, ← places]
      _ ≤ n * 2 ^ (52 - n.log2) := Nat.mul_le_mul_right _ low
  · calc n * 2 ^ (52 - n.log2) < 2 ^ (n.log2 + 1) * 2 ^ (52 - n.log2) :=
        Nat.mul_lt_mul_of_pos_right high (Nat.two_pow_pos _)
      _ = 2 ^ 53 := by rw [← Nat.pow_add]; congr 1; omega

/-! ## Shifting -/

theorem shiftRight_succ (extended : ExtendedMantissa) (places : Nat) :
    extended >>> (places + 1) = (extended >>> places).shiftRightOne := rfl

/-- Zeros at the end are shifted out without a trace. -/
theorem shiftRight_exact (mantissa places : Nat) :
    (ExtendedMantissa.ofMantissaAndAccuracy (mantissa * 2 ^ places) .exact) >>> places =
      .ofMantissaAndAccuracy mantissa .exact := by
  induction places generalizing mantissa with
  | zero => rw [Nat.pow_zero, Nat.mul_one]; rfl
  | succ places ih =>
    rw [shiftRight_succ, Nat.pow_succ', ← Nat.mul_assoc, ih]
    unfold ExtendedMantissa.shiftRightOne ExtendedMantissa.ofMantissaAndAccuracy
    simp

theorem mantissa_shiftRight (extended : ExtendedMantissa) (places : Nat) :
    (extended >>> places).mantissa = extended.mantissa / 2 ^ places := by
  induction places with
  | zero => rw [Nat.pow_zero, Nat.div_one]; rfl
  | succ places ih =>
    rw [shiftRight_succ, Nat.pow_succ, ← Nat.div_div_eq_div_mul, ← ih]
    rfl

theorem targetExponent_of_normal (mantissa : Nat) (exponent : Int)
    (low : -1074 ≤ (mantissa.log2 : Int) + exponent - 52) :
    Format.binary64.targetExponent (totalExponent mantissa exponent) =
      mantissa.log2 + exponent - 52 := by
  simp only [Format.targetExponent, totalExponent, Format.mantissaBits, Format.minExponent]
  omega

theorem shiftToTargetExponent_of_normal {mantissa places : Nat} {exponent : Int}
    {accuracy : Accuracy}
    (bits : mantissa.log2 = 52 + places) (low : -1074 ≤ exponent + places) :
    shiftToTargetExponent .binary64 mantissa exponent accuracy =
      (ExtendedMantissa.ofMantissaAndAccuracy mantissa accuracy >>> places, exponent + places) := by
  unfold shiftToTargetExponent shiftToExponent
  rw [targetExponent_of_normal mantissa exponent (by omega), bits]
  have amount : (((52 + places : Nat) : Int) + exponent - 52 - exponent).toNat = places := by omega
  dsimp only
  rw [amount]

/-- A value of 53 bits is kept by rounding. -/
theorem roundWithAccuracy_exact {sign : Sign} {mantissa places : Nat} {exponent : Int}
    (low : 2 ^ 52 ≤ mantissa) (high : mantissa < 2 ^ 53) (place : -1074 ≤ exponent + places) :
    roundWithAccuracy .binary64 sign (mantissa * 2 ^ places) exponent .exact =
      .finite sign mantissa (exponent + places) (by omega) := by
  have bits : mantissa.log2 = 52 + 0 := log2_of_bits low high
  have all : (mantissa * 2 ^ places).log2 = 52 + places := by
    rw [log2_mul_two_pow (by omega), bits]
  unfold roundWithAccuracy
  rw [shiftToTargetExponent_of_normal all place, shiftRight_exact]
  dsimp only
  have rounded :
      (ExtendedMantissa.ofMantissaAndAccuracy mantissa .exact).roundedMantissa = mantissa := rfl
  rw [rounded, shiftToTargetExponent_of_normal bits (by omega)]
  have kept :
      (ExtendedMantissa.ofMantissaAndAccuracy mantissa .exact >>> 0).mantissa = mantissa := rfl
  simp only [kept]
  rw [dif_neg (by omega)]
  simp

theorem mantissa_le_roundedMantissa (extended : ExtendedMantissa) :
    extended.mantissa ≤ extended.roundedMantissa := by
  obtain ⟨mantissa, roundBit, stickyBit⟩ := extended
  cases roundBit <;> cases stickyBit
  · exact Nat.le_refl _
  · exact Nat.le_refl _
  · exact Nat.le_add_right _ _
  · exact Nat.le_succ _

theorem roundedMantissa_le_succ (extended : ExtendedMantissa) :
    extended.roundedMantissa ≤ extended.mantissa + 1 :=
  (roundedMantissa_le_ceiling extended).trans
    (Nat.add_le_add_left (Bool.toNat_le _) _)

/-- A value of more bits is rounded to one of 53. -/
theorem roundWithAccuracy_normal (sign : Sign) {mantissa places : Nat} (exponent : Int)
    (bits : mantissa.log2 = 52 + places) (place : -1074 ≤ exponent + places) :
    ∃ rounded target positive,
      roundWithAccuracy .binary64 sign mantissa exponent .exact =
        .finite sign rounded target positive ∧
      2 ^ 52 ≤ rounded ∧ rounded < 2 ^ 53 ∧ exponent + places ≤ target := by
  have nonzero : mantissa ≠ 0 := by
    rintro rfl
    rw [Nat.log2_zero] at bits
    omega
  have cut := mantissa_shiftRight (.ofMantissaAndAccuracy mantissa .exact) places
  unfold roundWithAccuracy
  rw [shiftToTargetExponent_of_normal bits place]
  dsimp only
  generalize ExtendedMantissa.ofMantissaAndAccuracy mantissa .exact >>> places = shifted at *
  change shifted.mantissa = mantissa / 2 ^ places at cut
  obtain ⟨least, most⟩ := (Nat.log2_eq_iff nonzero).1 bits
  have low : 2 ^ 52 ≤ shifted.mantissa := by
    rw [cut, Nat.le_div_iff_mul_le (Nat.two_pow_pos _), ← Nat.pow_add]
    exact least
  have high : shifted.mantissa < 2 ^ 53 := by
    rw [cut, Nat.div_lt_iff_lt_mul (Nat.two_pow_pos _), ← Nat.pow_add]
    have next : 53 + places = 52 + places + 1 := by omega
    rwa [next]
  have above := mantissa_le_roundedMantissa shifted
  have below := roundedMantissa_le_succ shifted
  generalize shifted.roundedMantissa = rounded at *
  rcases Nat.lt_or_ge rounded (2 ^ 53) with short | full
  · have own : rounded.log2 = 52 + 0 := log2_of_bits (by omega) short
    rw [shiftToTargetExponent_of_normal own (by omega)]
    have kept :
        (ExtendedMantissa.ofMantissaAndAccuracy rounded .exact >>> 0).mantissa = rounded := rfl
    simp only [kept]
    rw [dif_neg (by omega)]
    exact ⟨rounded, _, by omega, rfl, by omega, short, by omega⟩
  · obtain rfl : rounded = 2 ^ 53 := by omega
    have own : (2 ^ 53).log2 = 52 + 1 := by decide
    rw [shiftToTargetExponent_of_normal own (by omega)]
    have kept :
        (ExtendedMantissa.ofMantissaAndAccuracy (2 ^ 53) .exact >>> 1).mantissa = 2 ^ 52 := rfl
    simp only [kept]
    rw [dif_neg (by decide)]
    exact ⟨2 ^ 52, _, by decide, rfl, by decide, by decide, by omega⟩

/-! ## Packing -/

/-- A number with a significand of 53 bits is unpacked as it was packed. -/
theorem unpack_pack_normal (sign : Sign) {mantissa : Nat} {exponent : Int} (positive : 0 < mantissa)
    (low : 2 ^ 52 ≤ mantissa) (high : mantissa < 2 ^ 53) (lowest : -1074 ≤ exponent)
    (highest : exponent ≤ 971) :
    UnpackedFloat.unpack .binary64
        (UnpackedFloat.pack .binary64 (.finite sign mantissa exponent positive)) =
      .finite sign mantissa exponent positive := by
  have bits : mantissa.log2 + 1 = Format.binary64.mantissaBits := by
    rw [log2_of_bits low high]
    rfl
  unfold UnpackedFloat.pack
  dsimp only [Format.exponentBias]
  rw [if_neg (by omega), if_pos bits]
  generalize field : exponent + ((2 ^ (11 - 1) - 1 : Nat) : Int) + ((52 : Nat) : Int) = biased
  unfold UnpackedFloat.unpack
  simp only [unpackExponent_packComponents, unpackMantissa_packComponents,
    unpackSign_packComponents, Sign.ofBitVec_toBitVec]
  have known : (BitVec.ofNat 11 biased.toNat).toNat = biased.toNat := by
    rw [BitVec.toNat_ofNat]
    exact Nat.mod_eq_of_lt (by omega)
  have notFull : BitVec.ofNat 11 biased.toNat ≠ -1#11 := by
    intro full
    have value := congrArg BitVec.toNat full
    rw [known] at value
    change _ = 2047 at value
    omega
  have notNone : BitVec.ofNat 11 biased.toNat ≠ 0#11 := by
    intro none
    have value := congrArg BitVec.toNat none
    rw [known] at value
    change _ = 0 at value
    omega
  rw [if_neg notFull, if_neg notNone]
  have fraction : (1#1 ++ BitVec.ofNat 52 mantissa).toNat = mantissa := by
    rw [toNat_hiddenBit, BitVec.toNat_ofNat]
    omega
  have place : ((BitVec.ofNat 11 biased.toNat).toNat : Int) -
      (((Format.binary64.exponentBias : Nat) : Int) + ((52 : Nat) : Int)) = exponent := by
    rw [known]
    simp only [Format.exponentBias]
    omega
  simp only [fraction, place]

/-- A number with a significand of 53 bits that is too large is infinite when it is packed. -/
theorem unpack_pack_overflow (sign : Sign) {mantissa : Nat} {exponent : Int}
    (positive : 0 < mantissa) (beyond : 971 < exponent) :
    UnpackedFloat.unpack .binary64
        (UnpackedFloat.pack .binary64 (.finite sign mantissa exponent positive)) =
      .infinity sign := by
  unfold UnpackedFloat.pack
  dsimp only [Format.exponentBias]
  rw [if_pos (by omega)]
  cases sign <;> rfl

theorem unpack_inj {x y : Float} (same : x.toModel.unpack = y.toModel.unpack) : x = y := by
  obtain ⟨bits, valid⟩ := x
  obtain ⟨others, also⟩ := y
  have equal := (unpack_inj_of_valid valid also).1 same
  congr 2
  exact UInt64.toBitVec_inj.1 equal

/-! ## Whole numbers -/

/-- A whole number of no more than 53 bits is kept, in whatever unit it is given. -/
theorem round_whole {sign : Sign} {n : Nat} (positive : n ≠ 0) (short : n < 2 ^ 53) {unit : Nat}
    (small : unit ≤ 1000) :
    UnpackedFloat.round .binary64 sign (n * 2 ^ unit) (-unit) =
      .finite sign (wholeSignificand n) (wholePlace n)
        (Nat.lt_of_lt_of_le (by decide) (bits_wholeSignificand positive short).1) := by
  have few := log2_le_of_short short
  have bits := log2_mul_two_pow positive unit
  obtain ⟨low, high⟩ := bits_wholeSignificand positive short
  have target := targetExponent_of_normal (n * 2 ^ unit) (-unit) (by omega)
  rw [bits] at target
  unfold UnpackedFloat.round decreaseExponent
  rw [target]
  dsimp only
  generalize amount : (-(unit : Int) - (((n.log2 + unit : Nat) : Int) + -unit - 52)).toNat = more
  have scaled :
      (n * 2 ^ unit) <<< more = wholeSignificand n * 2 ^ (unit + more - (52 - n.log2)) := by
    rw [Nat.shiftLeft_eq, wholeSignificand, Nat.mul_assoc, Nat.mul_assoc, ← Nat.pow_add,
      ← Nat.pow_add]
    congr 2
    omega
  rw [scaled, roundWithAccuracy_exact low high (by omega)]
  have place : -(unit : Int) - more + (unit + more - (52 - n.log2) : Nat) = wholePlace n := by
    unfold wholePlace
    omega
  simp only [place]

/-- The significand and the place that a whole number above zero is taken to: its own if it is
short, and others that are larger if it is not. -/
inductive Magnitude (n : Nat) : Nat → Int → Prop
  | short (small : n < 2 ^ 53) : Magnitude n (wholeSignificand n) (wholePlace n)
  | long {mantissa : Nat} {exponent : Int} (large : 2 ^ 53 ≤ n) (place : 1 ≤ exponent) :
    Magnitude n mantissa exponent

/-- The data that whole numbers are taken to. -/
inductive IsWhole : Int → UnpackedFloat → Prop
  | zero : IsWhole 0 (.zero .positive)
  | positive {n mantissa : Nat} {exponent : Int} {positive : 0 < mantissa} (above : 0 < n)
      (own : Magnitude n mantissa exponent) :
      IsWhole n (.finite .positive mantissa exponent positive)
  | negative {n mantissa : Nat} {exponent : Int} {positive : 0 < mantissa} (above : 0 < n)
      (own : Magnitude n mantissa exponent) :
      IsWhole (-n) (.finite .negative mantissa exponent positive)

/-- The datum of a short whole number. -/
def wholeForm (n : Nat) : UnpackedFloat :=
  if h : n = 0 ∨ 2 ^ 53 ≤ n then .zero .positive
  else .finite .positive (wholeSignificand n) (wholePlace n)
    (Nat.lt_of_lt_of_le (by decide) (bits_wholeSignificand (by omega) (by omega)).1)

theorem wholeForm_zero : wholeForm 0 = .zero .positive := rfl

theorem wholeForm_pos {n : Nat} (positive : n ≠ 0) (short : n < 2 ^ 53) :
    wholeForm n = .finite .positive (wholeSignificand n) (wholePlace n)
      (Nat.lt_of_lt_of_le (by decide) (bits_wholeSignificand positive short).1) :=
  dif_neg (by omega)

theorem unpack_pack_wholeForm (n : Nat) (short : n < 2 ^ 53) :
    UnpackedFloat.unpack .binary64 (UnpackedFloat.pack .binary64 (wholeForm n)) = wholeForm n := by
  rcases Nat.eq_zero_or_pos n with rfl | positive
  · exact unpack_packedZero
  · have nonzero : n ≠ 0 := by omega
    obtain ⟨low, high⟩ := bits_wholeSignificand nonzero short
    have few := log2_le_of_short short
    rw [wholeForm_pos nonzero short]
    exact unpack_pack_normal _ _ low high (by unfold wholePlace; omega)
      (by unfold wholePlace; omega)

/-- A short whole number in a unit is normalized to its form. -/
theorem normalize_whole (n : Nat) (short : n < 2 ^ 53) (unit : Nat) (small : unit ≤ 1000) :
    UnpackedFloat.normalize .binary64 (n * 2 ^ unit : Nat) (-unit) .positive = wholeForm n := by
  unfold UnpackedFloat.normalize
  rcases Nat.eq_zero_or_pos n with rfl | positive
  · rw [Nat.zero_mul]
    rfl
  · have nonzero : n ≠ 0 := by omega
    have above : (0 : Int) < (n * 2 ^ unit : Nat) :=
      Int.natCast_pos.2 (Nat.mul_pos positive (Nat.two_pow_pos _))
    rw [Int.compare_eq_gt.2 above]
    dsimp only
    rw [Int.toNat_natCast, round_whole nonzero short small, wholeForm_pos nonzero short]

theorem unpack_toFloat {n : Nat} (short : n < 2 ^ 53) :
    n.toUInt64.toFloat.toModel.unpack = wholeForm n := by
  have same : n.toUInt64.toNat = n := Nat.mod_eq_of_lt (by omega)
  show UnpackedFloat.unpack .binary64 (UnpackedFloat.pack .binary64
    (UnpackedFloat.normalize .binary64 (n.toUInt64.toNat : Nat) 0 .positive)) = _
  have normal := normalize_whole n short 0 (by decide)
  rw [Nat.pow_zero, Nat.mul_one] at normal
  rw [same]
  exact (congrArg _ (congrArg _ normal)).trans (unpack_pack_wholeForm n short)

theorem mul_one_wholeForm {n : Nat} (short : n < 2 ^ 53) :
    (wholeForm n).mul .binary64 (.finite .positive (2 ^ 52) (-52) (by decide)) = wholeForm n := by
  rcases Nat.eq_zero_or_pos n with rfl | positive
  · rfl
  · have nonzero : n ≠ 0 := by omega
    obtain ⟨low, high⟩ := bits_wholeSignificand nonzero short
    have lowest : -1074 ≤ wholePlace n + -52 + (52 : Nat) := by
      unfold wholePlace
      omega
    have back : wholePlace n + -52 + (52 : Nat) = wholePlace n := by omega
    rw [wholeForm_pos nonzero short]
    refine (roundWithAccuracy_exact low high lowest).trans ?_
    simp only [back]
    rfl

theorem unpack_ofNat_short {n : Nat} (short : n < 2 ^ 53) :
    (Float.ofNat n).toModel.unpack = wholeForm n := by
  have direct : Float.ofNat n = n.toUInt64.toFloat * Float.ofBits 0x3FF0000000000000 :=
    dif_pos ⟨short, by decide⟩
  have one : (Float.ofBits 0x3FF0000000000000).toModel.unpack =
      .finite .positive (2 ^ 52) (-52) (by decide) := rfl
  rw [direct]
  show UnpackedFloat.unpack .binary64 (UnpackedFloat.pack .binary64
    (n.toUInt64.toFloat.toModel.unpack.mul .binary64
      (Float.ofBits 0x3FF0000000000000).toModel.unpack)) = _
  rw [unpack_toFloat short, one, mul_one_wholeForm short, unpack_pack_wholeForm n short]

theorem unpack_ofNat_long {n : Nat} (long : 2 ^ 53 ≤ n) (finite : (Float.ofNat n).isFinite = true) :
    ∃ mantissa exponent positive, 1 ≤ exponent ∧
      (Float.ofNat n).toModel.unpack = .finite .positive mantissa exponent positive := by
  have nonzero : n ≠ 0 := by omega
  have scaled : Float.ofNat n = Float.ofModel (Float.Model.ofScientific n 0) :=
    dif_neg fun fast => absurd fast.1 (by omega)
  have digits : 53 ≤ n.log2 := (Nat.le_log2 nonzero).2 long
  have bits : (n <<< 53 * 10 ^ (0 : Int).toNat).log2 = 52 + (n.log2 + 1) := by
    rw [Int.toNat_zero, Nat.pow_zero, Nat.mul_one, Nat.shiftLeft_eq, log2_mul_two_pow nonzero]
    omega
  obtain ⟨mantissa, exponent, positive, rounded, low, high, place⟩ :=
    roundWithAccuracy_normal .positive (-53 + 0) bits (by omega)
  have form : (Float.ofNat n).toModel.unpack = UnpackedFloat.unpack .binary64
      (UnpackedFloat.pack .binary64 (.finite .positive mantissa exponent positive)) := by
    rw [scaled, ← rounded]
    show UnpackedFloat.unpack .binary64 (UnpackedFloat.pack .binary64
      (UnpackedFloat.ofScientific .binary64 n 0)) = _
    unfold UnpackedFloat.ofScientific
    rw [dif_neg nonzero, if_neg (by decide), if_neg (by simp), if_pos (by decide)]
    rfl
  by_cases fits : exponent ≤ 971
  · rw [unpack_pack_normal _ _ low high (by omega) fits] at form
    exact ⟨mantissa, exponent, positive, by omega, form⟩
  · have overflow := unpack_pack_overflow .positive positive (by omega : 971 < exponent)
    have infinite : (Float.ofNat n).toModel.unpack.isFinite = false := by
      rw [form, overflow]
      rfl
    exact absurd (infinite.symm.trans finite) Bool.false_ne_true

theorem Magnitude.place {n mantissa : Nat} {exponent : Int} (own : Magnitude n mantissa exponent) :
    -52 ≤ exponent := by
  cases own with
  | short small =>
    unfold wholePlace
    omega
  | long large place => omega

theorem isWhole_ofNat {n : Nat} (finite : (Float.ofNat n).isFinite = true) :
    IsWhole n (Float.ofNat n).toModel.unpack := by
  rcases Nat.lt_or_ge n (2 ^ 53) with short | long
  · rw [unpack_ofNat_short short]
    rcases Nat.eq_zero_or_pos n with rfl | positive
    · exact .zero
    · rw [wholeForm_pos (by omega) short]
      exact .positive positive (.short short)
  · obtain ⟨mantissa, exponent, positive, place, form⟩ := unpack_ofNat_long long finite
    rw [form]
    exact .positive (by omega) (.long long place)

theorem isFinite_of_neg {x : Float} (finite : (Float.neg x).isFinite = true) :
    x.isFinite = true := by
  change (UnpackedFloat.unpack .binary64
    (UnpackedFloat.pack .binary64 x.toModel.unpack.neg)).isFinite = true at finite
  show x.toModel.unpack.isFinite = true
  generalize x.toModel.unpack = unpacked at *
  cases unpacked with
  | infinity sign => cases sign <;> cases finite
  | notANumber => cases finite
  | zero sign => rfl
  | finite sign mantissa exponent positive => rfl

theorem isWhole_ofInt {i : Int} (finite : (Float.ofInt i).isFinite = true) :
    IsWhole i (Float.ofInt i).toModel.unpack := by
  cases i with
  | ofNat n => exact isWhole_ofNat finite
  | negSucc n =>
    have own := isWhole_ofNat (isFinite_of_neg finite)
    have canonical := canonical_unpack (Float.ofNat (n + 1)).toModel.toBits.toBitVec
    change Canonical (Float.ofNat (n + 1)).toModel.unpack at canonical
    show IsWhole (.negSucc n) (UnpackedFloat.unpack .binary64
      (UnpackedFloat.pack .binary64 (Float.ofNat (n + 1)).toModel.unpack.neg))
    generalize (Float.ofNat (n + 1)).toModel.unpack = unpacked at *
    generalize same : ((n + 1 : Nat) : Int) = whole at own
    cases own with
    | zero => omega
    | negative some magnitude => omega
    | @positive _ mantissa exponent positive some magnitude =>
      obtain rfl : n + 1 = _ := Int.ofNat.inj same
      have place := magnitude.place
      obtain ⟨high, lowest, highest, low⟩ := canonical
      have back := unpack_pack_normal .negative positive (by omega) high lowest highest
      exact (congrArg (IsWhole _) back).mpr (.negative some magnitude)

/-! ### Comparing -/

theorem lt_of_log2_lt {a b : Nat} (nonzero : b ≠ 0) (below : a.log2 < b.log2) : a < b :=
  calc a < 2 ^ (a.log2 + 1) := Nat.lt_log2_self
    _ ≤ 2 ^ b.log2 := Nat.pow_le_pow_right (by decide) below
    _ ≤ b := Nat.log2_self_le nonzero

theorem wholePlace_lt_iff {a b : Nat} : wholePlace a < wholePlace b ↔ a.log2 < b.log2 := by
  unfold wholePlace
  omega

theorem wholePlace_lt_one {n : Nat} (short : n < 2 ^ 53) : wholePlace n < 1 := by
  have few := log2_le_of_short short
  unfold wholePlace
  omega

/-- Places and significands are in the order of the whole numbers, if one of these is short. -/
theorem lt_finite_iff_of_magnitude {a b first second : Nat} {place other : Int}
    {some : 0 < first} {also : 0 < second} (own : Magnitude a first place)
    (others : Magnitude b second other) (positive : a ≠ 0) (nonzero : b ≠ 0)
    (counted : a < 2 ^ 53 ∨ b < 2 ^ 53) :
    UnpackedFloat.lt (.finite .positive first place some) (.finite .positive second other also) =
      true ↔ a < b := by
  rw [lt_finite_iff]
  cases own with
  | long large above =>
    cases others with
    | long larger _ => omega
    | short small =>
      have lower := wholePlace_lt_one small
      exact iff_of_false (by omega) (by omega)
  | short small =>
    cases others with
    | long large above =>
      have lower := wholePlace_lt_one small
      exact iff_of_true (.inl (by omega)) (by omega)
    | short fits =>
      rcases Nat.lt_trichotomy a.log2 b.log2 with below | level | above
      · exact iff_of_true (.inl (wholePlace_lt_iff.2 below)) (lt_of_log2_lt nonzero below)
      · have same : wholePlace a = wholePlace b :=
          congrArg (fun digits : Nat => (digits : Int) - 52) level
        have scaled : wholeSignificand a < wholeSignificand b ↔ a < b := by
          unfold wholeSignificand
          rw [level]
          exact Nat.mul_lt_mul_right (Nat.two_pow_pos _)
        rw [← scaled]
        omega
      · have further := wholePlace_lt_iff.2 above
        exact iff_of_false (by omega) (lt_of_log2_lt positive above).not_gt

/-- Numbers below zero are in the opposite order. -/
theorem lt_negative_iff {mantissa other : Nat} {exponent place : Int} {positive : 0 < mantissa}
    {also : 0 < other} :
    UnpackedFloat.lt (.finite .negative mantissa exponent positive)
        (.finite .negative other place also) = true ↔
      UnpackedFloat.lt (.finite .positive other place also)
        (.finite .positive mantissa exponent positive) = true := by
  show (some ((compare exponent place).then (compare mantissa other)).swap == some Ordering.lt) =
      true ↔
    (some ((compare place exponent).then (compare other mantissa)) == some Ordering.lt) = true
  rw [Ordering.swap_then, Int.compare_swap, Nat.compare_swap]

/-- Data of whole numbers are in the order of these, if one of them is short. -/
theorem lt_iff_of_isWhole {i j : Int} {first second : UnpackedFloat} (own : IsWhole i first)
    (also : IsWhole j second) (counted : i.natAbs < 2 ^ 53 ∨ j.natAbs < 2 ^ 53) :
    first.lt second = true ↔ i < j := by
  cases own with
  | zero =>
    cases also with
    | zero => exact iff_of_false Bool.false_ne_true (by omega)
    | positive rest _ => exact iff_of_true rfl (by omega)
    | negative rest _ => exact iff_of_false Bool.false_ne_true (by omega)
  | @positive m mantissa exponent _ more own =>
    cases also with
    | zero => exact iff_of_false Bool.false_ne_true (by omega)
    | negative rest _ => exact iff_of_false Bool.false_ne_true (by omega)
    | @positive n other place _ rest also =>
      rw [lt_finite_iff_of_magnitude own also (by omega) (by omega) (by omega)]
      exact Int.ofNat_lt.symm
  | @negative m mantissa exponent _ more own =>
    cases also with
    | zero => exact iff_of_true rfl (by omega)
    | positive rest _ => exact iff_of_true rfl (by omega)
    | @negative n other place _ rest also =>
      rw [lt_negative_iff, lt_finite_iff_of_magnitude also own (by omega) (by omega) (by omega)]
      omega

/-! ### Adding and taking away -/

/-- The digits of a short whole number in a smaller unit. -/
theorem shiftLeft_wholeSignificand {k unit : Nat} (large : -(unit : Int) ≤ wholePlace k)
    (fits : k.log2 ≤ 52) :
    wholeSignificand k <<< (wholePlace k - -(unit : Int)).toNat = k * 2 ^ unit := by
  unfold wholePlace at large
  rw [Nat.shiftLeft_eq, wholeSignificand, Nat.mul_assoc, ← Nat.pow_add]
  congr 2
  unfold wholePlace
  omega

/-- The sum of two whole numbers is that of the numbers, when it is short. -/
theorem add_wholeForm {m n : Nat} (short : m + n < 2 ^ 53) :
    (wholeForm m).add .binary64 (wholeForm n) = wholeForm (m + n) := by
  rcases Nat.eq_zero_or_pos n with rfl | positive
  · rw [wholeForm_zero, Nat.add_zero]
    rcases Nat.eq_zero_or_pos m with rfl | more
    · rfl
    · rw [wholeForm_pos (by omega) (by omega)]
      rfl
  · rcases Nat.eq_zero_or_pos m with rfl | more
    · rw [wholeForm_zero, Nat.zero_add, wholeForm_pos (by omega) (by omega)]
      rfl
    · have few : m.log2 ≤ 52 := log2_le_of_short (by omega)
      have digits : n.log2 ≤ 52 := log2_le_of_short (by omega)
      rw [wholeForm_pos (by omega : m ≠ 0) (by omega), wholeForm_pos (by omega : n ≠ 0) (by omega)]
      unfold UnpackedFloat.add decreaseExponent
      dsimp only
      generalize lowest : min (wholePlace m) (wholePlace n) = smaller
      obtain ⟨unit, rfl⟩ : ∃ unit : Nat, smaller = -(unit : Int) := ⟨(-smaller).toNat, by
        unfold wholePlace at lowest
        omega⟩
      rw [shiftLeft_wholeSignificand (by omega) few, shiftLeft_wholeSignificand (by omega) digits]
      have total : Sign.positive.apply ((m * 2 ^ unit : Nat) : Int) +
          Sign.positive.apply ((n * 2 ^ unit : Nat) : Int) = (((m + n) * 2 ^ unit : Nat) : Int) := by
        show ((m * 2 ^ unit : Nat) : Int) + ((n * 2 ^ unit : Nat) : Int) = _
        rw [Nat.add_mul, Int.natCast_add]
      rw [total]
      exact normalize_whole (m + n) short unit (by unfold wholePlace at lowest; omega)

theorem ofNat_add_ofNat {m n : Nat} (short : m + n < 2 ^ 53) :
    Float.ofNat m + Float.ofNat n = Float.ofNat (m + n) := by
  refine unpack_inj ?_
  rw [unpack_ofNat_short short]
  show UnpackedFloat.unpack .binary64 (UnpackedFloat.pack .binary64
    ((Float.ofNat m).toModel.unpack.add .binary64 (Float.ofNat n).toModel.unpack)) = _
  rw [unpack_ofNat_short (by omega), unpack_ofNat_short (by omega), add_wholeForm short,
    unpack_pack_wholeForm _ short]

/-- The difference of two short whole numbers is that of the numbers. -/
theorem sub_wholeForm {m n : Nat} (enough : n ≤ m) (short : m < 2 ^ 53) :
    (wholeForm m).sub .binary64 (wholeForm n) = wholeForm (m - n) := by
  rcases Nat.eq_zero_or_pos n with rfl | positive
  · rw [wholeForm_zero, Nat.sub_zero]
    rcases Nat.eq_zero_or_pos m with rfl | more
    · rfl
    · rw [wholeForm_pos (by omega) short]
      rfl
  · have few := log2_le_of_short (enough.trans_lt short)
    have digits := log2_le_of_short short
    rw [wholeForm_pos (by omega : m ≠ 0) short, wholeForm_pos (by omega : n ≠ 0) (by omega)]
    unfold UnpackedFloat.sub decreaseExponent
    dsimp only
    generalize lowest : min (wholePlace m) (wholePlace n) = smaller
    obtain ⟨unit, rfl⟩ : ∃ unit : Nat, smaller = -(unit : Int) := ⟨(-smaller).toNat, by
      unfold wholePlace at lowest
      omega⟩
    rw [shiftLeft_wholeSignificand (by omega) digits, shiftLeft_wholeSignificand (by omega) few]
    have difference : Sign.positive.apply ((m * 2 ^ unit : Nat) : Int) -
        Sign.positive.apply ((n * 2 ^ unit : Nat) : Int) = (((m - n) * 2 ^ unit : Nat) : Int) := by
      show ((m * 2 ^ unit : Nat) : Int) - ((n * 2 ^ unit : Nat) : Int) = _
      rw [Nat.sub_mul, Int.ofNat_sub (Nat.mul_le_mul_right _ enough)]
    rw [difference]
    exact normalize_whole (m - n) (by omega) unit (by unfold wholePlace at lowest; omega)

theorem ofNat_sub_ofNat {m n : Nat} (enough : n ≤ m) (short : m < 2 ^ 53) :
    Float.ofNat m - Float.ofNat n = Float.ofNat (m - n) := by
  refine unpack_inj ?_
  rw [unpack_ofNat_short (by omega)]
  show UnpackedFloat.unpack .binary64 (UnpackedFloat.pack .binary64
    ((Float.ofNat m).toModel.unpack.sub .binary64 (Float.ofNat n).toModel.unpack)) = _
  rw [unpack_ofNat_short short, unpack_ofNat_short (by omega), sub_wholeForm enough short,
    unpack_pack_wholeForm _ (by omega)]

end Rounding

/-! ## The exact value -/

namespace Binary

open Rounding Float.Model Float.Model.UnpackedFloat

/-- The value of the datum of a short whole number. -/
theorem ofFloat_ofNat {n : Nat} (short : n < 2 ^ 53) :
    ∃ mantissa exponent, ofFloat (Float.ofNat n) = .finite false mantissa exponent ∧
      (ratio mantissa exponent).1 = n * (ratio mantissa exponent).2 ∧
      (ratio mantissa exponent).2 ≠ 0 := by
  have power (k : Nat) : pow2 k = 2 ^ k := rfl
  rw [ofFloat_eq, unpack_ofNat_short short]
  rcases Nat.eq_zero_or_pos n with rfl | positive
  · refine ⟨0, -1074, rfl, ?_, ?_⟩
    · rw [ratio, if_neg (by decide), Nat.zero_mul]
    · rw [ratio, if_neg (by decide), power]
      exact (Nat.two_pow_pos _).ne'
  · have few := log2_le_of_short short
    rw [wholeForm_pos (by omega) short]
    refine ⟨_, _, rfl, ?_⟩
    unfold ratio wholePlace
    split
    · next whole =>
      have none : ((n.log2 : Int) - 52).toNat = 0 := by omega
      have full : 52 - n.log2 = 0 := by omega
      rw [wholeSignificand, none, full, power, Nat.pow_zero, Nat.mul_one, Nat.mul_one]
      exact ⟨rfl, Nat.one_ne_zero⟩
    · have places : (-((n.log2 : Int) - 52)).toNat = 52 - n.log2 := by omega
      rw [wholeSignificand, places, power]
      exact ⟨rfl, (Nat.two_pow_pos _).ne'⟩

theorem truncate_ofNat {n : Nat} (short : n < 2 ^ 53) :
    (ofFloat (Float.ofNat n)).truncate = .ok (n : Int) := by
  obtain ⟨mantissa, exponent, form, whole, positive⟩ := ofFloat_ofNat short
  rw [form]
  show Except.ok (((ratio mantissa exponent).1 / (ratio mantissa exponent).2 : Nat) : Int) = _
  rw [whole, Nat.mul_div_cancel _ (Nat.pos_of_ne_zero positive)]

theorem toRat?_ofNat {n : Nat} (short : n < 2 ^ 53) :
    (ofFloat (Float.ofNat n)).toRat? = some (n : Rat) := by
  obtain ⟨mantissa, exponent, form, whole, positive⟩ := ofFloat_ofNat short
  rw [form]
  show some (mkRat ((ratio mantissa exponent).1 : Nat) (ratio mantissa exponent).2) = _
  rw [whole, Rat.mkRat_eq_div]
  push_cast
  rw [mul_div_cancel_right₀ _ (Nat.cast_ne_zero.2 positive)]

end Binary

namespace Scalar

open Rounding

theorem stands_float {x : Float} {i : Int} (stands : Stands x i) :
    x = Float.ofInt i ∧ x.isFinite = true := by
  change floatOfInt i = .ok x at stands
  unfold floatOfInt at stands
  dsimp only at stands
  split at stands
  · next finite =>
    obtain rfl := Except.ok.inj stands
    exact ⟨rfl, finite⟩
  · cases stands

theorem stands_ofNat {n : Nat} (short : n < 2 ^ 53) : Stands (Float.ofNat n) n :=
  floatOfInt_eq_ok (isFinite_ofNat (le_limit short))

/-- The sum of two counts is counted when it is short. -/
theorem stands_add {x y : Float} {m n : Nat} (first : Stands x m) (second : Stands y n)
    (short : m + n < 2 ^ 53) : Stands (x + y) (m + n : Nat) := by
  obtain ⟨rfl, _⟩ := stands_float first
  obtain ⟨rfl, _⟩ := stands_float second
  show Stands (Float.ofNat m + Float.ofNat n) _
  rw [ofNat_add_ofNat short]
  exact stands_ofNat short

/-- Binary numbers count up to the last whole number of 53 bits. -/
theorem Counts.binary : Counts Float (2 ^ 53 - 1) where
  zero := LawfulZero.ofInt_zero
  lt_iff first second counted := by
    obtain ⟨rfl, finite⟩ := stands_float first
    obtain ⟨rfl, also⟩ := stands_float second
    refine Receipt.lt_iff.trans (lt_iff_of_isWhole (isWhole_ofInt finite) (isWhole_ofInt also) ?_)
    omega
  sub first second enough counted := by
    obtain ⟨rfl, _⟩ := stands_float first
    obtain ⟨rfl, _⟩ := stands_float second
    show Stands (Float.ofNat _ - Float.ofNat _) _
    rw [ofNat_sub_ofNat enough (by omega)]
    exact stands_ofNat (by omega)
  truncate stands counted := by
    obtain ⟨rfl, _⟩ := stands_float stands
    exact Binary.truncate_ofNat (by omega)

/-- What a binary number counts is its exact value. -/
theorem ofBinary_of_stands {x : Float} {n : Nat} (stands : Stands x n) (short : n < 2 ^ 53) :
    (Scalar.ofBinary x : Option Rat) = some (n : Rat) := by
  obtain ⟨rfl, _⟩ := stands_float stands
  exact Binary.toRat?_ofNat short

end Scalar

end Receipt
