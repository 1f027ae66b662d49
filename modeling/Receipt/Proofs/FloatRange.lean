import Mathlib
import Receipt.Proofs.LengthRange

/-!
# Binary numbers that stay finite

The largest binary number is `(2 ^ 53 - 1) · 2 ^ 971`, and `Rounding.limit exponent` is how often it holds
`2 ^ exponent`. The rounding that follows every operation goes up by no more than to the next whole
significand (`Rounding.ceiling`), so a result whose exact magnitude is within the limit is finite
(`Rounding.fits_roundWithAccuracy`).

So whole numbers within the limit have a binary number (`Rounding.isFinite_ofInt`), a twentieth of a
finite number is finite (`Rounding.isFinite_div_twenty`), and so is what is left of a number when no more
than that is taken away (`Rounding.fits_sub`).
-/

namespace Receipt

namespace Rounding

open Float.Model Float.Model.UnpackedFloat

/-- The significand of an exact value, taken to the next whole one when anything is left behind it. -/
def ceiling (extended : ExtendedMantissa) : Nat :=
  extended.mantissa + (extended.roundBit || extended.stickyBit).toNat

/-- The largest binary number in units of `2 ^ exponent`. -/
def limit (exponent : Int) : Nat := (2 ^ 53 - 1) * 2 ^ (971 - exponent).toNat

theorem limit_eq {exponent : Int} {places : Nat} (below : exponent + places ≤ 971) :
    limit exponent = limit (exponent + places) * 2 ^ places := by
  have split : (971 - exponent).toNat = (971 - (exponent + places)).toNat + places := by omega
  unfold limit
  rw [split, Nat.pow_add, Nat.mul_assoc]

theorem mul_le_limit {mantissa : Nat} {exponent : Int} (places : Nat) (below : exponent ≤ 971)
    (within : mantissa ≤ limit exponent) : mantissa * 2 ^ places ≤ limit (exponent - places) := by
  have back : exponent - places + places = exponent := by omega
  have scaled : limit (exponent - places) = limit exponent * 2 ^ places := by
    rw [limit_eq (Int.le_trans (Int.le_of_eq back) below), back]
  rw [scaled]
  exact Nat.mul_le_mul_right _ within

theorem le_limit {mantissa : Nat} {exponent : Int} (bits : mantissa < 2 ^ 53) :
    mantissa ≤ limit exponent :=
  (Nat.le_sub_one_of_lt bits).trans (Nat.le_mul_of_pos_right _ (Nat.two_pow_pos _))

theorem log2_of_le_limit {mantissa : Nat} {exponent : Int} (below : exponent ≤ 971)
    (within : mantissa ≤ limit exponent) : mantissa.log2 + exponent ≤ 1023 := by
  by_cases zero : mantissa = 0
  · subst zero
    rw [Nat.log2_zero]
    omega
  · have power : limit exponent < 2 ^ (53 + (971 - exponent).toNat) := by
      unfold limit
      rw [Nat.pow_add]
      exact Nat.mul_lt_mul_of_pos_right (by decide) (Nat.two_pow_pos _)
    have bits : mantissa.log2 < 53 + (971 - exponent).toNat :=
      (Nat.log2_lt zero).2 (Nat.lt_of_le_of_lt within power)
    omega

/-! ## Rounding -/

theorem ceiling_exact (mantissa : Nat) :
    ceiling (.ofMantissaAndAccuracy mantissa .exact) = mantissa := rfl

theorem ceiling_ofMantissaAndAccuracy_le (mantissa : Nat) (accuracy : Accuracy) :
    ceiling (.ofMantissaAndAccuracy mantissa accuracy) ≤ mantissa + 1 := by
  unfold ceiling ExtendedMantissa.ofMantissaAndAccuracy
  split <;> simp

theorem roundedMantissa_le_ceiling (extended : ExtendedMantissa) :
    extended.roundedMantissa ≤ ceiling extended := by
  obtain ⟨mantissa, roundBit, stickyBit⟩ := extended
  unfold ExtendedMantissa.roundedMantissa ExtendedMantissa.accuracy ceiling
  cases roundBit <;> cases stickyBit
  · exact Nat.le_refl _
  · exact Nat.le_succ _
  · show mantissa + mantissa % 2 ≤ mantissa + 1
    omega
  · exact Nat.le_refl _

theorem ceiling_shiftRightOne_le {extended : ExtendedMantissa} {bound : Nat}
    (below : ceiling extended ≤ bound * 2) : ceiling extended.shiftRightOne ≤ bound := by
  obtain ⟨mantissa, roundBit, stickyBit⟩ := extended
  unfold ceiling ExtendedMantissa.shiftRightOne at *
  dsimp only at *
  have small := Bool.toNat_le (mantissa % 2 != 0 || (roundBit || stickyBit))
  -- something is left behind only if the bit that drops out or one behind it is set
  have rest : (mantissa % 2 != 0 || (roundBit || stickyBit)).toNat ≤
      mantissa % 2 + (roundBit || stickyBit).toNat := by
    rcases Nat.mod_two_eq_zero_or_one mantissa with even | odd
    · rw [even, Nat.zero_add]
      exact Nat.le_refl _
    · exact small.trans (odd ▸ Nat.le_add_right _ _)
  omega

theorem ceiling_shiftRight_le {extended : ExtendedMantissa} {bound places : Nat}
    (below : ceiling extended ≤ bound * 2 ^ places) : ceiling (extended >>> places) ≤ bound := by
  induction places generalizing bound with
  | zero =>
    rw [Nat.pow_zero, Nat.mul_one] at below
    exact below
  | succ places ih =>
    refine ceiling_shiftRightOne_le (ih ?_)
    rwa [Nat.mul_assoc, ← Nat.pow_succ']

/-- Shifting keeps a value within the limit, counted in the units it is shifted to. -/
theorem ceiling_shiftToTargetExponent_le {mantissa : Nat} {exponent : Int} {accuracy : Accuracy}
    (below : exponent ≤ 971)
    (within : ceiling (.ofMantissaAndAccuracy mantissa accuracy) ≤ limit exponent) :
    (shiftToTargetExponent .binary64 mantissa exponent accuracy).2 ≤ 971 ∧
      ceiling (shiftToTargetExponent .binary64 mantissa exponent accuracy).1 ≤
        limit (shiftToTargetExponent .binary64 mantissa exponent accuracy).2 := by
  have whole : mantissa ≤ ceiling (.ofMantissaAndAccuracy mantissa accuracy) := by
    unfold ceiling ExtendedMantissa.ofMantissaAndAccuracy
    split <;> exact Nat.le_add_right _ _
  have bits := log2_of_le_limit below (whole.trans within)
  have inRange : Format.binary64.targetExponent (totalExponent mantissa exponent) ≤ 971 := by
    simp only [Format.targetExponent, totalExponent, Format.mantissaBits, Format.minExponent]
    omega
  unfold shiftToTargetExponent shiftToExponent
  generalize Format.binary64.targetExponent (totalExponent mantissa exponent) = target at *
  have places : exponent + (target - exponent).toNat ≤ 971 := by omega
  refine ⟨places, ceiling_shiftRight_le ?_⟩
  rwa [← limit_eq places]

/-! ## Unpacked numbers -/

/-- A finite number whose place is not too high to be packed. -/
inductive Fits : UnpackedFloat → Prop
  | zero (sign : Sign) : Fits (.zero sign)
  | finite {sign : Sign} {mantissa : Nat} {exponent : Int} {positive : 0 < mantissa}
    (place : exponent ≤ 971) : Fits (.finite sign mantissa exponent positive)

/-- A finite number that is not below zero. -/
inductive IsMagnitude : UnpackedFloat → Prop
  | zero (sign : Sign) : IsMagnitude (.zero sign)
  | finite (mantissa : Nat) (exponent : Int) (positive : 0 < mantissa) :
    IsMagnitude (.finite .positive mantissa exponent positive)

theorem fits_roundWithAccuracy {sign : Sign} {mantissa : Nat} {exponent : Int}
    {accuracy : Accuracy} (below : exponent ≤ 971)
    (within : ceiling (.ofMantissaAndAccuracy mantissa accuracy) ≤ limit exponent) :
    Fits (roundWithAccuracy .binary64 sign mantissa exponent accuracy) := by
  obtain ⟨first, rest⟩ := ceiling_shiftToTargetExponent_le below within
  unfold roundWithAccuracy
  generalize shiftToTargetExponent .binary64 mantissa exponent accuracy = shifted at *
  have kept : ceiling (.ofMantissaAndAccuracy shifted.1.roundedMantissa .exact) ≤ limit shifted.2 :=
    (roundedMantissa_le_ceiling shifted.1).trans rest
  have again := (ceiling_shiftToTargetExponent_le first kept).1
  dsimp only
  split
  · exact .zero sign
  · exact .finite again

theorem isMagnitude_roundWithAccuracy (mantissa : Nat) (exponent : Int) (accuracy : Accuracy) :
    IsMagnitude (roundWithAccuracy .binary64 .positive mantissa exponent accuracy) := by
  unfold roundWithAccuracy
  dsimp only
  split
  · exact .zero _
  · exact .finite _ _ _

theorem fits_round {sign : Sign} {mantissa : Nat} {exponent : Int} (below : exponent ≤ 971)
    (within : mantissa ≤ limit exponent) :
    Fits (UnpackedFloat.round .binary64 sign mantissa exponent) := by
  unfold UnpackedFloat.round decreaseExponent
  generalize Format.binary64.targetExponent (totalExponent mantissa exponent) = target
  dsimp only
  refine fits_roundWithAccuracy (by omega) ?_
  rw [ceiling_exact, Nat.shiftLeft_eq]
  exact mul_le_limit _ below within

theorem fits_mul {first second : Sign} {mantissa other : Nat} {exponent place : Int}
    {positive : 0 < mantissa} {also : 0 < other} (below : exponent + place ≤ 971)
    (within : mantissa * other ≤ limit (exponent + place)) :
    Fits (UnpackedFloat.mul .binary64 (.finite first mantissa exponent positive)
      (.finite second other place also)) := fits_roundWithAccuracy below within

theorem fits_normalize {mantissa : Int} {exponent : Int} {zeroSign : Sign} (below : exponent ≤ 971)
    (within : mantissa.natAbs ≤ limit exponent) :
    Fits (UnpackedFloat.normalize .binary64 mantissa exponent zeroSign) := by
  unfold UnpackedFloat.normalize
  split
  · exact fits_round below (by omega)
  · exact .zero _
  · exact fits_round below (by omega)

theorem isMagnitude_normalize {mantissa : Int} {exponent : Int} {zeroSign : Sign}
    (nonneg : 0 ≤ mantissa) :
    IsMagnitude (UnpackedFloat.normalize .binary64 mantissa exponent zeroSign) := by
  unfold UnpackedFloat.normalize
  split
  · next order =>
    have negative := Int.compare_eq_lt.1 order
    omega
  · exact .zero _
  · exact isMagnitude_roundWithAccuracy _ _ _

/-! ## Packing -/

/-- What unpacking gives: significands of 53 bits, and the smaller ones in the lowest place only. -/
def Canonical : UnpackedFloat → Prop
  | .finite _ mantissa exponent _ =>
    mantissa < 2 ^ 53 ∧ -1074 ≤ exponent ∧ exponent ≤ 971 ∧ (2 ^ 52 ≤ mantissa ∨ exponent = -1074)
  | .zero _ | .infinity _ | .notANumber => True

theorem toNat_hiddenBit (fraction : BitVec 52) : (1#1 ++ fraction).toNat = 2 ^ 52 + fraction.toNat := by
  rw [BitVec.toNat_append, ← Nat.shiftLeft_add_eq_or_of_lt fraction.isLt]
  rfl

theorem canonical_unpack (bits : BitVec 64) : Canonical (UnpackedFloat.unpack .binary64 bits) := by
  unfold UnpackedFloat.unpack
  have exponentBits := (@unpackExponent .binary64 bits).isLt
  have fractionBits := (@unpackMantissa .binary64 bits).isLt
  dsimp only [Format.exponentBias] at *
  split
  · split <;> trivial
  · next finite =>
    have small : (@unpackExponent .binary64 bits).toNat ≠ 2047 := fun full =>
      finite (BitVec.eq_of_toNat_eq full)
    split
    · next zero =>
      split
      · trivial
      · show _ ∧ _
        rw [zero]
        exact ⟨by omega, by decide, by decide, .inr (by decide)⟩
    · next normal =>
      have large : (@unpackExponent .binary64 bits).toNat ≠ 0 := fun none =>
        normal (BitVec.eq_of_toNat_eq none)
      show _ ∧ _
      rw [toNat_hiddenBit]
      exact ⟨by omega, by omega, by omega, .inl (by omega)⟩

theorem isFinite_packComponents {sign : Sign} {exponent : BitVec 11} {fraction : BitVec 52}
    {bits : BitVec 64} (packed : packComponents .binary64 sign exponent fraction = bits)
    (finite : exponent ≠ -1#11) :
    (UnpackedFloat.unpack .binary64 bits).isFinite = true ∧
      (sign = .positive → IsMagnitude (UnpackedFloat.unpack .binary64 bits)) := by
  subst packed
  unfold UnpackedFloat.unpack
  simp only [unpackExponent_packComponents, unpackMantissa_packComponents, unpackSign_packComponents,
    Sign.ofBitVec_toBitVec]
  rw [if_neg finite]
  split
  · split
    · exact ⟨rfl, fun _ => .zero sign⟩
    · exact ⟨rfl, fun same => same ▸ .finite _ _ _⟩
  · exact ⟨rfl, fun same => same ▸ .finite _ _ _⟩

/-- A number that fits is finite when it is packed, and does not fall below zero. -/
theorem isFinite_pack {unpacked : UnpackedFloat} (fits : Fits unpacked) :
    (UnpackedFloat.unpack .binary64 (UnpackedFloat.pack .binary64 unpacked)).isFinite = true ∧
      (IsMagnitude unpacked →
        IsMagnitude (UnpackedFloat.unpack .binary64 (UnpackedFloat.pack .binary64 unpacked))) := by
  cases fits with
  | zero sign =>
    have same : UnpackedFloat.unpack .binary64 (UnpackedFloat.pack .binary64 (.zero sign)) =
        .zero sign := unpack_packedZero
    rw [same]
    exact ⟨rfl, fun own => own⟩
  | @finite sign mantissa exponent positive place =>
    have above : IsMagnitude (.finite sign mantissa exponent positive) → sign = .positive := by
      intro own
      cases own
      rfl
    unfold UnpackedFloat.pack
    dsimp only [Format.exponentBias]
    rw [if_neg (by omega)]
    split
    · have finite : BitVec.ofNat 11 (exponent + 1023 + 52).toNat ≠ -1#11 := by
        intro full
        have field := congrArg BitVec.toNat full
        rw [BitVec.toNat_ofNat] at field
        change _ = 2047 at field
        omega
      exact (isFinite_packComponents rfl finite).imp_right fun kept own => kept (above own)
    · exact (isFinite_packComponents rfl (by decide)).imp_right fun kept own => kept (above own)

/-! ## Numbers -/

theorem isFinite_ofModel {unpacked : UnpackedFloat} (fits : Fits unpacked) :
    (Float.ofModel (Float.Model.pack unpacked)).isFinite = true := (isFinite_pack fits).1

/-- A finite number is a zero, or has a significand of 53 bits in a place that is not too high. -/
theorem unpack_of_isFinite {x : Float} (finite : x.isFinite = true) :
    (∃ sign, x.toModel.unpack = .zero sign) ∨
      ∃ sign mantissa exponent positive,
        x.toModel.unpack = .finite sign mantissa exponent positive ∧
          mantissa < 2 ^ 53 ∧ exponent ≤ 971 := by
  have canonical : Canonical x.toModel.unpack := canonical_unpack _
  change x.toModel.unpack.isFinite = true at finite
  cases form : x.toModel.unpack with
  | infinity sign =>
    rw [form] at finite
    cases finite
  | notANumber =>
    rw [form] at finite
    cases finite
  | zero sign => exact .inl ⟨sign, rfl⟩
  | finite sign mantissa exponent positive =>
    rw [form] at canonical
    exact .inr ⟨sign, mantissa, exponent, positive, rfl, canonical.1, canonical.2.2.1⟩

/-- An operation on a finite number has a finite result if it fits for a zero and for the others. -/
theorem isFinite_operation (operation : UnpackedFloat → UnpackedFloat) {x : Float}
    (finite : x.isFinite = true) (onZero : ∀ sign, Fits (operation (.zero sign)))
    (onFinite : ∀ {sign mantissa exponent positive}, mantissa < 2 ^ 53 → exponent ≤ 971 →
      Fits (operation (.finite sign mantissa exponent positive))) :
    (Float.ofModel (Float.Model.pack (operation x.toModel.unpack))).isFinite = true := by
  refine isFinite_ofModel ?_
  rcases unpack_of_isFinite finite with
    ⟨sign, form⟩ | ⟨sign, mantissa, exponent, positive, form, bits, place⟩
  · rw [form]
    exact onZero sign
  · rw [form]
    exact onFinite bits place

theorem isFinite_neg {x : Float} (finite : x.isFinite = true) : (Float.neg x).isFinite = true :=
  isFinite_operation UnpackedFloat.neg finite (fun _ => .zero _) fun _ place => .finite place

theorem isFinite_mul_one {x : Float} (finite : x.isFinite = true) :
    (x * Float.ofBits 0x3FF0000000000000).isFinite = true := by
  have one : (Float.ofBits 0x3FF0000000000000).toModel.unpack =
      .finite .positive (2 ^ 52) (-52) (by decide) := rfl
  refine isFinite_operation
    (·.mul .binary64 (Float.ofBits 0x3FF0000000000000).toModel.unpack) finite ?_ ?_
  · intro sign
    rw [one]
    exact .zero _
  · intro sign mantissa exponent positive bits place
    rw [one]
    exact fits_mul (by omega) (mul_le_limit 52 place (le_limit bits))

theorem isFinite_ofNat {n : Nat} (within : n ≤ limit 0) : (Float.ofNat n).isFinite = true := by
  by_cases short : n < 2 ^ 53
  · have direct : Float.ofNat n = n.toUInt64.toFloat * Float.ofBits 0x3FF0000000000000 :=
      dif_pos ⟨short, by decide⟩
    rw [direct]
    refine isFinite_mul_one (isFinite_ofModel (fits_normalize (by decide) ?_))
    exact (Nat.mod_le n _).trans within
  · have scaled : Float.ofNat n = Float.ofModel (Float.Model.ofScientific n 0) :=
      dif_neg fun fast => short fast.1
    rw [scaled]
    refine isFinite_ofModel ?_
    unfold UnpackedFloat.ofScientific
    rw [dif_neg (by omega), if_neg (by decide), if_neg (by simp), if_pos (by decide)]
    have place : -(Format.binary64.mantissaBits : Int) + 0 = 0 - (53 : Nat) := by decide
    refine fits_mul (by decide) ?_
    rw [Nat.shiftLeft_eq, Int.toNat_zero, Nat.pow_zero, Nat.mul_one, place]
    exact mul_le_limit 53 (by decide) within

theorem isFinite_ofInt {i : Int} (within : i.natAbs ≤ limit 0) : (Float.ofInt i).isFinite = true := by
  cases i with
  | ofNat n => exact isFinite_ofNat within
  | negSucc n => exact isFinite_neg (isFinite_ofNat within)

/-- Dividing by twenty: the quotient may have many more places, but it is smaller. -/
theorem fits_div_twenty {sign : Sign} {mantissa : Nat} {exponent : Int} {positive : 0 < mantissa}
    {also : 0 < 5 * 2 ^ 50} (bits : mantissa < 2 ^ 53) (place : exponent ≤ 971) :
    Fits (UnpackedFloat.div .binary64 (.finite sign mantissa exponent positive)
      (.finite .positive (5 * 2 ^ 50) (-48) also)) := by
  have digits : mantissa.log2 < 53 := (Nat.log2_lt (Nat.ne_of_gt positive)).2 bits
  have digits20 : (5 * 2 ^ 50).log2 = 52 := by decide
  have low : Format.binary64.targetExponent
      (totalExponent mantissa exponent - totalExponent (5 * 2 ^ 50) (-48)) ≤ 971 := by
    simp only [Format.targetExponent, totalExponent, Format.mantissaBits, Format.minExponent, digits20]
    omega
  unfold UnpackedFloat.div divCore
  dsimp only
  generalize Format.binary64.targetExponent
    (totalExponent mantissa exponent - totalExponent (5 * 2 ^ 50) (-48)) = target at *
  generalize scale : min (exponent - -48) target = quotientPlace
  have places : (971 - quotientPlace).toNat + 48 =
      (exponent - -48 - quotientPlace).toNat + (971 - exponent).toNat := by omega
  refine fits_roundWithAccuracy (by omega) ((ceiling_ofMantissaAndAccuracy_le _ _).trans ?_)
  rw [Nat.shiftLeft_eq]
  generalize (exponent - -48 - quotientPlace).toNat = shift at *
  have scaled : 2 ^ shift ≤ 2 ^ (971 - quotientPlace).toNat * 2 ^ 48 := by
    rw [← Nat.pow_add, places]
    exact Nat.pow_le_pow_right (by decide) (Nat.le_add_right _ _)
  have product : mantissa * 2 ^ shift ≤ 2 ^ 53 * 2 ^ shift :=
    Nat.mul_le_mul_right _ (Nat.le_of_lt bits)
  have room := Nat.two_pow_pos (971 - quotientPlace).toNat
  refine Nat.div_lt_of_lt_mul ?_
  unfold limit
  omega

/-- A twentieth of a finite number is finite. -/
theorem isFinite_div_twenty {x : Float} (finite : x.isFinite = true) :
    (x / Float.ofNat 20).isFinite = true := by
  have twenty : (Float.ofNat 20).toModel.unpack =
      .finite .positive (5 * 2 ^ 50) (-48) (by decide) := rfl
  refine isFinite_operation (·.div .binary64 (Float.ofNat 20).toModel.unpack) finite ?_ ?_
  · intro sign
    rw [twenty]
    exact .zero _
  · intro sign mantissa exponent positive bits place
    rw [twenty]
    exact fits_div_twenty bits place

/-! ## The order of numbers above zero -/

/-- Numbers above zero are in the order of their places, and in one place of their significands. -/
theorem lt_finite_iff {mantissa other : Nat} {exponent place : Int} {positive : 0 < mantissa}
    {also : 0 < other} :
    UnpackedFloat.lt (.finite .positive mantissa exponent positive)
        (.finite .positive other place also) = true ↔
      exponent < place ∨ exponent = place ∧ mantissa < other := by
  show (some ((compare exponent place).then (compare mantissa other)) == some Ordering.lt) =
    true ↔ _
  rw [beq_iff_eq, Option.some.injEq, Ordering.then_eq_lt, Int.compare_eq_lt, Int.compare_eq_eq,
    Nat.compare_eq_lt]

/-- Of two magnitudes that are not the other way round, the second has no more of the smaller unit
of both. -/
theorem mantissa_le_of_not_lt {mantissa other : Nat} {exponent place : Int}
    {positive : 0 < mantissa} {also : 0 < other}
    (first : Canonical (.finite .positive mantissa exponent positive))
    (second : Canonical (.finite .positive other place also))
    (enough : UnpackedFloat.lt (.finite .positive mantissa exponent positive)
      (.finite .positive other place also) = false) :
    other * 2 ^ (place - min exponent place).toNat ≤
      mantissa * 2 ^ (exponent - min exponent place).toNat := by
  rw [← Bool.not_eq_true, lt_finite_iff, not_or, not_and] at enough
  rcases enough with ⟨notBelow, notLess⟩
  rcases Int.lt_trichotomy exponent place with below | same | above
  · exact absurd below notBelow
  · subst same
    exact Nat.mul_le_mul_right _ (Nat.le_of_not_lt (notLess rfl))
  · have full : 2 ^ 52 ≤ mantissa := by
      rcases first.2.2.2 with full | lowest
      · exact full
      · exact absurd second.2.1 (by omega)
    have level : (place - min exponent place).toNat = 0 := by omega
    have higher : 1 ≤ (exponent - min exponent place).toNat := by omega
    calc other * 2 ^ (place - min exponent place).toNat
        = other := by rw [level, Nat.pow_zero, Nat.mul_one]
      _ ≤ 2 ^ 52 * 2 ^ 1 := Nat.le_of_lt second.1
      _ ≤ mantissa * 2 ^ (exponent - min exponent place).toNat :=
        Nat.mul_le_mul full (Nat.pow_le_pow_right (by decide) higher)

/-- What is left when no more is taken away than there is. -/
theorem fits_sub {first second : UnpackedFloat} (own : Canonical first) (other : Canonical second)
    (magnitude : IsMagnitude first) (taken : IsMagnitude second)
    (enough : first.lt second = false) :
    Fits (first.sub .binary64 second) ∧ IsMagnitude (first.sub .binary64 second) := by
  cases magnitude with
  | zero sign =>
    cases taken with
    | zero sign' =>
      unfold UnpackedFloat.sub
      dsimp only
      split <;> exact ⟨.zero _, .zero _⟩
    | finite mantissa exponent positive => cases enough
  | finite mantissa exponent positive =>
    cases taken with
    | zero sign => exact ⟨.finite own.2.2.1, .finite _ _ _⟩
    | finite taken place also =>
      have less := mantissa_le_of_not_lt own other enough
      have whole := mul_le_limit (exponent - min exponent place).toNat own.2.2.1 (le_limit own.1)
      have lowest : exponent - (exponent - min exponent place).toNat = min exponent place := by omega
      rw [lowest] at whole
      unfold UnpackedFloat.sub decreaseExponent Sign.apply
      simp only [Nat.shiftLeft_eq]
      refine ⟨fits_normalize (by have := own.2.2.1; omega) ?_, isMagnitude_normalize ?_⟩
      · omega
      · omega

end Rounding

end Receipt
