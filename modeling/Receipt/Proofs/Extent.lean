import Receipt.Proofs.FloatRange
import Receipt.Proofs.Zero

/-!
# Extents, and the whole numbers next to them

The value of a datum is read off its bits, which is unpacking it (`Binary.ofFloat_eq`). So a datum is
rounded to a whole number exactly when it is finite, and that whole number is again among the binary
numbers (`Binary.IsRounding.ok_of_isFinite`, `Binary.IsRounding.isFinite_of_ok`). Lines are
counted in every finite spacing and in no other (`floatFloorQuotient_of_isFinite`,
`isFinite_of_floatFloorQuotient`).

An extent is a finite number that is not negative: a width that is there to be shared out. Any datum
limited to an extent is one (`IsExtent.limited`), and so is what is left of an extent when another that
fits into it is taken away (`IsExtent.sub`).
-/

namespace Receipt

open Rounding

/-! ## Whole numbers -/

theorem isOk_ofInt {i : Int} (within : i.natAbs ≤ limit 0) :
    ∃ number : Float, Scalar.ofInt i = .ok number :=
  ⟨_, floatOfInt_eq_ok (isFinite_ofInt within)⟩

namespace Binary

section Bits

open Float.Model Float.Model.UnpackedFloat

theorem toNat_unpackExponent (bits : BitVec 64) :
    (@unpackExponent .binary64 bits).toNat = bits.toNat / pow2 52 % pow2 11 := by
  rw [unpackExponent_def, BitVec.extractLsb'_toNat, Nat.shiftRight_eq_div_pow]
  rfl

theorem toNat_unpackMantissa (bits : BitVec 64) :
    (@unpackMantissa .binary64 bits).toNat = bits.toNat % pow2 52 := by
  rw [unpackMantissa_def, BitVec.extractLsb'_toNat, Nat.shiftRight_zero]
  rfl

theorem unpackSign_eq (bits : BitVec 64) :
    (Sign.ofBitVec (@unpackSign .binary64 bits) == .negative) = decide (pow2 63 ≤ bits.toNat) := by
  have small := bits.isLt
  have first : (@unpackSign .binary64 bits).toNat = bits.toNat / 2 ^ 63 := by
    rw [unpackSign_def, BitVec.extractLsb'_toNat, Nat.shiftRight_eq_div_pow]
    exact Nat.mod_eq_of_lt (Nat.div_lt_of_lt_mul small)
  have power : pow2 63 = 2 ^ 63 := rfl
  unfold Sign.ofBitVec
  split
  · next clear =>
    rw [clear] at first
    change 0 = _ at first
    rw [decide_eq_false (by omega)]
    rfl
  · next set =>
    have nonzero : (@unpackSign .binary64 bits).toNat ≠ 0 :=
      fun none => set (BitVec.eq_of_toNat_eq none)
    rw [decide_eq_true (by omega)]
    rfl

/-- The value that an unpacked datum stands for. -/
def ofUnpacked : UnpackedFloat → Binary
  | .zero sign => .finite (sign == .negative) 0 (-1074)
  | .finite sign mantissa exponent _ => .finite (sign == .negative) mantissa exponent
  | .infinity sign => .infinite (sign == .negative)
  | .notANumber => .notANumber

/-- Reading the bits of a datum is unpacking it. -/
theorem ofFloat_eq (x : Float) : ofFloat x = ofUnpacked x.toModel.unpack := by
  let bits : BitVec 64 := x.toModel.toBits.toBitVec
  have field : (@unpackExponent .binary64 bits).toNat = x.toBits.toNat / pow2 52 % pow2 11 :=
    toNat_unpackExponent bits
  have fraction : (@unpackMantissa .binary64 bits).toNat = x.toBits.toNat % pow2 52 :=
    toNat_unpackMantissa bits
  have first : (Sign.ofBitVec (@unpackSign .binary64 bits) == .negative) =
      decide (pow2 63 ≤ x.toBits.toNat) := unpackSign_eq bits
  unfold ofFloat
  dsimp only
  rw [← field, ← fraction, ← first]
  show _ = ofUnpacked (UnpackedFloat.unpack .binary64 bits)
  unfold UnpackedFloat.unpack
  dsimp only
  split
  · next full =>
    have full : @unpackExponent .binary64 bits = -1#11 := BitVec.eq_of_toNat_eq full
    rw [if_pos full]
    split
    · next clear =>
      rw [if_pos (BitVec.eq_of_toNat_eq clear : @unpackMantissa .binary64 bits = 0#52)]
      rfl
    · next set =>
      rw [if_neg fun same => set (congrArg BitVec.toNat same)]
      rfl
  · next other =>
    rw [if_neg fun same => other (congrArg BitVec.toNat same)]
    split
    · next none =>
      rw [if_pos (BitVec.eq_of_toNat_eq none : @unpackExponent .binary64 bits = 0#11)]
      split
      · next clear => rw [clear]; rfl
      · show _ = Binary.finite _ _ _
        rw [none]
        rfl
    · next normal =>
      rw [if_neg fun same => normal (congrArg BitVec.toNat same)]
      show _ = Binary.finite _ _ _
      rw [toNat_hiddenBit]
      rfl

end Bits

/-- The magnitude of a finite datum as a quotient has no larger numerator than there are numbers. -/
theorem ratio_within {significand : Nat} {exponent : Int} (bits : significand < 2 ^ 53)
    (place : exponent ≤ 971) : (ratio significand exponent).1 ≤ limit 0 := by
  unfold ratio
  split
  · next whole =>
    have scaled := mul_le_limit exponent.toNat place (le_limit bits)
    have units : exponent - exponent.toNat = 0 := by omega
    rwa [units] at scaled
  · exact le_limit bits

theorem ofFloat_of_isFinite {x : Float} (finite : x.isFinite = true) :
    ∃ negative significand exponent, ofFloat x = .finite negative significand exponent ∧
      (ratio significand exponent).1 ≤ limit 0 := by
  rw [ofFloat_eq]
  rcases unpack_of_isFinite finite with
    ⟨sign, form⟩ | ⟨sign, mantissa, exponent, positive, form, bits, place⟩
  · rw [form]
    exact ⟨_, _, _, rfl, ratio_within (by decide) (by decide)⟩
  · rw [form]
    exact ⟨_, _, _, rfl, ratio_within bits place⟩

theorem ofFloat_of_not_isFinite {x : Float} (refused : x.isFinite ≠ true) :
    (∃ negative, ofFloat x = .infinite negative) ∨ ofFloat x = .notANumber := by
  rw [ofFloat_eq]
  change x.toModel.unpack.isFinite ≠ true at refused
  cases form : x.toModel.unpack with
  | infinity sign => exact .inl ⟨_, rfl⟩
  | notANumber => exact .inr rfl
  | zero sign | finite sign mantissa exponent positive =>
    rw [form] at refused
    exact absurd rfl refused

/-- Takes finite data to whole numbers no larger than the next one, and refuses the others. -/
structure IsRounding (round : Binary → Except NumberFault Int) : Prop where
  finite (negative : Bool) (significand : Nat) (exponent : Int) :
    ∃ n ≤ (ratio significand exponent).1,
      round (.finite negative significand exponent) = .ok (signed negative n)
  infinite (negative : Bool) : round (.infinite negative) = .error .infinite
  notANumber : round .notANumber = .error .notANumber

/-- The next whole number above a quotient that is none is not larger than the numerator. -/
theorem div_add_one_le {num den : Nat} (rest : num % den ≠ 0) : num / den + 1 ≤ num := by
  have parts := Nat.div_add_mod num den
  have whole : num / den ≤ den * (num / den) := by
    rcases Nat.eq_zero_or_pos den with zero | positive
    · rw [zero, Nat.zero_mul, Nat.div_zero]
    · exact Nat.le_mul_of_pos_left _ positive
  omega

theorem roundQuotient_le (num den : Nat) : roundQuotient num den ≤ num := by
  have down := Nat.div_le_self num den
  unfold roundQuotient
  dsimp only
  by_cases rest : num % den = 0
  · rw [rest]
    rcases Nat.eq_zero_or_pos den with zero | positive
    · rw [zero, Nat.div_zero]
      exact Nat.zero_le _
    · rw [if_pos (by omega)]
      exact down
  · have up := div_add_one_le rest
    split
    · exact down
    · split <;> omega

theorem halfDown_le (num den : Nat) :
    num / den + (if den < 2 * (num % den) then 1 else 0) ≤ num := by
  split
  · exact div_add_one_le (by omega)
  · exact Nat.div_le_self num den

namespace IsRounding

theorem truncate : IsRounding Binary.truncate where
  finite _ _ _ := ⟨_, Nat.div_le_self _ _, rfl⟩
  infinite _ := rfl
  notANumber := rfl

theorem roundEven : IsRounding Binary.roundEven where
  finite _ significand exponent :=
    ⟨_, roundQuotient_le _ (ratio significand exponent).2, rfl⟩
  infinite _ := rfl
  notANumber := rfl

theorem roundHalfDown : IsRounding Binary.roundHalfDown where
  finite _ significand exponent := ⟨_, halfDown_le _ (ratio significand exponent).2, rfl⟩
  infinite _ := rfl
  notANumber := rfl

variable {round : Binary → Except NumberFault Int} {x : Float}

/-- A finite datum has a whole number, which is within the limit. -/
theorem ok_of_isFinite (rounding : IsRounding round) (finite : x.isFinite = true) :
    ∃ whole, round (ofFloat x) = .ok whole ∧ whole.natAbs ≤ limit 0 := by
  obtain ⟨negative, significand, exponent, parts, within⟩ := ofFloat_of_isFinite finite
  obtain ⟨n, below, rounded⟩ := rounding.finite negative significand exponent
  refine ⟨signed negative n, by rw [parts, rounded], ?_⟩
  have magnitude : (signed negative n).natAbs = n := by
    cases negative
    · rfl
    · exact Int.natAbs_neg n
  rw [magnitude]
  exact below.trans within

theorem isFinite_of_ok (rounding : IsRounding round) {whole : Int}
    (rounded : round (ofFloat x) = .ok whole) : x.isFinite = true := by
  by_contra refused
  rcases ofFloat_of_not_isFinite refused with ⟨negative, datum⟩ | datum
  · rw [datum, rounding.infinite] at rounded
    cases rounded
  · rw [datum, rounding.notANumber] at rounded
    cases rounded

end IsRounding

end Binary

/-- A finite spacing holds a whole number of lines, which is within the limit. -/
theorem floatFloorQuotient_of_isFinite {x : Float} (finite : x.isFinite = true) :
    ∃ lines, floatFloorQuotient x 20 = .ok lines ∧ lines.natAbs ≤ limit 0 := by
  obtain ⟨negative, significand, exponent, parts, within⟩ := Binary.ofFloat_of_isFinite finite
  unfold floatFloorQuotient
  rw [parts]
  dsimp only
  refine Binary.IsRounding.roundHalfDown.ok_of_isFinite (isFinite_div_twenty (isFinite_ofNat ?_))
  refine Nat.le_trans ?_ within
  rw [← Nat.div_div_eq_div_mul]
  exact (Nat.div_mul_le_self _ 20).trans (Nat.div_le_self _ _)

theorem isFinite_of_floatFloorQuotient {x : Float} {n : Nat} {lines : Int}
    (counted : floatFloorQuotient x n = .ok lines) : x.isFinite = true := by
  by_contra refused
  unfold floatFloorQuotient at counted
  rcases Binary.ofFloat_of_not_isFinite refused with ⟨negative, datum⟩ | datum
  · rw [datum] at counted
    cases counted
  · rw [datum] at counted
    cases counted

/-! ## Extents -/

/-- A finite number that is not negative. -/
structure IsExtent (x : Float) : Prop where
  finite : x.isFinite = true
  nonneg : Scalar.zero ≤ x

theorem lt_iff {x y : Float} : x < y ↔ x.toModel.unpack.lt y.toModel.unpack = true :=
  decide_eq_true_iff

theorem le_iff {x y : Float} : x ≤ y ↔ x.toModel.unpack.le y.toModel.unpack = true :=
  decide_eq_true_iff

theorem unpack_zero : (Scalar.zero : Float).toModel.unpack = .zero .positive := by
  rw [zero_float]
  rfl

theorem isMagnitude_iff {unpacked : Float.Model.UnpackedFloat} :
    IsMagnitude unpacked ↔
      unpacked.isFinite = true ∧ (Float.Model.UnpackedFloat.zero .positive).le unpacked = true := by
  constructor
  · intro magnitude
    cases magnitude <;> exact ⟨rfl, rfl⟩
  · intro ⟨finite, nonneg⟩
    cases unpacked with
    | infinity sign => cases finite
    | notANumber => cases finite
    | zero sign => exact .zero sign
    | finite sign mantissa exponent positive =>
      cases sign with
      | positive => exact .finite _ _ _
      | negative => cases nonneg

theorem isExtent_iff {x : Float} : IsExtent x ↔ IsMagnitude x.toModel.unpack := by
  rw [isMagnitude_iff, ← unpack_zero, ← le_iff]
  exact ⟨fun ⟨finite, nonneg⟩ => ⟨finite, nonneg⟩, fun ⟨finite, nonneg⟩ => ⟨finite, nonneg⟩⟩

namespace IsExtent

theorem zero : IsExtent Scalar.zero := by
  rw [isExtent_iff, unpack_zero]
  exact .zero _

theorem max {x y : Float} (own : IsExtent x) (other : IsExtent y) : IsExtent (Scalar.max x y) := by
  unfold Scalar.max
  split
  · exact other
  · exact own

/-- What lies above zero and not above an extent is one. -/
theorem of_between {outer value : Float} (own : IsExtent outer) (positive : Scalar.zero < value)
    (within : ¬ outer < value) : IsExtent value := by
  rw [lt_iff, unpack_zero] at positive
  rw [lt_iff] at within
  rw [isExtent_iff] at own ⊢
  generalize value.toModel.unpack = value at *
  generalize outer.toModel.unpack = outer at *
  cases value with
  | infinity sign =>
    cases sign with
    | positive => exact absurd (by cases own <;> rfl) within
    | negative => cases positive
  | notANumber => cases positive
  | zero sign => exact .zero sign
  | finite sign mantissa exponent _ =>
    cases sign with
    | positive => exact .finite _ _ _
    | negative => cases positive

/-- Any datum limited to an extent is one. -/
theorem limited {outer : Float} (own : IsExtent outer) (value : Float) :
    IsExtent (Scalar.max Scalar.zero (Scalar.min value outer)) := by
  unfold Scalar.max
  split
  · next positive =>
    unfold Scalar.min at positive ⊢
    split at positive
    · next beyond =>
      rw [if_pos beyond]
      exact own
    · next within =>
      rw [if_neg within]
      exact own.of_between positive within
  · exact zero

/-- What is left of an extent when another that fits into it is taken away. -/
theorem sub {x y : Float} (own : IsExtent x) (taken : IsExtent y) (enough : ¬ x < y) :
    IsExtent (x - y) := by
  rw [isExtent_iff] at own taken ⊢
  rw [lt_iff, Bool.not_eq_true] at enough
  obtain ⟨fits, left⟩ := fits_sub (canonical_unpack _) (canonical_unpack _) own taken enough
  exact (isFinite_pack fits).2 left

theorem not_lt_self {x : Float} (own : IsExtent x) : ¬ x < x := by
  rw [isExtent_iff] at own
  rw [lt_iff]
  generalize x.toModel.unpack = unpacked at *
  cases own with
  | zero sign => exact Bool.false_ne_true
  | finite mantissa exponent positive =>
    rw [lt_finite_iff]
    omega

/-- What an extent leaves of another, as far as it can be taken away. -/
theorem sub_min {x y : Float} (own : IsExtent x) (taken : IsExtent y) :
    IsExtent (x - Scalar.min y x) := by
  unfold Scalar.min
  split
  · exact own.sub own own.not_lt_self
  · next enough => exact own.sub taken enough

end IsExtent

end Receipt
