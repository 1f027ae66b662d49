import Mathlib
import Receipt.Number.Scalar

/-!
# The laws of zero

`Scalar.LawfulZero` says what layout needs of zero: nothing is added by it, nothing is taken away by it,
and it is no lines and no space. Rational numbers have these laws, and so do binary ones. Of the latter
only `float_sub_zero` is about all data: the difference to zero is the datum itself, taken apart and put
together again.
-/

namespace Receipt

/-- Zero is neutral, and it is not more than itself. -/
class Scalar.LawfulZero (α : Type) [Scalar α] : Prop where
  zero_add_zero : (zero : α) + zero = zero
  sub_zero (a : α) : a - zero = a
  ofInt_zero : (ofInt 0 : Except NumberFault α) = .ok zero
  truncate_zero : truncate (zero : α) = .ok 0
  not_zero_lt_zero : ¬ (zero : α) < zero

/-- Zeros in front of other numbers add nothing to their sum. -/
theorem Scalar.sum_append_of_zero {α : Type} [Scalar α] [Scalar.LawfulZero α] {first : List α}
    (none : ∀ a ∈ first, a = Scalar.zero) (second : List α) :
    Scalar.sum (first ++ second) = Scalar.sum second := by
  have start : first.foldl (· + ·) Scalar.zero = Scalar.zero := by
    induction first with
    | nil => rfl
    | cons a rest ih =>
      rw [List.foldl_cons, none a (List.mem_cons_self ..), Scalar.LawfulZero.zero_add_zero]
      exact ih fun b member => none b (List.mem_cons_of_mem _ member)
  unfold Scalar.sum
  rw [List.foldl_append, start]

instance : Scalar.LawfulZero Rat where
  zero_add_zero := by decide +kernel
  sub_zero a := by
    have zero : (Scalar.zero : Rat) = 0 := by decide
    rw [zero, Rat.sub_eq_add_neg, Rat.neg_zero, Rat.add_zero]
  ofInt_zero := rfl
  truncate_zero := rfl
  not_zero_lt_zero := by decide

theorem zero_float : (Scalar.zero : Float) = Float.ofBits 0 := by decide +kernel

/-- Nothing is taken away by zero, whatever the datum. -/
theorem float_sub_zero (x : Float) : x - Scalar.zero = x := by
  obtain ⟨bits, valid⟩ := x
  have zero : (Scalar.zero : Float).toModel.unpack = .zero .positive := by
    rw [zero_float]
    rfl
  have same (unpacked : Float.Model.UnpackedFloat) :
      unpacked.sub .binary64 (.zero .positive) = unpacked := by
    cases unpacked with
    | infinity sign => rfl
    | notANumber => rfl
    | zero sign => cases sign <;> rfl
    | finite sign mantissa exponent positive => rfl
  show Float.ofModel (Float.Model.pack (Float.Model.UnpackedFloat.sub .binary64 _
    (Scalar.zero : Float).toModel.unpack)) = _
  rw [zero, same]
  unfold Float.Model.pack Float.Model.unpack
  simp only [Float.Model.UnpackedFloat.pack_unpack_of_valid valid]

instance : Scalar.LawfulZero Float where
  zero_add_zero := by decide +kernel
  sub_zero := float_sub_zero
  ofInt_zero := by
    have finite : (Float.ofInt 0).isFinite = true := by decide +kernel
    have zero : Float.ofInt 0 = Scalar.zero := by decide +kernel
    show floatOfInt 0 = _
    unfold floatOfInt
    simp only [zero] at finite ⊢
    rw [if_pos finite]
  truncate_zero := by
    have parts : Binary.ofFloat Scalar.zero = .finite false 0 (-1074) := by decide +kernel
    show (Binary.ofFloat Scalar.zero).truncate = _
    rw [parts]
    show Except.ok (Binary.signed false (0 / _)) = _
    rw [Nat.zero_div]
    rfl
  not_zero_lt_zero := by decide +kernel

end Receipt
