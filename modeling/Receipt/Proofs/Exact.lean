import Mathlib.Algebra.Order.Ring.Rat
import Mathlib.Algebra.Order.BigOperators.Group.List
import Mathlib.Tactic.Linarith
import Receipt.Layout.Row
import Receipt.Proofs.Outcome

/-!
# Measuring with exact numbers

Over the rationals the operations of `Scalar` are those of the field, and everything that a receipt
printer measures is a whole number of characters: `Resolver.width` gives whole widths of no more than
the box around them (`Resolver.whole_of_width`).
-/

namespace Receipt

namespace Scalar

theorem zero_rat : (zero : Rat) = 0 := rfl

theorem ofNat_rat (n : Nat) : (ofNat n : Rat) = n := Rat.mkRat_one n

theorem max_rat (a b : Rat) : Scalar.max a b = Max.max a b := by
  show (if a < b then b else a) = _
  rcases lt_or_ge a b with less | more
  · rw [if_pos less, max_eq_right less.le]
  · rw [if_neg (not_lt.2 more), max_eq_left more]

theorem min_rat (a b : Rat) : Scalar.min a b = Min.min a b := by
  show (if b < a then b else a) = _
  rcases lt_or_ge b a with less | more
  · rw [if_pos less, min_eq_right less.le]
  · rw [if_neg (not_lt.2 more), min_eq_left more]

theorem min_le_rat (a b : Rat) : Scalar.min a b ≤ b :=
  (min_rat a b).trans_le (min_le_right a b)

theorem sum_rat (xs : List Rat) : Scalar.sum xs = xs.sum := by
  have shifted (start : Rat) : xs.foldl (· + ·) start = start + xs.sum := by
    induction xs generalizing start with
    | nil => simp
    | cons x xs ih => rw [List.foldl_cons, ih, List.sum_cons, add_assoc]
  exact (shifted 0).trans (zero_add _)

theorem truncate_rat {x : Rat} (positive : 0 ≤ x) :
    (Scalar.truncate x : Except NumberFault Int) = .ok x.floor := by
  show Except.ok (if 0 ≤ x then x.floor else -((-x).floor)) = Except.ok x.floor
  rw [if_pos positive]

theorem truncate_natCast (n : Nat) :
    (Scalar.truncate (n : Rat) : Except NumberFault Int) = .ok (n : Int) := by
  rw [truncate_rat (Nat.cast_nonneg n)]
  exact congrArg Except.ok (Rat.floor_intCast n)

end Scalar

/-- A whole number of characters. -/
def Whole (x : Rat) : Prop := ∃ n : Nat, x = n

namespace Whole

theorem zero : Whole 0 := ⟨0, rfl⟩

theorem nonneg {x : Rat} (whole : Whole x) : 0 ≤ x := by
  obtain ⟨n, rfl⟩ := whole
  exact Nat.cast_nonneg n

theorem of_int {i : Int} (nonneg : 0 ≤ i) : Whole i := by
  obtain ⟨n, rfl⟩ := Int.eq_ofNat_of_zero_le nonneg
  exact ⟨n, rfl⟩

/-- The larger of zero and a whole number. -/
theorem max_zero (i : Int) : Whole (Max.max 0 (i : Rat)) := by
  rcases le_or_gt 0 i with nonneg | negative
  · rw [max_eq_right (Int.cast_nonneg nonneg)]
    exact of_int nonneg
  · rw [max_eq_left (Int.cast_nonpos.2 negative.le)]
    exact zero

theorem min {x y : Rat} (first : Whole x) (second : Whole y) : Whole (Min.min x y) := by
  rcases min_choice x y with same | same
  · rwa [same]
  · rwa [same]

theorem sub {x y : Rat} (first : Whole x) (second : Whole y) (enough : y ≤ x) : Whole (x - y) := by
  obtain ⟨m, rfl⟩ := first
  obtain ⟨n, rfl⟩ := second
  exact ⟨m - n, (Nat.cast_sub (Nat.cast_le.1 enough)).symm⟩

end Whole

namespace Resolver

open Outcome

/-- A width that is stated in characters is one that a whole number is taken to. -/
theorem ofInt_of_statedWidth {α : Type} [Scalar α] {resolver : Resolver α}
    (cells : resolver.target = .cells) {value : Value} {outer stated : α}
    (resolved : resolver.statedWidth value outer = .ok (some stated)) :
    ∃ i : Int, (Scalar.ofInt i : Except NumberFault α) = .ok stated := by
  unfold statedWidth at resolved
  simp only [cells] at resolved
  split at resolved
  · obtain ⟨whole, _, resolved⟩ := bind_eq_ok_iff.1 resolved
    obtain ⟨number, made, resolved⟩ := bind_eq_ok_iff.1 resolved
    obtain rfl := Option.some.inj (pure_eq_ok_iff.1 resolved)
    exact ⟨whole, made⟩
  · obtain ⟨pixels, _, resolved⟩ := bind_eq_ok_iff.1 resolved
    cases pixels with
    | none =>
      obtain ⟨_, _, nothing⟩ := map_eq_ok_iff.1 resolved
      cases nothing
    | some pixels =>
      obtain ⟨whole, _, resolved⟩ := bind_eq_ok_iff.1 resolved
      obtain ⟨number, made, resolved⟩ := bind_eq_ok_iff.1 resolved
      obtain rfl := Option.some.inj (pure_eq_ok_iff.1 resolved)
      exact ⟨whole, made⟩

variable {resolver : Resolver Rat}

/-- A width that is stated is a whole number of characters, no more than there are around it. -/
theorem whole_of_width (cells : resolver.target = .cells) {value : Value} {outer width : Rat}
    (whole : Whole outer) (resolved : resolver.width value outer = .ok (some width)) :
    Whole width ∧ width ≤ outer := by
  unfold Resolver.width at resolved
  split at resolved
  · obtain ⟨stated, made, resolved⟩ := bind_eq_ok_iff.1 resolved
    cases stated with
    | none => cases resolved
    | some stated =>
      obtain ⟨i, same⟩ := ofInt_of_statedWidth cells made
      obtain rfl := Except.ok.inj same
      obtain ⟨n, rfl⟩ := whole
      obtain rfl := Option.some.inj (pure_eq_ok_iff.1 resolved)
      simp only [Scalar.max_rat, Scalar.min_rat, Scalar.zero_rat]
      refine ⟨?_, max_le (Nat.cast_nonneg n) (min_le_right _ _)⟩
      have together : Min.min (i : Rat) (n : Rat) = (Min.min i (n : Int) : Int) := by push_cast; rfl
      rw [together]
      exact Whole.max_zero _
  · cases resolved

end Resolver

end Receipt
