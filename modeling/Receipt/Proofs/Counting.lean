import Receipt.Proofs.Exact

/-!
# Numbers that count

Characters are counted in whichever type layout measures in. A number stands for a whole number when
it is the one that the whole number is taken to (`Scalar.Stands`). A type counts up to some number
when the numbers that stand for no more are compared, subtracted and cut like the whole numbers
themselves (`Scalar.Counts`).

The exact numbers count without end (`Scalar.Counts.exact`). Whatever is asked for, limited to a
count, is a count again (`Scalar.Counts.limited`).
-/

namespace Receipt

namespace Scalar

/-- The number is the one that a whole number is taken to. -/
def Stands {α : Type} [Scalar α] (x : α) (i : Int) : Prop :=
  (Scalar.ofInt i : Except NumberFault α) = .ok x

/-- Whole numbers up to `most` are counted without a loss. One that is larger may be taken to a
number that also stands for others, but never to one below or among them. -/
structure Counts (α : Type) [Scalar α] (most : Nat) : Prop where
  zero : Stands (Scalar.zero : α) 0
  lt_iff {x y : α} {i j : Int} (first : Stands x i) (second : Stands y j)
    (counted : i.natAbs ≤ most ∨ j.natAbs ≤ most) : x < y ↔ i < j
  sub {x y : α} {m n : Nat} (first : Stands x m) (second : Stands y n) (enough : n ≤ m)
    (counted : m ≤ most) : Stands (x - y) (m - n : Nat)
  truncate {x : α} {n : Nat} (stands : Stands x n) (counted : n ≤ most) :
    (Scalar.truncate x : Except NumberFault Int) = .ok (n : Int)

theorem stands_rat {x : Rat} {i : Int} : Stands x i ↔ x = i :=
  ⟨fun stands => (Except.ok.inj stands).symm, fun same => congrArg Except.ok same.symm⟩

namespace Counts

theorem exact (most : Nat) : Counts Rat most where
  zero := stands_rat.2 rfl
  lt_iff first second _ := by
    rw [stands_rat.1 first, stands_rat.1 second]
    exact Int.cast_lt
  sub first second enough _ := by
    rw [stands_rat.1 first, stands_rat.1 second, stands_rat]
    push_cast [enough]
    rfl
  truncate stands _ := by
    rw [stands_rat.1 stands]
    exact truncate_natCast _

variable {α : Type} [Scalar α] {most : Nat}

theorem min (counts : Counts α most) {x y : α} {m n : Nat} (first : Stands x m)
    (second : Stands y n) (counted : m ≤ most) : Stands (Scalar.min x y) (Min.min m n : Nat) := by
  unfold Scalar.min
  split
  · next less =>
    have below : n < m := by exact_mod_cast (counts.lt_iff second first (.inr counted)).1 less
    rwa [min_eq_right below.le]
  · next enough =>
    have above : m ≤ n := by
      by_contra less
      exact enough ((counts.lt_iff second first (.inr counted)).2 (by omega))
    rwa [min_eq_left above]

theorem max_zero (counts : Counts α most) {x : α} {n : Nat} (stands : Stands x n) :
    Stands (Scalar.max Scalar.zero x) n := by
  unfold Scalar.max
  split
  · exact stands
  · next least =>
    have none : n = 0 := by
      by_contra more
      exact least ((counts.lt_iff counts.zero stands (.inl (Nat.zero_le _))).2 (by omega))
    rw [none]
    exact counts.zero

/-- Whatever whole number is asked for, no less than nothing and no more than a count is given. -/
theorem limited (counts : Counts α most) {x outer : α} {i : Int} {n : Nat} (asked : Stands x i)
    (around : Stands outer n) (counted : n ≤ most) :
    Stands (Scalar.max Scalar.zero (Scalar.min x outer)) (Min.min i.toNat n : Nat) := by
  have positive {y : α} {j : Int} (stands : Stands y j) : Scalar.zero < y ↔ 0 < j :=
    counts.lt_iff counts.zero stands (.inl (Nat.zero_le _))
  have beyond : outer < x ↔ (n : Int) < i := counts.lt_iff around asked (.inl counted)
  unfold Scalar.max Scalar.min
  by_cases more : (n : Int) < i
  · rw [if_pos (beyond.2 more), min_eq_right (by omega)]
    by_cases some : 0 < n
    · rwa [if_pos ((positive around).2 (by omega))]
    · obtain rfl : n = 0 := by omega
      rw [if_neg (mt (positive around).1 (by omega))]
      exact counts.zero
  · rw [if_neg (mt beyond.1 more), min_eq_left (by omega)]
    by_cases some : 0 < i
    · rwa [if_pos ((positive asked).2 some), Int.toNat_of_nonneg some.le]
    · rw [if_neg (mt (positive asked).1 some), Int.toNat_of_nonpos (by omega)]
      exact counts.zero

end Counts

end Scalar

/-- The number stands for the same count as the exact one. -/
def Counted {α : Type} [Scalar α] (most : Nat) (x : α) (exact : Rat) : Prop :=
  ∃ n ≤ most, Scalar.Stands x n ∧ exact = n

namespace Counted

variable {α : Type} [Scalar α] {most : Nat}

theorem min (counts : Scalar.Counts α most) {x y : α} {a b : Rat} (first : Counted most x a)
    (second : Counted most y b) : Counted most (Scalar.min x y) (Scalar.min a b) := by
  obtain ⟨m, within, stands, rfl⟩ := first
  obtain ⟨n, _, other, rfl⟩ := second
  refine ⟨Min.min m n, (min_le_left _ _).trans within, counts.min stands other within, ?_⟩
  rw [Scalar.min_rat, Nat.cast_min]

theorem sub (counts : Scalar.Counts α most) {x y : α} {a b : Rat} (first : Counted most x a)
    (second : Counted most y b) (enough : b ≤ a) : Counted most (x - y) (a - b) := by
  obtain ⟨m, within, stands, rfl⟩ := first
  obtain ⟨n, _, other, rfl⟩ := second
  have enough : n ≤ m := Nat.cast_le.1 enough
  exact ⟨m - n, (Nat.sub_le _ _).trans within, counts.sub stands other enough within,
    (Nat.cast_sub enough).symm⟩

theorem max_zero (counts : Scalar.Counts α most) {x : α} {a : Rat} (counted : Counted most x a) :
    Counted most (Scalar.max Scalar.zero x) (Scalar.max Scalar.zero a) := by
  obtain ⟨n, within, stands, rfl⟩ := counted
  refine ⟨n, within, counts.max_zero stands, ?_⟩
  rw [Scalar.max_rat, Scalar.zero_rat, max_eq_right (Nat.cast_nonneg n)]

/-- Numbers that stand for counts, as these counts. -/
theorem exists_nat {xs : List α} {exact : List Rat} (each : List.Forall₂ (Counted most) xs exact) :
    ∃ numbers : List Nat, exact = numbers.map (Nat.cast : Nat → Rat) ∧
      List.Forall₂ (fun x (n : Nat) => Scalar.Stands x n ∧ n ≤ most) xs numbers := by
  induction each with
  | nil => exact ⟨[], rfl, .nil⟩
  | cons own _ ih =>
    obtain ⟨n, within, stands, rfl⟩ := own
    obtain ⟨numbers, rfl, later⟩ := ih
    exact ⟨n :: numbers, rfl, .cons ⟨stands, within⟩ later⟩

end Counted

/-- What stands for nothing is related to nothing. -/
theorem none_mem_of_rel {β γ : Type} {related : β → γ → Prop} {own : List (Option β)}
    {others : List (Option γ)} (each : List.Forall₂ (Option.Rel related) own others)
    (member : none ∈ own) : none ∈ others := by
  induction each with
  | nil => cases member
  | cons same _ ih =>
    rcases List.mem_cons.1 member with rfl | later
    · cases same
      exact List.mem_cons_self ..
    · exact List.mem_cons_of_mem _ (ih later)

end Receipt
