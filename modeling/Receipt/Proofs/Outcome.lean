import Mathlib.Data.List.Forall2

/-!
# Results of computations that may fail

How a computation of several parts succeeds: every part does, and the value is the one that the last
part makes of the others. `mapM_eq_ok_iff` says it of a whole list, entry by entry. Where the value
does not matter, `Returns` says that there is one. `Alike` is what two computations have in common
that fail alike and otherwise give related values.
-/

namespace Receipt.Outcome

variable {ε α β : Type}

/-- Two computations in turn succeed when both do. -/
theorem bind_eq_ok_iff {first : Except ε α} {next : α → Except ε β} {value : β} :
    (first >>= next) = .ok value ↔ ∃ found, first = .ok found ∧ next found = .ok value := by
  cases first with
  | error fault => simp [bind, Except.bind]
  | ok found => simp [bind, Except.bind]

theorem pure_eq_ok_iff {found value : α} :
    (pure found : Except ε α) = .ok value ↔ found = value := by
  simp [pure, Except.pure]

theorem map_eq_ok_iff {f : α → β} {first : Except ε α} {value : β} :
    first.map f = .ok value ↔ ∃ found, first = .ok found ∧ f found = value := by
  cases first with
  | error fault => simp [Except.map]
  | ok found => simp [Except.map]

/-- A computation over a list succeeds when it does for every entry. -/
theorem mapM_eq_ok_iff {f : α → Except ε β} {xs : List α} {ys : List β} :
    xs.mapM f = .ok ys ↔ List.Forall₂ (fun x y => f x = .ok y) xs ys := by
  induction xs generalizing ys with
  | nil =>
    rw [List.mapM_nil, pure_eq_ok_iff, List.forall₂_nil_left_iff]
    exact eq_comm
  | cons x xs ih =>
    rw [List.mapM_cons, bind_eq_ok_iff, List.forall₂_cons_left_iff]
    constructor
    · rintro ⟨y, made, rest⟩
      obtain ⟨ys', later, found⟩ := bind_eq_ok_iff.1 rest
      exact ⟨y, ys', made, ih.1 later, (pure_eq_ok_iff.1 found).symm⟩
    · rintro ⟨y, ys', made, later, rfl⟩
      refine ⟨y, made, ?_⟩
      exact bind_eq_ok_iff.2 ⟨ys', ih.2 later, rfl⟩

/-- Every result of a computation over a list is that of an entry. -/
theorem exists_of_mem_mapM {f : α → Except ε β} {xs : List α} {ys : List β} {y : β}
    (made : xs.mapM f = .ok ys) (member : y ∈ ys) : ∃ x ∈ xs, f x = .ok y := by
  induction mapM_eq_ok_iff.1 made with
  | nil => cases member
  | cons own rest ih =>
    rename_i x z xs zs
    rcases List.mem_cons.1 member with rfl | later
    · exact ⟨x, List.mem_cons_self .., own⟩
    · obtain ⟨found, inside, given⟩ := ih (mapM_eq_ok_iff.2 rest) later
      exact ⟨found, List.mem_cons_of_mem _ inside, given⟩

/-- Every entry has its result among those of the list. -/
theorem mem_of_mem_mapM {f : α → Except ε β} {xs : List α} {ys : List β} {x : α} {y : β}
    (made : xs.mapM f = .ok ys) (member : x ∈ xs) (own : f x = .ok y) : y ∈ ys := by
  induction mapM_eq_ok_iff.1 made with
  | nil => cases member
  | cons first rest ih =>
    rcases List.mem_cons.1 member with rfl | later
    · rw [Except.ok.inj (own.symm.trans first)]
      exact List.mem_cons_self ..
    · exact List.mem_cons_of_mem _ (ih (mapM_eq_ok_iff.2 rest) later)

/-! ## Coming to a value -/

/-- The computation comes to a value. -/
def Returns (computation : Except ε α) : Prop := ∃ value, computation = .ok value

theorem returns_ok (value : α) : Returns (.ok value : Except ε α) := ⟨value, rfl⟩

theorem not_returns_error (fault : ε) : ¬ Returns (.error fault : Except ε α) := nofun

instance (computation : Except ε α) : Decidable (Returns computation) :=
  match computation with
  | .ok value => .isTrue (returns_ok value)
  | .error fault => .isFalse (not_returns_error fault)

/-- Two computations in turn come to a value when the first does, and the second from there. -/
theorem returns_bind_iff {first : Except ε α} {next : α → Except ε β} {goesOn : Prop}
    (rest : ∀ found, first = .ok found → (Returns (next found) ↔ goesOn)) :
    Returns (first >>= next) ↔ Returns first ∧ goesOn := by
  cases first with
  | error fault =>
    exact iff_of_false (not_returns_error fault) fun both => not_returns_error fault both.1
  | ok found => exact (rest found rfl).trans (and_iff_right (returns_ok found)).symm

/-- Where the second always comes to a value, both do when the first does. -/
theorem returns_bind_iff_left {first : Except ε α} {next : α → Except ε β}
    (rest : ∀ found, first = .ok found → Returns (next found)) :
    Returns (first >>= next) ↔ Returns first :=
  (returns_bind_iff fun found made => iff_of_true (rest found made) trivial).trans
    (and_iff_left trivial)

theorem returns_map_iff {f : α → β} {first : Except ε α} :
    Returns (first.map f) ↔ Returns first := by
  cases first with
  | error fault => exact iff_of_false (not_returns_error fault) (not_returns_error fault)
  | ok found => exact iff_of_true (returns_ok (f found)) (returns_ok found)

theorem returns_mapM_iff {f : α → Except ε β} {xs : List α} :
    Returns (xs.mapM f) ↔ ∀ x ∈ xs, Returns (f x) := by
  induction xs with
  | nil => exact iff_of_true (returns_ok []) nofun
  | cons x xs ih =>
    rw [List.mapM_cons, List.forall_mem_cons]
    refine returns_bind_iff fun y _ => ?_
    exact (returns_bind_iff_left fun ys _ => returns_ok (y :: ys)).trans ih

/-! ## Two computations -/

/-- Both end at the same fault, or with related values. -/
inductive Alike {β γ : Type} (related : β → γ → Prop) : Except ε β → Except ε γ → Prop
  | error (fault : ε) : Alike related (.error fault) (.error fault)
  | ok {first : β} {second : γ} (same : related first second) :
      Alike related (.ok first) (.ok second)

namespace Alike

variable {β γ δ ζ : Type} {related : β → γ → Prop} {others : δ → ζ → Prop}
  {first : Except ε β} {second : Except ε γ}

theorem bind {next : β → Except ε δ} {later : γ → Except ε ζ} (alike : Alike related first second)
    (goesOn : ∀ x y, related x y → Alike others (next x) (later y)) :
    Alike others (first >>= next) (second >>= later) := by
  cases alike with
  | error fault => exact .error fault
  | ok same => exact goesOn _ _ same

/-- What goes on to the same from related values comes to the same. -/
theorem bind_eq {next : β → Except ε δ} {later : γ → Except ε δ}
    (alike : Alike related first second) (goesOn : ∀ x y, related x y → next x = later y) :
    (first >>= next) = (second >>= later) := by
  cases alike with
  | error fault => rfl
  | ok same => exact goesOn _ _ same

theorem mono {wider : β → γ → Prop} (alike : Alike related first second)
    (weaken : ∀ x y, related x y → wider x y) : Alike wider first second := by
  cases alike with
  | error fault => exact .error fault
  | ok same => exact .ok (weaken _ _ same)

theorem refl (computation : Except ε β) : Alike Eq computation computation := by
  cases computation with
  | error fault => exact .error fault
  | ok value => exact .ok rfl

/-- The same first part, and parts that are alike behind it. -/
theorem bind_of_eq {δ ζ : Type} {others : δ → ζ → Prop} {first second : Except ε β}
    {next : β → Except ε δ} {later : β → Except ε ζ} (same : first = second)
    (goesOn : ∀ value, Alike others (next value) (later value)) :
    Alike others (first >>= next) (second >>= later) := by
  subst same
  refine (refl first).bind fun value other equal => ?_
  subst equal
  exact goesOn value

end Alike

end Receipt.Outcome
