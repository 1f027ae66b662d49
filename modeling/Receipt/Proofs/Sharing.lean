import Mathlib.Algebra.BigOperators.Ring.Finset
import Receipt.Proofs.BinaryCounting

/-!
# Sharing out the width of a row

A row gives its cells their widths in two passes. Cells with a width of their own take it from what
is left, in turn, and what they leave is divided among the others (`Resolver.Dealt`). So the widths
together are the whole as soon as one cell is open, and never more (`Resolver.Shares`).

On exact numbers this is said of both targets (`Resolver.shares_shareOut`). Character cells are
shared out in any type that counts far enough as they are in exact numbers, entry by entry
(`Resolver.counted_shareOut`). Binary numbers count lines of less than `2 ^ 53` characters, and of longer
ones some are not shared out (`Resolver.not_widths_sharedOut`).
-/

namespace Receipt

namespace Resolver

open Outcome

section Widths

variable {α : Type} [Scalar α]

/-- Shares a width out among cells whose own widths are resolved. -/
def shareOut (resolver : Resolver α) (own : List (Option α)) (total : α) :
    Except NumberFault (List α) := do
  let (granted, remaining) := grantWidths (Scalar.max Scalar.zero total) own
  let free := granted.countP Option.isNone
  if free = 0 then return fillShares granted []
  return fillShares granted (← resolver.shares remaining free)

theorem widths_eq (resolver : Resolver α) (stated : List Value) (total : α) :
    resolver.widths stated total =
      (stated.mapM fun width => resolver.width width total) >>= (resolver.shareOut · total) := rfl

/-- The widths of the cells that have one of their own. -/
def explicitWidths : List (Option α) → List α → List α
  | some _ :: own, width :: widths => width :: explicitWidths own widths
  | none :: own, _ :: widths => explicitWidths own widths
  | [], _ | _, [] => []

/-- The widths of the cells that have none of their own. -/
def openWidths : List (Option α) → List α → List α
  | none :: own, width :: widths => width :: openWidths own widths
  | some _ :: own, _ :: widths => openWidths own widths
  | [], _ | _, [] => []

/-- Widths given out in turn: a cell with a width of its own takes it from what remains, any other
cell takes the next of the shares. -/
inductive Dealt : α → List (Option α) → List α → List α → α → Prop
  | nil (remaining : α) : Dealt remaining [] [] [] remaining
  | explicit {remaining left : α} {own : List (Option α)} {shares widths : List α} (width : α)
      (rest : Dealt (remaining - Scalar.min width remaining) own shares widths left) :
      Dealt remaining (some width :: own) shares (Scalar.min width remaining :: widths) left
  | free {remaining left : α} {own : List (Option α)} {shares widths : List α} (share : α)
      (rest : Dealt remaining own shares widths left) :
      Dealt remaining (none :: own) (share :: shares) (share :: widths) left

/-- The cells that are open before widths are granted are open behind that. -/
theorem countP_grantWidths (remaining : α) (own : List (Option α)) :
    (grantWidths remaining own).1.countP Option.isNone = own.countP Option.isNone := by
  induction own generalizing remaining with
  | nil => rfl
  | cons width own ih =>
    cases width with
    | none =>
      rw [grantWidths, List.countP_cons, List.countP_cons, ih]
    | some width =>
      rw [grantWidths, List.countP_cons, List.countP_cons, ih]
      rfl

/-- The two passes give out a share to each open cell. -/
theorem dealt_fillShares (remaining : α) {own : List (Option α)} {shares : List α}
    (each : shares.length = own.countP Option.isNone) :
    Dealt remaining own shares (fillShares (grantWidths remaining own).1 shares)
      (grantWidths remaining own).2 := by
  induction own generalizing remaining shares with
  | nil =>
    obtain rfl := List.eq_nil_of_length_eq_zero each
    exact .nil remaining
  | cons width own ih =>
    cases width with
    | some width =>
      rw [List.countP_cons_of_neg (by simp)] at each
      exact .explicit width (ih _ each)
    | none =>
      rw [List.countP_cons_of_pos rfl] at each
      obtain ⟨share, shares, rfl⟩ := List.exists_cons_of_length_eq_add_one each
      exact .free share (ih remaining (Nat.succ_inj.1 each))

namespace Dealt

variable {remaining left : α} {own : List (Option α)} {shares widths : List α}

theorem length_eq (dealt : Dealt remaining own shares widths left) :
    widths.length = own.length := by
  induction dealt with
  | nil remaining => rfl
  | explicit width rest ih => exact congrArg (· + 1) ih
  | free share rest ih => exact congrArg (· + 1) ih

theorem openWidths_eq (dealt : Dealt remaining own shares widths left) :
    openWidths own widths = shares := by
  induction dealt with
  | nil remaining => rfl
  | explicit width rest ih => exact ih
  | free share rest ih => exact congrArg (share :: ·) ih

end Dealt

end Widths

/-! ## Exact numbers -/

/-- How a width is shared out. `own` has the widths that cells ask for, limited to the whole. -/
structure Shares (target : Target) (total : Rat) (own : List (Option Rat)) (widths : List Rat) :
    Prop where
  length_eq : widths.length = own.length
  nonneg : ∀ width ∈ widths, 0 ≤ width
  sum_le : widths.sum ≤ total
  sum_eq : none ∈ own → widths.sum = total
  /-- What a cell asks for is cut to what the cells in front of it have left. -/
  explicit (i : Nat) (width : Rat) : own[i]? = some (some width) →
    widths[i]? = some (min width (total - (explicitWidths (own.take i) widths).sum))
  whole : target = .cells → ∀ width ∈ widths, Whole width
  /-- Characters that cannot be divided go to the first of the open cells. -/
  fair : target = .cells → (openWidths own widths).Pairwise fun a b => b ≤ a ∧ a ≤ b + 1
  even : target = .points → (openWidths own widths).Pairwise Eq

namespace Dealt

variable {remaining left : Rat} {own : List (Option Rat)} {shares widths : List Rat}

/-- What is given out and what is left make up what there was and the shares. -/
theorem sum_eq (dealt : Dealt remaining own shares widths left) :
    widths.sum + left = remaining + shares.sum := by
  induction dealt with
  | nil remaining => simp
  | explicit width rest ih =>
    rw [List.sum_cons]
    linarith
  | free share rest ih =>
    rw [List.sum_cons, List.sum_cons]
    linarith

/-- What holds of the numbers at the start, and is kept by cutting and by taking away, holds of what
is left, and of what is given out if it holds of the shares. -/
theorem all {holds : Rat → Prop} (dealt : Dealt remaining own shares widths left)
    (cut : ∀ a b, holds a → holds b → holds (min a b))
    (takenAway : ∀ a b, holds a → holds b → b ≤ a → holds (a - b))
    (start : holds remaining) (asked : ∀ width, some width ∈ own → holds width) :
    holds left ∧ ((∀ share ∈ shares, holds share) → ∀ width ∈ widths, holds width) := by
  induction dealt with
  | nil remaining => exact ⟨start, fun _ => nofun⟩
  | @explicit remaining left own shares widths width rest ih =>
    have taken : holds (Scalar.min width remaining) := by
      rw [Scalar.min_rat]
      exact cut _ _ (asked width (List.mem_cons_self ..)) start
    obtain ⟨rest, later⟩ := ih (takenAway _ _ start taken (Scalar.min_le_rat _ _))
      fun other member => asked other (List.mem_cons_of_mem _ member)
    exact ⟨rest, fun divided => List.forall_mem_cons.2 ⟨taken, later divided⟩⟩
  | free share rest ih =>
    obtain ⟨rest, later⟩ := ih start fun other member => asked other (List.mem_cons_of_mem _ member)
    refine ⟨rest, fun divided => ?_⟩
    obtain ⟨first, others⟩ := List.forall_mem_cons.1 divided
    exact List.forall_mem_cons.2 ⟨first, later others⟩

/-- A cell gets what it asks for, cut to what the cells in front of it have left. -/
theorem explicit_eq (dealt : Dealt remaining own shares widths left) {i : Nat} {width : Rat}
    (asked : own[i]? = some (some width)) :
    widths[i]? = some (min width (remaining - (explicitWidths (own.take i) widths).sum)) := by
  induction dealt generalizing i with
  | nil remaining => simp at asked
  | @explicit remaining left own shares widths first rest ih =>
    cases i with
    | zero =>
      obtain rfl := Option.some.inj (Option.some.inj asked)
      simp [explicitWidths, Scalar.min_rat]
    | succ i =>
      have later := ih asked
      rw [List.getElem?_cons_succ, later, List.take_succ_cons, explicitWidths, List.sum_cons,
        sub_sub]
  | free share rest ih =>
    cases i with
    | zero => simp at asked
    | succ i =>
      have later := ih asked
      rw [List.getElem?_cons_succ, later, List.take_succ_cons, explicitWidths]

end Dealt

/-! ### Dividing what is left -/

/-- Characters divided among a number of cells, those that are left over given to the first ones. -/
def portions (whole count : Nat) : List Nat :=
  (List.range count).map fun n => whole / count + if n < whole % count then 1 else 0

theorem sum_portions (whole : Nat) {count : Nat} (positive : count ≠ 0) :
    (portions whole count).sum = whole := by
  have upTo (first : Nat) : ((List.range first).map fun n =>
      whole / count + if n < whole % count then 1 else 0).sum =
        whole / count * first + min first (whole % count) := by
    induction first with
    | zero => simp
    | succ first ih =>
      rw [List.range_succ, List.map_append, List.sum_append, ih, List.map_singleton,
        List.sum_singleton, Nat.mul_succ]
      split <;> omega
  have below : whole % count ≤ count := (Nat.mod_lt whole (Nat.pos_of_ne_zero positive)).le
  rw [portions, upTo, min_eq_right below, Nat.mul_comm, Nat.div_add_mod]

theorem pairwise_portions (whole count : Nat) :
    (portions whole count).Pairwise fun a b => b ≤ a ∧ a ≤ b + 1 := by
  refine List.pairwise_map.2 (List.pairwise_lt_range.imp fun {first second} less => ?_)
  split <;> split <;> omega

/-- No cell is given more characters than there are. -/
theorem portion_le (whole count n : Nat) :
    whole / count + (if n < whole % count then 1 else 0) ≤ whole := by
  have parts := Nat.div_add_mod whole count
  rcases Nat.eq_zero_or_pos count with rfl | positive
  · rw [Nat.div_zero, Nat.mod_zero]
    split <;> omega
  · have quotient : whole / count ≤ count * (whole / count) := Nat.le_mul_of_pos_left _ positive
    split <;> omega

theorem length_of_shares {α : Type} [Scalar α] {resolver : Resolver α} {remaining : α} {count : Nat}
    {shares : List α} (made : resolver.shares remaining count = .ok shares) :
    shares.length = count := by
  unfold Resolver.shares at made
  split at made
  · obtain rfl := Except.ok.inj made
    exact List.length_replicate
  · obtain ⟨whole, _, made⟩ := bind_eq_ok_iff.1 made
    exact (mapM_eq_ok_iff.1 made).length_eq.symm.trans List.length_range

/-- On a receipt printer what is left is divided into whole characters. -/
theorem forall₂_of_shares {α : Type} [Scalar α] {resolver : Resolver α}
    (cells : resolver.target = .cells) {remaining : α} {whole count : Nat}
    (cut : (Scalar.truncate remaining : Except NumberFault Int) = .ok (whole : Int))
    {shares : List α} (made : resolver.shares remaining count = .ok shares) :
    List.Forall₂ (fun share (portion : Nat) => Scalar.Stands share portion ∧ portion ≤ whole) shares
      (portions whole count) := by
  unfold Resolver.shares at made
  simp only [cells] at made
  obtain ⟨number, same, made⟩ := bind_eq_ok_iff.1 made
  obtain rfl := Except.ok.inj (cut.symm.trans same)
  refine List.forall₂_map_right_iff.2 ((mapM_eq_ok_iff.1 made).flip.imp fun share n stands => ?_)
  refine ⟨?_, portion_le whole count n⟩
  unfold Scalar.Stands
  rw [← stands]
  push_cast
  norm_cast

theorem shares_cells {resolver : Resolver Rat} (cells : resolver.target = .cells)
    (whole count : Nat) : resolver.shares (whole : Rat) count =
      .ok ((portions whole count).map (Nat.cast : Nat → Rat)) := by
  unfold Resolver.shares
  simp only [cells, Scalar.truncate_natCast]
  refine mapM_eq_ok_iff.2 ?_
  rw [portions, List.map_map, List.forall₂_map_right_iff, List.forall₂_same]
  intro n _
  refine congrArg Except.ok ?_
  push_cast
  norm_cast

theorem shares_points {resolver : Resolver Rat} (points : resolver.target = .points)
    (remaining : Rat) (count : Nat) :
    resolver.shares remaining count = .ok (List.replicate count (remaining / count)) := by
  unfold Resolver.shares
  simp only [points, Scalar.ofNat_rat]

/-- How what is left is divided among cells. -/
structure Divides (target : Target) (remaining : Rat) (shares : List Rat) : Prop where
  nonneg : ∀ share ∈ shares, 0 ≤ share
  sum_eq : shares.sum = remaining
  whole : target = .cells → ∀ share ∈ shares, Whole share
  fair : target = .cells → shares.Pairwise fun a b => b ≤ a ∧ a ≤ b + 1
  even : target = .points → shares.Pairwise Eq

theorem divides_shares {resolver : Resolver Rat} {remaining : Rat} {count : Nat} {shares : List Rat}
    (nonneg : 0 ≤ remaining) (counted : resolver.target = .cells → Whole remaining)
    (positive : count ≠ 0) (made : resolver.shares remaining count = .ok shares) :
    Divides resolver.target remaining shares := by
  cases target : resolver.target with
  | cells =>
    obtain ⟨whole, rfl⟩ := counted target
    rw [shares_cells target] at made
    obtain rfl := Except.ok.inj made
    have each : ∀ share ∈ (portions whole count).map (Nat.cast : Nat → Rat), Whole share :=
      List.forall_mem_map.2 fun portion _ => ⟨portion, rfl⟩
    refine ⟨fun share member => (each share member).nonneg, ?_, fun _ => each, fun _ => ?_, nofun⟩
    · rw [← Nat.cast_list_sum, sum_portions whole positive]
    · refine List.pairwise_map.2 ?_
      refine (pairwise_portions whole count).imp fun {first second} order => ?_
      exact_mod_cast order
  | points =>
    rw [shares_points target] at made
    obtain rfl := Except.ok.inj made
    refine ⟨fun share member => ?_, ?_, nofun, nofun, fun _ => ?_⟩
    · rw [List.eq_of_mem_replicate member]
      exact div_nonneg nonneg (Nat.cast_nonneg count)
    · rw [List.sum_replicate, nsmul_eq_mul]
      exact mul_div_cancel₀ _ (Nat.cast_ne_zero.2 positive)
    · exact List.pairwise_replicate.2 (.inr rfl)

/-! ### The two passes together -/

/-- With exact numbers the two passes share a width out. -/
theorem shares_shareOut {resolver : Resolver Rat} {own : List (Option Rat)} {total : Rat}
    {widths : List Rat} (nonneg : 0 ≤ total) (counted : resolver.target = .cells → Whole total)
    (asked : ∀ width, some width ∈ own → 0 ≤ width)
    (characters : resolver.target = .cells → ∀ width, some width ∈ own → Whole width)
    (made : resolver.shareOut own total = .ok widths) :
    Shares resolver.target total own widths := by
  unfold shareOut at made
  rw [Scalar.max_rat, Scalar.zero_rat, max_eq_right nonneg] at made
  simp only [countP_grantWidths] at made
  have kept {given widths : List Rat}
      (dealt : Dealt total own given widths (grantWidths total own).2) :=
    dealt.all (fun _ _ => le_min) (fun _ _ _ _ => sub_nonneg.2) nonneg asked
  have whole (cells : resolver.target = .cells) {given widths : List Rat}
      (dealt : Dealt total own given widths (grantWidths total own).2) :=
    dealt.all (fun _ _ => Whole.min) (fun _ _ => Whole.sub) (counted cells) (characters cells)
  split at made
  · next closed =>
    obtain rfl := pure_eq_ok_iff.1 made
    have dealt : Dealt total own [] _ _ := dealt_fillShares total closed.symm
    have sum := dealt.sum_eq
    rw [List.sum_nil] at sum
    have left := (kept dealt).1
    refine ⟨dealt.length_eq, (kept dealt).2 nofun, by linarith, fun free => ?_,
      fun i width => dealt.explicit_eq, fun cells => (whole cells dealt).2 nofun, ?_, ?_⟩
    · exact absurd rfl (List.countP_eq_zero.1 closed _ free)
    · rw [dealt.openWidths_eq]
      exact fun _ => .nil
    · rw [dealt.openWidths_eq]
      exact fun _ => .nil
  · next unclosed =>
    obtain ⟨shares, divided, made⟩ := bind_eq_ok_iff.1 made
    obtain rfl := pure_eq_ok_iff.1 made
    have dealt := dealt_fillShares total (length_of_shares divided)
    have divides :=
      divides_shares (kept dealt).1 (fun cells => (whole cells dealt).1) unclosed divided
    have sum := dealt.sum_eq
    rw [divides.sum_eq] at sum
    refine ⟨dealt.length_eq, (kept dealt).2 divides.nonneg, by linarith, fun _ => by linarith,
      fun i width => dealt.explicit_eq, fun cells => (whole cells dealt).2 (divides.whole cells),
      ?_, ?_⟩
    · rw [dealt.openWidths_eq]
      exact divides.fair
    · rw [dealt.openWidths_eq]
      exact divides.even

theorem nonneg_of_width {resolver : Resolver Rat} {value : Value} {outer width : Rat}
    (resolved : resolver.width value outer = .ok (some width)) : 0 ≤ width := by
  unfold Resolver.width at resolved
  split at resolved
  · obtain ⟨stated, made, resolved⟩ := bind_eq_ok_iff.1 resolved
    obtain ⟨asked, _, limited⟩ := Option.map_eq_some_iff.1 (pure_eq_ok_iff.1 resolved)
    rw [← limited, Scalar.max_rat]
    exact le_max_left _ _
  · cases resolved

/-- The widths of a row in exact numbers. -/
theorem shares_widths {resolver : Resolver Rat} {stated : List Value} {total : Rat}
    {widths : List Rat} (nonneg : 0 ≤ total) (counted : resolver.target = .cells → Whole total)
    (made : resolver.widths stated total = .ok widths) :
    ∃ own, (stated.mapM fun width => resolver.width width total) = .ok own ∧
      Shares resolver.target total own widths := by
  rw [widths_eq] at made
  obtain ⟨own, resolved, made⟩ := bind_eq_ok_iff.1 made
  refine ⟨own, resolved, shares_shareOut nonneg counted ?_ ?_ made⟩
  · intro width member
    obtain ⟨value, _, stated⟩ := exists_of_mem_mapM resolved member
    exact nonneg_of_width stated
  · intro cells width member
    obtain ⟨value, _, stated⟩ := exists_of_mem_mapM resolved member
    exact (whole_of_width cells (counted cells) stated).1

/-! ## Numbers that count -/

section Simulation

variable {α : Type} [Scalar α] {most : Nat}

open Scalar (Counts Stands)

theorem counted_grantWidths (counts : Counts α most) {remaining : α} {left : Rat}
    {own : List (Option α)} {exactOwn : List (Option Rat)} (start : Counted most remaining left)
    (asked : List.Forall₂ (Option.Rel (Counted most)) own exactOwn) :
    List.Forall₂ (Option.Rel (Counted most)) (grantWidths remaining own).1
        (grantWidths left exactOwn).1 ∧
      Counted most (grantWidths remaining own).2 (grantWidths left exactOwn).2 := by
  induction asked generalizing remaining left with
  | nil => exact ⟨.nil, start⟩
  | cons same _ ih =>
    cases same with
    | none =>
      obtain ⟨granted, rest⟩ := ih start
      exact ⟨.cons .none granted, rest⟩
    | some same =>
      have taken := same.min counts start
      obtain ⟨granted, rest⟩ := ih (start.sub counts taken (Scalar.min_le_rat _ _))
      exact ⟨.cons (.some taken) granted, rest⟩

theorem counted_fillShares (counts : Counts α most) {granted : List (Option α)}
    {exactGranted : List (Option Rat)} {shares : List α} {exactShares : List Rat}
    (each : List.Forall₂ (Option.Rel (Counted most)) granted exactGranted)
    (divided : List.Forall₂ (Counted most) shares exactShares) :
    List.Forall₂ (Counted most) (fillShares granted shares)
      (fillShares exactGranted exactShares) := by
  induction each generalizing shares exactShares with
  | nil => exact .nil
  | cons same _ ih =>
    cases same with
    | some same => exact .cons same (ih divided)
    | none =>
      cases divided with
      | nil => exact .cons ⟨0, Nat.zero_le _, counts.zero, rfl⟩ (ih .nil)
      | cons first others => exact .cons first (ih others)

theorem countP_eq_of_rel {granted : List (Option α)} {exactGranted : List (Option Rat)}
    (each : List.Forall₂ (Option.Rel (Counted most)) granted exactGranted) :
    granted.countP Option.isNone = exactGranted.countP Option.isNone := by
  induction each with
  | nil => rfl
  | cons same _ ih =>
    rw [List.countP_cons, List.countP_cons, ih]
    cases same <;> rfl

theorem counted_shares (counts : Counts α most) {resolver : Resolver α}
    (cells : resolver.target = .cells) {exactly : Resolver Rat} (also : exactly.target = .cells)
    {remaining : α} {left : Rat} {count : Nat} (start : Counted most remaining left)
    {shares : List α}
    (made : resolver.shares remaining count = .ok shares) :
    ∃ exactShares, exactly.shares left count = .ok exactShares ∧
      List.Forall₂ (Counted most) shares exactShares := by
  obtain ⟨whole, within, stands, rfl⟩ := start
  refine ⟨_, shares_cells also whole count, List.forall₂_map_right_iff.2 ?_⟩
  refine (forall₂_of_shares cells (counts.truncate stands within) made).imp
    fun share portion own => ?_
  exact ⟨portion, own.2.trans within, own.1, rfl⟩

/-- Numbers that count share a width out as exact numbers do. -/
theorem counted_shareOut (counts : Counts α most) {resolver : Resolver α}
    (cells : resolver.target = .cells) {exactly : Resolver Rat} (also : exactly.target = .cells)
    {total : α} {exactTotal : Rat} (start : Counted most total exactTotal)
    {own : List (Option α)} {exactOwn : List (Option Rat)}
    (asked : List.Forall₂ (Option.Rel (Counted most)) own exactOwn) {widths : List α}
    (made : resolver.shareOut own total = .ok widths) :
    ∃ exactWidths, exactly.shareOut exactOwn exactTotal = .ok exactWidths ∧
      List.Forall₂ (Counted most) widths exactWidths := by
  have whole := start.max_zero counts
  obtain ⟨granted, rest⟩ := counted_grantWidths counts whole asked
  unfold shareOut at made ⊢
  simp only [countP_eq_of_rel granted] at made
  simp only
  split at made
  · next closed =>
    obtain rfl := pure_eq_ok_iff.1 made
    rw [if_pos closed]
    exact ⟨_, rfl, counted_fillShares counts granted .nil⟩
  · next unclosed =>
    obtain ⟨shares, divided, made⟩ := bind_eq_ok_iff.1 made
    obtain rfl := pure_eq_ok_iff.1 made
    obtain ⟨exactShares, exactDivided, each⟩ := counted_shares counts cells also rest divided
    rw [if_neg unclosed, exactDivided]
    exact ⟨_, rfl, counted_fillShares counts granted each⟩

/-- A width of its own is a count that fits into the whole. -/
theorem counted_width (counts : Counts α most) {resolver : Resolver α}
    (cells : resolver.target = .cells) {value : Value} {outer width : α} {n : Nat}
    (within : n ≤ most) (stands : Stands outer n)
    (resolved : resolver.width value outer = .ok (some width)) :
    ∃ m ≤ n, Stands width m := by
  unfold Resolver.width at resolved
  split at resolved
  · obtain ⟨stated, made, resolved⟩ := bind_eq_ok_iff.1 resolved
    cases stated with
    | none => cases resolved
    | some stated =>
      obtain ⟨i, asked⟩ := ofInt_of_statedWidth cells made
      obtain rfl := Option.some.inj (pure_eq_ok_iff.1 resolved)
      exact ⟨_, min_le_right _ _, counts.limited asked stands within⟩
  · cases resolved

/-- Each width of its own, as the exact number it stands for. -/
theorem exists_counted_widths (counts : Counts α most) {resolver : Resolver α}
    (cells : resolver.target = .cells) {stated : List Value} {total : α} {n : Nat}
    (within : n ≤ most) (stands : Stands total n) {own : List (Option α)}
    (resolved : (stated.mapM fun width => resolver.width width total) = .ok own) :
    ∃ exactOwn, List.Forall₂ (Option.Rel (Counted most)) own exactOwn ∧
      ∀ width, some width ∈ exactOwn → Whole width := by
  induction mapM_eq_ok_iff.1 resolved with
  | nil => exact ⟨[], .nil, nofun⟩
  | @cons value width _ _ made rest ih =>
    obtain ⟨exactOwn, each, whole⟩ := ih (mapM_eq_ok_iff.2 rest)
    cases width with
    | none => exact ⟨none :: exactOwn, .cons .none each, by simpa using whole⟩
    | some width =>
      obtain ⟨m, enough, own⟩ := counted_width counts cells within stands made
      refine ⟨some (m : Rat) :: exactOwn, .cons (.some ⟨m, enough.trans within, own, rfl⟩) each, ?_⟩
      intro other member
      rcases List.mem_cons.1 member with same | later
      · exact ⟨m, Option.some.inj same⟩
      · exact whole other later

/-- In character cells the widths of a row stand for exact numbers that share the whole out. -/
theorem exists_shares (counts : Counts α most) {resolver : Resolver α}
    (cells : resolver.target = .cells) {stated : List Value} {total : α} {n : Nat}
    (within : n ≤ most) (stands : Stands total n) {widths : List α}
    (made : resolver.widths stated total = .ok widths) :
    ∃ own exactOwn exactWidths,
      (stated.mapM fun width => resolver.width width total) = .ok own ∧
      List.Forall₂ (Option.Rel (Counted most)) own exactOwn ∧
      List.Forall₂ (Counted most) widths exactWidths ∧ Shares .cells n exactOwn exactWidths := by
  rw [widths_eq] at made
  obtain ⟨own, resolved, made⟩ := bind_eq_ok_iff.1 made
  obtain ⟨exactOwn, each, whole⟩ := exists_counted_widths counts cells within stands resolved
  have exactly : (⟨.cells, resolver.maxSize, 0⟩ : Resolver Rat).target = .cells := rfl
  obtain ⟨exactWidths, shared, same⟩ :=
    counted_shareOut counts cells exactly ⟨n, within, stands, rfl⟩ each made
  exact ⟨own, exactOwn, exactWidths, resolved, each, same,
    shares_shareOut (Nat.cast_nonneg n) (fun _ => ⟨n, rfl⟩)
      (fun width own => (whole width own).nonneg) (fun _ => whole) shared⟩

end Simulation

/-! ## Exact and binary numbers -/

/-- The exact value of a binary number. -/
def Denotes (x : Float) (exact : Rat) : Prop := (Scalar.ofBinary x : Option Rat) = some exact

theorem denotes_of_counted {x : Float} {exact : Rat} (counted : Counted (2 ^ 53 - 1) x exact) :
    Denotes x exact := by
  obtain ⟨n, within, stands, rfl⟩ := counted
  exact Scalar.ofBinary_of_stands stands (by omega)

/-- Widths are shared out as `Shares` says: in exact numbers for either target, and in binary
numbers among character cells, as many as binary numbers count. -/
theorem widths_sharedOut :
    (∀ {resolver : Resolver Rat} {stated : List Value} {total : Rat} {widths : List Rat},
      0 ≤ total → (resolver.target = .cells → Whole total) →
      resolver.widths stated total = .ok widths →
      ∃ own, (stated.mapM fun width => resolver.width width total) = .ok own ∧
        Shares resolver.target total own widths) ∧
    ∀ {resolver : Resolver Float} {stated : List Value} {characters : Nat} {total : Float}
      {widths : List Float}, resolver.target = .cells → characters < 2 ^ 53 →
      Scalar.ofInt characters = .ok total → resolver.widths stated total = .ok widths →
      ∃ own exactOwn exactWidths,
        (stated.mapM fun width => resolver.width width total) = .ok own ∧
        List.Forall₂ (Option.Rel Denotes) own exactOwn ∧
        List.Forall₂ Denotes widths exactWidths ∧
        Shares .cells characters exactOwn exactWidths := by
  refine ⟨shares_widths, fun {resolver stated characters total widths} cells few stands made => ?_⟩
  obtain ⟨own, exactOwn, exactWidths, resolved, each, same, shares⟩ :=
    exists_shares Scalar.Counts.binary cells (Nat.le_sub_one_of_lt few) stands made
  refine ⟨own, exactOwn, exactWidths, resolved, each.imp fun x exact related => ?_,
    same.imp fun x exact => denotes_of_counted, shares⟩
  cases related with
  | none => exact .none
  | some counted => exact .some (denotes_of_counted counted)

theorem widths_sharedOut_three :
    (∃ own, ([.text "30%", .null, .null].mapM fun width =>
        (⟨.points, .normal, 10⟩ : Resolver Rat).width width 10) = .ok own ∧
      Shares .points 10 own [3, 7 / 2, 7 / 2]) ∧
    ∃ own exactOwn exactWidths, ([.text "30%", .null, .null].mapM fun width =>
        (⟨.cells, .normal, 10⟩ : Resolver Float).width width 10) = .ok own ∧
      List.Forall₂ (Option.Rel Denotes) own exactOwn ∧
      List.Forall₂ Denotes [3, 4, 3] exactWidths ∧ Shares .cells (10 : Nat) exactOwn exactWidths :=
  ⟨widths_sharedOut.1 (by decide) nofun (by decide +kernel),
    widths_sharedOut.2 rfl (by decide) (by rfl) (by rfl)⟩

/-- A line with an open cell is not shared out when the widths do not come to the whole of it. -/
theorem not_shares_of_sum_ne {own : List (Option Float)} {widths : List Float}
    {exact : List Rat} {characters : Rat} (unsized : none ∈ own)
    (denotes : List.Forall₂ Denotes widths exact) (lost : exact.sum ≠ characters) :
    ¬ ∃ exactOwn exactWidths, List.Forall₂ (Option.Rel Denotes) own exactOwn ∧
      List.Forall₂ Denotes widths exactWidths ∧ Shares .cells characters exactOwn exactWidths := by
  rintro ⟨exactOwn, exactWidths, each, same, shares⟩
  have unique : Relator.RightUnique Denotes := fun x first second one other =>
    Option.some.inj (one.symm.trans other)
  obtain rfl := List.right_unique_forall₂' unique denotes same
  exact lost (shares.sum_eq (none_mem_of_rel each unsized))

/-- Whole numbers that binary numbers do not count are not shared out. An open cell that has a line of
`2 ^ 53 + 1` characters to itself gets one less, and three of them on a line of `2 ^ 60` characters
leave 64 of these over. -/
theorem not_widths_sharedOut :
    let resolver : Resolver Float := ⟨.cells, .normal, 10⟩
    (∃ total widths own, (Scalar.ofInt (2 ^ 53 + 1) : Except NumberFault Float) = .ok total ∧
      resolver.widths [.null] total = .ok widths ∧
      ([.null].mapM fun width => resolver.width width total) = .ok own ∧
      ¬ ∃ exactOwn exactWidths, List.Forall₂ (Option.Rel Denotes) own exactOwn ∧
        List.Forall₂ Denotes widths exactWidths ∧
        Shares .cells (2 ^ 53 + 1) exactOwn exactWidths) ∧
    ∃ total widths own, (Scalar.ofInt (2 ^ 60) : Except NumberFault Float) = .ok total ∧
      resolver.widths [.null, .null, .null] total = .ok widths ∧
      ([.null, .null, .null].mapM fun width => resolver.width width total) = .ok own ∧
      ¬ ∃ exactOwn exactWidths, List.Forall₂ (Option.Rel Denotes) own exactOwn ∧
        List.Forall₂ Denotes widths exactWidths ∧ Shares .cells (2 ^ 60) exactOwn exactWidths := by
  have line : Denotes 9007199254740992 (2 ^ 53) := by
    unfold Denotes
    decide +kernel
  have third : Denotes 384307168202282304 384307168202282304 := by
    unfold Denotes
    decide +kernel
  refine ⟨⟨9007199254740992, [9007199254740992], [none], by rfl, by rfl, by rfl, ?_⟩,
    ⟨1152921504606846976, List.replicate 3 384307168202282304, List.replicate 3 none,
      by rfl, by decide +kernel, by rfl, ?_⟩⟩
  · exact not_shares_of_sum_ne (List.mem_cons_self ..) (.cons line .nil) (by norm_num)
  · exact not_shares_of_sum_ne (List.mem_cons_self ..)
      (.cons third (.cons third (.cons third .nil))) (by norm_num)

end Resolver

end Receipt
