import Receipt.Proofs.Boxes
import Receipt.Proofs.Resolvable
import Receipt.Proofs.Sharing

/-!
# Content boxes in characters

On a receipt printer every content box begins at the left edge of the paper and ends a number of
characters before the right one (`Extent.InCharacters`). A container keeps it so for its border and its
content, whatever its style resolves to (`Extent.InCharacters.bordered`, `Extent.InCharacters.inner`),
and so do the anchors for the boxes of pictures (`Anchors.InCharacters.pictureExtent`).

The numbers are binary ones, and a line is taken to have fewer than `2 ^ 53` characters. Then the width
of every box is one that binary numbers count, and none of them is infinite or no number at all.
-/

namespace Receipt

open Outcome
open Scalar (Stands Counts)

/-- The number is a count of at most so many characters. -/
def CountsTo (most : Nat) (x : Float) : Prop := ∃ n ≤ most, Stands x n

theorem CountsTo.isFinite {most : Nat} {x : Float} (counts : CountsTo most x) :
    x.isFinite = true := by
  obtain ⟨n, _, stands⟩ := counts
  exact (Scalar.stands_float stands).2

theorem CountsTo.zero (most : Nat) : CountsTo most Scalar.zero :=
  ⟨0, Nat.zero_le _, Counts.binary.zero⟩

/-- A number that is less than another one is not more than it. -/
theorem le_of_lt_float {x y : Float} (less : x < y) : x ≤ y := by
  rw [lt_iff] at less
  rw [le_iff]
  unfold Float.Model.UnpackedFloat.lt at less
  unfold Float.Model.UnpackedFloat.le
  rw [beq_iff_eq] at less
  rw [less]
  rfl

namespace Extent

/-- A box from the left edge of a line of so many characters to some of them before its end. -/
structure InCharacters (most : Nat) (extent : Extent Float) : Prop where
  pageWidth : Stands extent.pageWidth most
  left : ∀ inset ∈ extent.insets, inset.1 = Scalar.zero
  right : CountsTo most (Scalar.sum (extent.insets.map (·.2)))

namespace InCharacters

variable {most : Nat} {extent : Extent Float}

theorem of_page {pageWidth : Float} (stands : Stands pageWidth most) :
    InCharacters most ⟨pageWidth, []⟩ :=
  ⟨stands, fun _ member => absurd member List.not_mem_nil, CountsTo.zero most⟩

theorem left_eq (own : extent.InCharacters most) : extent.left = Scalar.zero := by
  have zeros : ∀ first ∈ extent.insets.map (·.1), first = Scalar.zero := by
    intro first member
    obtain ⟨inset, inside, rfl⟩ := List.mem_map.1 member
    exact own.left inset inside
  have sum := Scalar.sum_append_of_zero zeros []
  rw [List.append_nil] at sum
  exact sum

section Short

variable (short : most < 2 ^ 53) (own : extent.InCharacters most)

include short own

/-- What the insets take from a box, and what is left of it. -/
theorem exists_taken : ∃ taken ≤ most,
    Stands (Scalar.sum (extent.insets.map (·.2))) taken ∧
      Stands extent.right (most - taken : Nat) ∧ Stands extent.width (most - taken : Nat) := by
  obtain ⟨taken, within, stands⟩ := own.right
  have right : Stands extent.right (most - taken : Nat) :=
    Counts.binary.sub own.pageWidth stands within (by omega)
  refine ⟨taken, within, stands, right, ?_⟩
  unfold width
  rw [own.left_eq, Scalar.LawfulZero.sub_zero]
  exact Counts.binary.max_zero right

theorem right_countsTo : CountsTo most extent.right := by
  obtain ⟨taken, _, _, right, _⟩ := own.exists_taken short
  exact ⟨most - taken, Nat.sub_le _ _, right⟩

theorem width_countsTo : CountsTo most extent.width := by
  obtain ⟨taken, _, _, _, width⟩ := own.exists_taken short
  exact ⟨most - taken, Nat.sub_le _ _, width⟩

/-- A box with some more characters taken from its end. -/
theorem inset_zero {taken more : Nat} {y : Float}
    (stands : Stands (Scalar.sum (extent.insets.map (·.2))) taken) (asked : Stands y more)
    (fits : taken + more ≤ most) : (extent.inset Scalar.zero y).InCharacters most := by
  have none : Scalar.max Scalar.zero Scalar.zero = (Scalar.zero : Float) :=
    if_neg Scalar.LawfulZero.not_zero_lt_zero
  have total : Stands (Scalar.sum (extent.insets.map (·.2)) + Scalar.max Scalar.zero y)
      (taken + more : Nat) :=
    Scalar.stands_add stands (Counts.binary.max_zero asked) (by omega)
  refine ⟨own.pageWidth, fun inset member => ?_, taken + more, fits, ?_⟩
  · rcases List.mem_append.1 member with before | last
    · exact own.left inset before
    · rw [List.mem_singleton.1 last]
      exact none
  · have sum : Scalar.sum ((extent.inset Scalar.zero y).insets.map (·.2)) =
        Scalar.sum (extent.insets.map (·.2)) + Scalar.max Scalar.zero y := by
      unfold inset Scalar.sum
      rw [List.map_append, List.foldl_append]
      rfl
    rw [sum]
    exact total

theorem inset_none : (extent.inset Scalar.zero Scalar.zero).InCharacters most := by
  obtain ⟨taken, within, stands, _⟩ := own.exists_taken short
  exact own.inset_zero short stands Counts.binary.zero within

/-- A box that is narrowed to a count. -/
theorem narrowed {width : Option Float} (counted : ∀ own ∈ width, CountsTo most own) :
    (extent.narrowed width).InCharacters most := by
  cases width with
  | none => exact own
  | some width =>
    obtain ⟨n, _, asked⟩ := counted width rfl
    obtain ⟨taken, within, stands, _, room⟩ := own.exists_taken short
    unfold Extent.narrowed
    dsimp only
    split
    · exact own
    · next large =>
      have enough : n ≤ most - taken := by
        by_contra more
        refine large (le_of_lt_float ((Counts.binary.lt_iff room asked (.inl ?_)).2 ?_))
        · omega
        · omega
      have rest := Counts.binary.sub room asked enough (by omega)
      exact own.inset_zero short stands rest (by omega)

end Short

/-- A box of its own at the left edge. -/
theorem framed (short : most < 2 ^ 53) {pageWidth width : Float} (stands : Stands pageWidth most)
    (counted : CountsTo most width) :
    ((⟨pageWidth, []⟩ : Extent Float).framed Scalar.zero width).InCharacters most := by
  obtain ⟨n, within, asked⟩ := counted
  have rest : Stands (pageWidth - Scalar.zero - width) (most - n : Nat) := by
    rw [Scalar.LawfulZero.sub_zero]
    exact Counts.binary.sub stands asked within (by omega)
  have none : Stands (Scalar.zero : Float) (0 : Nat) := Counts.binary.zero
  exact (of_page stands).inset_zero short none rest (by omega)

end InCharacters

end Extent

/-! ## Containers -/

/-- Spacing of whole lines, and none at the sides. -/
structure Edges.InLines (edges : Edges Float) : Prop where
  left : edges.left = Scalar.zero
  right : edges.right = Scalar.zero
  top : edges.top.isFinite = true
  bottom : edges.bottom.isFinite = true

/-- A container with spacing of whole lines, and with a width that is a count if it has one. -/
structure BoxLook.InCharacters (most : Nat) (look : BoxLook Float) : Prop where
  margin : look.margin.InLines
  padding : look.padding.InLines
  width : ∀ width ∈ look.width, CountsTo most width

namespace Resolver

variable {resolver : Resolver Float} {most : Nat}

theorem inLines_of_edges (cells : resolver.target = .cells) {top right bottom left : Option Float}
    {edges : Edges Float} (resolved : resolver.edges top right bottom left = .ok edges) :
    edges.InLines := by
  have sides := sides_of_edges cells resolved
  unfold Resolver.edges at resolved
  rw [cells] at resolved
  obtain ⟨_, _, resolved⟩ := bind_eq_ok_iff.1 resolved
  obtain ⟨_, above, resolved⟩ := bind_eq_ok_iff.1 resolved
  obtain ⟨_, _, resolved⟩ := bind_eq_ok_iff.1 resolved
  obtain ⟨_, below, resolved⟩ := bind_eq_ok_iff.1 resolved
  obtain rfl := pure_eq_ok_iff.1 resolved
  exact ⟨sides.1, sides.2, (Scalar.stands_float above).2, (Scalar.stands_float below).2⟩

theorem inCharacters_of_box (cells : resolver.target = .cells) (short : most < 2 ^ 53)
    {style : ViewStyle Float} {outer : Float} (around : CountsTo most outer) {look : BoxLook Float}
    (resolved : resolver.box style outer = .ok look) : look.InCharacters most := by
  unfold Resolver.box at resolved
  obtain ⟨own, stated, resolved⟩ := bind_eq_ok_iff.1 resolved
  obtain ⟨margin, outside, resolved⟩ := bind_eq_ok_iff.1 resolved
  obtain ⟨padding, inside, resolved⟩ := bind_eq_ok_iff.1 resolved
  obtain rfl := pure_eq_ok_iff.1 resolved
  refine ⟨inLines_of_edges cells outside, inLines_of_edges cells inside, fun width known => ?_⟩
  obtain rfl : own = some width := known
  obtain ⟨n, within, stands⟩ := around
  obtain ⟨m, less, asked⟩ := counted_width Counts.binary cells (by omega) stands stated
  exact ⟨m, less.trans within, asked⟩

end Resolver

namespace Extent.InCharacters

variable {most : Nat} {extent : Extent Float} {look : BoxLook Float}

theorem bordered (own : extent.InCharacters most) (short : most < 2 ^ 53)
    (plain : look.InCharacters most) : (look.bordered extent).InCharacters most := by
  unfold BoxLook.bordered
  rw [plain.margin.left, plain.margin.right]
  exact (own.narrowed short plain.width).inset_none short

theorem inner (own : extent.InCharacters most) (short : most < 2 ^ 53)
    (plain : look.InCharacters most) : (look.inner extent).InCharacters most := by
  unfold BoxLook.inner
  rw [plain.padding.left, plain.padding.right]
  exact (own.bordered short plain).inset_none short

end Extent.InCharacters

/-! ## Anchors -/

/-- Anchors that give boxes in characters. -/
structure Anchors.InCharacters (most : Nat) (anchors : Anchors Float) : Prop where
  pageWidth : Stands anchors.pageWidth most
  pageBox : ∀ box ∈ anchors.pageBox, box.1 = Scalar.zero ∧ CountsTo most box.2
  frame : ∀ width ∈ anchors.frame.width, CountsTo most width

namespace Anchors.InCharacters

variable {most : Nat} {anchors : Anchors Float}

theorem start {pageWidth : Float} (stands : Stands pageWidth most) :
    (Anchors.start pageWidth).InCharacters most :=
  ⟨stands, fun _ none => absurd none (Option.not_mem_none _),
    fun _ none => absurd none (Option.not_mem_none _)⟩

/-- The box of a picture. -/
theorem pictureExtent (own : anchors.InCharacters most) (short : most < 2 ^ 53) :
    (Scheme.pictureExtent anchors).InCharacters most := by
  obtain ⟨right, box, counted⟩ : ∃ right, anchors.pageBox.getD (Scalar.zero, anchors.pageWidth) =
      (Scalar.zero, right) ∧ CountsTo most right := by
    cases box : anchors.pageBox with
    | none => exact ⟨_, rfl, most, Nat.le_refl _, own.pageWidth⟩
    | some edges =>
      obtain ⟨left, counted⟩ := own.pageBox edges box
      exact ⟨edges.2, Prod.ext left rfl, counted⟩
  unfold Scheme.pictureExtent
  rw [box]
  apply Extent.InCharacters.framed short own.pageWidth
  rw [Scalar.LawfulZero.sub_zero]
  cases known : anchors.frame.width with
  | none => exact counted
  | some limit =>
    obtain ⟨n, within, stands⟩ := counted
    obtain ⟨m, _, other⟩ := own.frame limit known
    exact ⟨min n m, (Nat.min_le_left _ _).trans within, Counts.binary.min stands other (by omega)⟩

end Anchors.InCharacters

end Receipt
