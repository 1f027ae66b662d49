import Receipt.Proofs.Exact
import Receipt.Proofs.Placement

/-!
# The boxes around a step

On a receipt printer a container has no spacing at its sides, and the width it states is limited to
the width around it. So the content box inside a chain of elements is as wide as the narrowest of
them allows, and always a whole number of characters.

`Scheme.Encloses` collects the widths that are to hold what is printed: that of the paper and those
that the elements of a chain resolve to. `width_le_of_encloses` is the main statement.
-/

namespace Receipt

namespace Extent

/-- The width of a box over the rationals. -/
theorem width_rat (extent : Extent Rat) :
    extent.width =
      max 0 (extent.pageWidth - (extent.insets.map (·.2)).sum - (extent.insets.map (·.1)).sum) := by
  unfold width right left
  rw [Scalar.max_rat, Scalar.sum_rat, Scalar.sum_rat]
  rfl

theorem width_nonneg (extent : Extent Rat) : 0 ≤ extent.width :=
  (le_max_left _ _).trans_eq extent.width_rat.symm

/-- An inset at the right takes its width away. -/
theorem width_inset_zero (extent : Extent Rat) {taken : Rat} (nonneg : 0 ≤ taken) :
    (extent.inset Scalar.zero taken).width =
      max 0 (extent.pageWidth - (extent.insets.map (·.2)).sum - (extent.insets.map (·.1)).sum -
        taken) := by
  rw [width_rat]
  unfold inset
  simp only [List.map_append, List.sum_append, List.map_cons, List.map_nil, List.sum_cons,
    List.sum_nil, Scalar.max_rat, Scalar.zero_rat, max_self, max_eq_right nonneg]
  congr 1
  linarith

theorem width_inset_none (extent : Extent Rat) :
    (extent.inset Scalar.zero Scalar.zero).width = extent.width := by
  refine (width_inset_zero extent (le_refl (0 : Rat))).trans ?_
  rw [width_rat, sub_zero]

/-- A box that is narrowed has the smaller of the two widths. -/
theorem width_narrowed (extent : Extent Rat) {width : Rat} (nonneg : 0 ≤ width) :
    (extent.narrowed (some width)).width = min extent.width width := by
  unfold narrowed
  simp only
  split
  · rename_i fits
    exact (min_eq_left fits).symm
  · rename_i large
    have less : width < extent.width := not_le.1 large
    have room : extent.width = extent.pageWidth - (extent.insets.map (·.2)).sum -
        (extent.insets.map (·.1)).sum := by
      rw [width_rat]
      refine max_eq_right (le_of_lt ?_)
      by_contra negative
      rw [width_rat, max_eq_left (not_lt.1 negative)] at less
      exact absurd nonneg (not_le.2 less)
    have taken : 0 ≤ extent.width - width := sub_nonneg.2 less.le
    rw [min_eq_right less.le]
    refine (width_inset_zero extent taken).trans ?_
    rw [← room, sub_sub_cancel, max_eq_right nonneg]

end Extent

namespace Resolver

open Outcome

/-- A receipt printer has no spacing at the sides. -/
theorem sides_of_edges {α : Type} [Scalar α] {resolver : Resolver α}
    (cells : resolver.target = .cells) {top right bottom left : Option α} {edges : Edges α}
    (resolved : resolver.edges top right bottom left = .ok edges) :
    edges.left = Scalar.zero ∧ edges.right = Scalar.zero := by
  unfold Resolver.edges at resolved
  rw [cells] at resolved
  obtain ⟨_, _, resolved⟩ := bind_eq_ok_iff.1 resolved
  obtain ⟨_, _, resolved⟩ := bind_eq_ok_iff.1 resolved
  obtain ⟨_, _, resolved⟩ := bind_eq_ok_iff.1 resolved
  obtain ⟨_, _, resolved⟩ := bind_eq_ok_iff.1 resolved
  obtain rfl := pure_eq_ok_iff.1 resolved
  exact ⟨rfl, rfl⟩

variable {resolver : Resolver Rat}

/-- The look of a container on a receipt printer. -/
structure CellBox (look : BoxLook Rat) (outer : Rat) : Prop where
  marginLeft : look.margin.left = Scalar.zero
  marginRight : look.margin.right = Scalar.zero
  paddingLeft : look.padding.left = Scalar.zero
  paddingRight : look.padding.right = Scalar.zero
  width : ∀ width, look.width = some width → Whole outer → Whole width

theorem cellBox_of_box (cells : resolver.target = .cells) {style : ViewStyle Rat} {outer : Rat}
    {look : BoxLook Rat} (resolved : resolver.box style outer = .ok look) : CellBox look outer := by
  unfold Resolver.box at resolved
  obtain ⟨own, stated, resolved⟩ := bind_eq_ok_iff.1 resolved
  obtain ⟨margin, outside, resolved⟩ := bind_eq_ok_iff.1 resolved
  obtain ⟨padding, inside, resolved⟩ := bind_eq_ok_iff.1 resolved
  obtain rfl := pure_eq_ok_iff.1 resolved
  have margins := sides_of_edges cells outside
  have paddings := sides_of_edges cells inside
  refine ⟨margins.1, margins.2, paddings.1, paddings.2, fun width known whole => ?_⟩
  obtain rfl : own = some width := known
  exact (whole_of_width cells whole stated).1

end Resolver

namespace BoxLook

/-- The box of a border is as wide as the container. -/
theorem width_bordered {look : BoxLook Rat} {outer : Extent Rat}
    (plain : Resolver.CellBox look outer.width) :
    (look.bordered outer).width = (outer.narrowed look.width).width := by
  unfold bordered
  rw [plain.marginLeft, plain.marginRight, Extent.width_inset_none]

/-- The box of the content is as wide as the container. -/
theorem width_inner {look : BoxLook Rat} {outer : Extent Rat}
    (plain : Resolver.CellBox look outer.width) :
    (look.inner outer).width = (outer.narrowed look.width).width := by
  unfold inner
  rw [plain.paddingLeft, plain.paddingRight, Extent.width_inset_none, width_bordered plain]

end BoxLook

namespace Extent

/-- A container is as wide as the box around it, or as its own width when that is less. -/
theorem narrowed_spec {look : BoxLook Rat} {outer : Extent Rat}
    (plain : Resolver.CellBox look outer.width) (whole : Whole outer.width) :
    Whole (outer.narrowed look.width).width ∧
      (outer.narrowed look.width).width ≤ outer.width ∧
      ∀ width, look.width = some width → (outer.narrowed look.width).width ≤ width := by
  cases known : look.width with
  | none => exact ⟨whole, le_refl _, fun width stated => by cases stated⟩
  | some width =>
    have own := plain.width width known whole
    rw [width_narrowed outer own.nonneg]
    refine ⟨?_, min_le_left _ _, fun other stated => ?_⟩
    · rcases min_choice outer.width width with same | same
      · rw [same]
        exact whole
      · rw [same]
        exact own
    · rw [← Option.some.inj stated]
      exact min_le_right _ _

end Extent

namespace Scheme

open Outcome

/-- A width that is to hold what is printed inside elements: that of the paper, or the one that a
page or a view among them resolves to. -/
inductive Encloses {α : Type} [Scalar α] (scheme : Scheme α) (pageWidth : α) :
    List Node → α → Prop where
  | paper (chain : List Node) : Encloses scheme pageWidth chain pageWidth
  | own {node : Node} {around : List Node} {outer : Extent α} {look : BoxLook α} {width : α}
      (kind : scheme.isBox node) (box : scheme.extentWithin pageWidth around = .ok outer)
      (resolved : scheme.lookOf node outer = .ok look) (stated : look.width = some width) :
      Encloses scheme pageWidth (node :: around) width
  | outer {around : List Node} {width : α} (encloses : Encloses scheme pageWidth around width)
      (node : Node) : Encloses scheme pageWidth (node :: around) width

variable {scheme : Scheme Rat}

theorem cellBox_of_lookOf (cells : scheme.resolver.target = .cells) {node : Node}
    {outer : Extent Rat} {look : BoxLook Rat} (resolved : scheme.lookOf node outer = .ok look) :
    Resolver.CellBox look outer.width := by
  obtain ⟨written, _, resolved⟩ := bind_eq_ok_iff.1 resolved
  exact Resolver.cellBox_of_box cells resolved

/-- The box inside a chain comes from the box around its innermost element. -/
theorem extentWithin_cons_cases {pageWidth : Rat} {node : Node} {around : List Node}
    {extent : Extent Rat} (box : scheme.extentWithin pageWidth (node :: around) = .ok extent) :
    ∃ outer, scheme.extentWithin pageWidth around = .ok outer ∧
      ((scheme.isBox node ∧ ∃ look, scheme.lookOf node outer = .ok look ∧
          extent = look.inner outer) ∨
        (¬ scheme.isBox node ∧ extent = outer)) := by
  obtain ⟨outer, known, box⟩ := bind_eq_ok_iff.1 box
  refine ⟨outer, known, ?_⟩
  split at box
  · rename_i kind
    obtain ⟨look, resolved, box⟩ := bind_eq_ok_iff.1 box
    exact Or.inl ⟨kind, look, resolved, (pure_eq_ok_iff.1 box).symm⟩
  · rename_i kind
    exact Or.inr ⟨kind, (pure_eq_ok_iff.1 box).symm⟩

/-- The box inside a chain is a whole number of characters wide. -/
theorem whole_extentWithin (cells : scheme.resolver.target = .cells) {pageWidth : Int}
    {chain : List Node} {extent : Extent Rat}
    (box : scheme.extentWithin (pageWidth : Rat) chain = .ok extent) : Whole extent.width := by
  induction chain generalizing extent with
  | nil =>
    obtain rfl := Except.ok.inj box
    rw [Extent.width_rat]
    simpa using Whole.max_zero pageWidth
  | cons node around ih =>
    obtain ⟨outer, known, ⟨_, look, resolved, rfl⟩ | ⟨_, rfl⟩⟩ := extentWithin_cons_cases box
    · have plain := cellBox_of_lookOf cells resolved
      rw [BoxLook.width_inner plain]
      exact (Extent.narrowed_spec plain (ih known)).1
    · exact ih known

/-- The box inside a chain is no wider than the box around its innermost element. -/
theorem width_cons_le (cells : scheme.resolver.target = .cells) {pageWidth : Int} {node : Node}
    {around : List Node} {outer extent : Extent Rat}
    (known : scheme.extentWithin (pageWidth : Rat) around = .ok outer)
    (box : scheme.extentWithin (pageWidth : Rat) (node :: around) = .ok extent) :
    extent.width ≤ outer.width := by
  obtain ⟨other, same, ⟨_, look, resolved, rfl⟩ | ⟨_, rfl⟩⟩ := extentWithin_cons_cases box
  · obtain rfl := Except.ok.inj (known.symm.trans same)
    have plain := cellBox_of_lookOf cells resolved
    rw [BoxLook.width_inner plain]
    exact (Extent.narrowed_spec plain (whole_extentWithin cells known)).2.1
  · obtain rfl := Except.ok.inj (known.symm.trans same)
    exact le_refl _

/-- The box inside a chain is no wider than any width that encloses it. -/
theorem width_le_of_encloses (cells : scheme.resolver.target = .cells) {pageWidth : Int}
    {chain : List Node} {width : Rat} (encloses : scheme.Encloses pageWidth chain width)
    {extent : Extent Rat} (box : scheme.extentWithin (pageWidth : Rat) chain = .ok extent) :
    extent.width ≤ max 0 width := by
  induction encloses generalizing extent with
  | paper chain =>
    induction chain generalizing extent with
    | nil =>
      obtain rfl := Except.ok.inj box
      rw [Extent.width_rat]
      simp
    | cons node around ih =>
      obtain ⟨outer, known, _⟩ := extentWithin_cons_cases box
      exact (width_cons_le cells known box).trans (ih known)
  | own kind known resolved stated =>
    rw [extentWithin_cons kind known resolved] at box
    obtain rfl := Except.ok.inj box
    have plain := cellBox_of_lookOf cells resolved
    rw [BoxLook.width_inner plain]
    exact le_max_of_le_right
      ((Extent.narrowed_spec plain (whole_extentWithin cells known)).2.2 _ stated)
  | outer _ node ih =>
    obtain ⟨outer, known, _⟩ := extentWithin_cons_cases box
    exact (width_cons_le cells known box).trans (ih known)

end Scheme

end Receipt
