import Receipt.Proofs.Exact
import Receipt.Proofs.Placement

/-!
# The box that a picture is to have

What the elements around an image element call for: the content box of the innermost page
(`Scheme.pageWithin`), narrowed to the width of the nearest view inside that page, and the alignment
that this view gives (`Scheme.frameWithin`). `Scheme.pictureBox` puts them together with the style of
the image itself. None of them knows of the walk through the tree or of what stands beside the elements.

`edges_of_frameWithin` is the geometry of that box over exact numbers: it begins at the left edge of the
content box of the page, and it is as wide as that box and the view allow.
-/

namespace Receipt

/-- A box with the left edge of another one and a width up to a limit, on the same page. -/
def Extent.limitedTo {α : Type} [Scalar α] (page : Extent α) (limit : Option α) : Extent α :=
  (⟨page.pageWidth, []⟩ : Extent α).framed page.left
    (match limit with
      | some limit => Scalar.min (page.right - page.left) limit
      | none => page.right - page.left)

namespace Scheme

open Outcome

variable {α : Type} [Scalar α]

/-- The width that a page states for itself. Only a page that is drawn has one. -/
def ownWidth? (scheme : Scheme α) (props : Fields) : Except NumberFault (Option α) :=
  match scheme.resolver.target with
  | .cells => .ok none
  | .points =>
    match props.get "size" with
    | .mapping size => statedSize? (Fields.get size "width")
    | _ => .ok none

/-- The content box inside elements, the innermost first. A page that states its width is that
wide. -/
def contentBox (scheme : Scheme α) (pageWidth : α) : List Node → Except NumberFault (Extent α)
  | [] => .ok ⟨pageWidth, []⟩
  | node :: around => do
    let outer ← scheme.contentBox pageWidth around
    match node.kind? scheme.naming with
    | some .page =>
      let page : Extent α :=
        ⟨(← scheme.ownWidth? node.props).getD outer.pageWidth, outer.insets⟩
      return (← scheme.lookOf node page).inner page
    | some .view => return (← scheme.lookOf node outer).inner outer
    | _ => return outer

/-- The content box of the innermost page, or the whole page when there is none. -/
def pageWithin (scheme : Scheme α) (pageWidth : α) : List Node → Except NumberFault (Extent α)
  | [] => .ok ⟨pageWidth, []⟩
  | node :: around =>
    if node.kind? scheme.naming = some .page then scheme.contentBox pageWidth (node :: around)
    else scheme.pageWithin pageWidth around

/-- What the nearest view inside the innermost page gives the pictures in it. -/
def frameWithin (scheme : Scheme α) (pageWidth : α) :
    List Node → Except NumberFault (PictureFrame α)
  | [] => .ok ⟨none, none⟩
  | node :: around =>
    match node.kind? scheme.naming with
    | some .page => .ok ⟨none, none⟩
    | some .view => do
      let look ← scheme.lookOf node (← scheme.contentBox pageWidth around)
      return ⟨look.width, Alignment.ofItems? ((fieldsOf node.style).get "alignItems")⟩
    | _ => scheme.frameWithin pageWidth around

/-- The alignment of an image with a style: its own text alignment, its own placement of items, what
the view around it gives, or left. -/
def alignmentOf (frame : PictureFrame α) (style : Fields) : Alignment :=
  ((((Alignment.ofValue? (style.get "textAlign")).or
    (Alignment.ofItems? (style.get "alignItems"))).or
      (Alignment.ofItems? (style.get "justifyContent"))).or frame.align).getD .left

/-- The alignment and the box of an image element. -/
def pictureBox (scheme : Scheme α) (pageWidth : α) (site : Site) :
    Except NumberFault (Alignment × Extent α) := do
  let page ← scheme.pageWithin pageWidth site.around
  let frame ← scheme.frameWithin pageWidth site.around
  return (alignmentOf frame (fieldsOf site.node.style), page.limitedTo frame.width)

variable {scheme : Scheme α} {pageWidth : α} {node : Node} {around : List Node}

/-- On a receipt printer no page states a width. -/
theorem ownWidth?_of_cells (cells : scheme.resolver.target = .cells) (props : Fields) :
    scheme.ownWidth? props = .ok none := by
  unfold ownWidth?
  rw [cells]

/-- A page that is drawn takes the width that it states, if its height is in order too. -/
theorem beginPage_of_points (points : scheme.resolver.target = .points) (props : Fields)
    (anchors : Anchors α) : ∃ height wraps, scheme.beginPage props anchors =
      Layout.withResolved anchors (scheme.ownWidth? props) fun width =>
        let anchors := { anchors with pageWidth := width.getD anchors.pageWidth }
        Layout.withResolved anchors (statedSize? height) fun (height : Option α) =>
          Layout.step anchors (.page height wraps) := by
  unfold beginPage ownWidth?
  simp only [points]
  cases props.get "size" with
  | mapping size => exact ⟨Fields.get size "height", _, rfl⟩
  | _ => exact ⟨.null, _, rfl⟩

/-! ## Through the elements -/

theorem contentBox_cons_page (kind : node.kind? scheme.naming = some .page) {outer : Extent α}
    (box : scheme.contentBox pageWidth around = .ok outer) {stated : Option α}
    (width : scheme.ownWidth? node.props = .ok stated) {look : BoxLook α}
    (resolved : scheme.lookOf node ⟨stated.getD outer.pageWidth, outer.insets⟩ = .ok look) :
    scheme.contentBox pageWidth (node :: around) =
      .ok (look.inner ⟨stated.getD outer.pageWidth, outer.insets⟩) := by
  rw [contentBox, box]
  simp only [bind, Except.bind, kind, width, resolved]
  rfl

theorem contentBox_cons_view (kind : node.kind? scheme.naming = some .view) {outer : Extent α}
    (box : scheme.contentBox pageWidth around = .ok outer) {look : BoxLook α}
    (resolved : scheme.lookOf node outer = .ok look) :
    scheme.contentBox pageWidth (node :: around) = .ok (look.inner outer) := by
  rw [contentBox, box]
  simp only [bind, Except.bind, kind, resolved]
  rfl

theorem contentBox_cons_of_not (kind : ¬ scheme.isBox node) :
    scheme.contentBox pageWidth (node :: around) = scheme.contentBox pageWidth around := by
  rw [contentBox]
  cases scheme.contentBox pageWidth around with
  | error fault => rfl
  | ok outer =>
    simp only [bind, Except.bind]
    split
    · rename_i page
      exact absurd (Or.inl page) kind
    · rename_i view
      exact absurd (Or.inr view) kind
    · rfl

/-- Where no element narrows the box, it is the whole page. -/
theorem contentBox_of_bare (bare : ∀ node ∈ around, ¬ scheme.isBox node) :
    scheme.contentBox pageWidth around = .ok ⟨pageWidth, []⟩ := by
  induction around with
  | nil => rfl
  | cons node around ih =>
    rw [contentBox_cons_of_not (bare node (List.mem_cons_self ..))]
    exact ih fun other member => bare other (List.mem_cons_of_mem _ member)

theorem pageWithin_cons_page (kind : node.kind? scheme.naming = some .page) :
    scheme.pageWithin pageWidth (node :: around) =
      scheme.contentBox pageWidth (node :: around) := by
  rw [pageWithin, if_pos kind]

theorem pageWithin_cons_of_not (kind : node.kind? scheme.naming ≠ some .page) :
    scheme.pageWithin pageWidth (node :: around) = scheme.pageWithin pageWidth around := by
  rw [pageWithin, if_neg kind]

theorem frameWithin_cons_page (kind : node.kind? scheme.naming = some .page) :
    scheme.frameWithin pageWidth (node :: around) = .ok ⟨none, none⟩ := by
  rw [frameWithin]
  simp only [kind]

theorem frameWithin_cons_view (kind : node.kind? scheme.naming = some .view) {outer : Extent α}
    (box : scheme.contentBox pageWidth around = .ok outer) {look : BoxLook α}
    (resolved : scheme.lookOf node outer = .ok look) :
    scheme.frameWithin pageWidth (node :: around) =
      .ok ⟨look.width, Alignment.ofItems? ((fieldsOf node.style).get "alignItems")⟩ := by
  rw [frameWithin]
  simp only [kind, box, bind, Except.bind, resolved]
  rfl

theorem frameWithin_cons_of_not (kind : ¬ scheme.isBox node) :
    scheme.frameWithin pageWidth (node :: around) = scheme.frameWithin pageWidth around := by
  rw [frameWithin]
  split
  · rename_i page
    exact absurd (Or.inl page) kind
  · rename_i view
    exact absurd (Or.inr view) kind
  · rfl

/-! ## What the walk works out -/

theorem align_of_ofFields {style : Fields} {written : TextStyle α}
    (read : TextStyle.ofFields style = .ok written) : written.align = style.get "textAlign" := by
  unfold TextStyle.ofFields at read
  repeat
    obtain ⟨_, _, read⟩ := bind_eq_ok_iff.1 read
  obtain rfl := pure_eq_ok_iff.1 read
  rfl

/-- The alignment of a picture is the one that its style and its frame call for. -/
theorem pictureAlignment_eq_ok {frame : PictureFrame α} {style : Fields} {align : Alignment}
    (aligned : pictureAlignment frame style = .ok align) : align = alignmentOf frame style := by
  unfold pictureAlignment at aligned
  obtain ⟨text, textual, aligned⟩ := bind_eq_ok_iff.1 aligned
  rw [align_of_ofFields textual] at aligned
  unfold alignmentOf
  cases own : Alignment.ofValue? (style.get "textAlign") with
  | some explicit =>
    simp only [own] at aligned
    exact (pure_eq_ok_iff.1 aligned).symm
  | none =>
    simp only [own] at aligned
    obtain ⟨view, container, aligned⟩ := bind_eq_ok_iff.1 aligned
    obtain ⟨items, justify⟩ := items_of_ofFields container
    rw [items, justify] at aligned
    exact (pure_eq_ok_iff.1 aligned).symm

/-- The box of a picture is that of the page in force, limited to the frame in force. -/
theorem pictureExtent_eq {anchors : Anchors α} {page : Extent α}
    (width : page.pageWidth = anchors.pageWidth)
    (box : anchors.pageBox.getD (Scalar.zero, anchors.pageWidth) = (page.left, page.right)) :
    pictureExtent anchors = page.limitedTo anchors.frame.width := by
  unfold pictureExtent Extent.limitedTo
  cases anchors.frame.width with
  | none => simp only [box, width]
  | some limit => simp only [box, width]

end Scheme

/-! ## The geometry -/

namespace Extent

/-- No inset of a box is negative. -/
def Inward (extent : Extent Rat) : Prop := ∀ inset ∈ extent.insets, 0 ≤ inset.1 ∧ 0 ≤ inset.2

variable {extent : Extent Rat}

theorem Inward.inset (inward : extent.Inward) (left right : Rat) :
    (extent.inset left right).Inward := by
  intro inset member
  rcases List.mem_append.1 member with outer | own
  · exact inward inset outer
  · rw [List.mem_singleton.1 own, Scalar.max_rat, Scalar.max_rat]
    exact ⟨le_max_left _ _, le_max_left _ _⟩

theorem Inward.inner (inward : extent.Inward) (look : BoxLook Rat) :
    (look.inner extent).Inward := by
  have narrowed : (extent.narrowed look.width).Inward := by
    unfold narrowed
    split
    · exact inward
    · split
      · exact inward
      · exact inward.inset _ _
  exact (narrowed.inset _ _).inset _ _

theorem Inward.left_nonneg (inward : extent.Inward) : 0 ≤ extent.left := by
  unfold left
  rw [Scalar.sum_rat]
  refine List.sum_nonneg fun a member => ?_
  obtain ⟨inset, listed, rfl⟩ := List.mem_map.1 member
  exact (inward inset listed).1

theorem Inward.right_le (inward : extent.Inward) : extent.right ≤ extent.pageWidth := by
  unfold right
  rw [Scalar.sum_rat]
  refine sub_le_self _ (List.sum_nonneg fun a member => ?_)
  obtain ⟨inset, listed, rfl⟩ := List.mem_map.1 member
  exact (inward inset listed).2

/-- A box of its own that does not reach beyond the page has the edges that it is made with. -/
theorem edges_framed (extent : Extent Rat) {left width : Rat} (nonneg : 0 ≤ left)
    (fits : left + width ≤ extent.pageWidth) :
    (extent.framed left width).left = left ∧
      (extent.framed left width).width = max 0 width := by
  have own : (extent.framed left width).left = left := by
    unfold Extent.left framed
    rw [Scalar.sum_rat, Scalar.max_rat]
    simp only [List.map_cons, List.map_nil, List.sum_cons, List.sum_nil, Scalar.zero_rat,
      max_eq_right nonneg, add_zero]
  refine ⟨own, ?_⟩
  have other : (extent.framed left width).right = left + width := by
    have room : 0 ≤ extent.pageWidth - left - width := by linarith
    unfold right framed
    rw [Scalar.sum_rat, Scalar.max_rat]
    simp only [List.map_cons, List.map_nil, List.sum_cons, List.sum_nil, Scalar.zero_rat,
      max_eq_right room, Scalar.max_rat]
    linarith
  unfold Extent.width
  rw [own, other, Scalar.max_rat, add_sub_cancel_left]
  rfl

/-- A box with a limit has the left edge of the other one, and the width that both allow. -/
theorem edges_limitedTo (inward : extent.Inward) (limit : Option Rat)
    (nonneg : ∀ width, limit = some width → 0 ≤ width) :
    (extent.limitedTo limit).left = extent.left ∧
      (extent.limitedTo limit).width = limit.elim extent.width (min extent.width) := by
  have inside := inward.right_le
  have edge := inward.left_nonneg
  have own : extent.width = max 0 (extent.right - extent.left) := Scalar.max_rat ..
  cases limit with
  | none =>
    unfold limitedTo
    rw [Option.elim_none, own]
    exact edges_framed _ edge (by linarith)
  | some width =>
    have small : Scalar.min (extent.right - extent.left) width ≤ extent.right - extent.left := by
      rw [Scalar.min_rat]
      exact min_le_left _ _
    obtain ⟨left, room⟩ := edges_framed ⟨extent.pageWidth, []⟩ edge
      (show extent.left + _ ≤ extent.pageWidth by linarith)
    refine ⟨left, room.trans ?_⟩
    rw [Option.elim_some, own, Scalar.min_rat, max_min_distrib_left,
      max_eq_right (nonneg width rfl)]

end Extent

namespace Scheme

open Outcome

variable {scheme : Scheme Rat} {pageWidth : Rat} {around : List Node}

theorem inward_contentBox {box : Extent Rat}
    (found : scheme.contentBox pageWidth around = .ok box) : box.Inward := by
  induction around generalizing box with
  | nil =>
    obtain rfl := Except.ok.inj found
    exact nofun
  | cons node around ih =>
    rw [contentBox] at found
    obtain ⟨outer, further, found⟩ := bind_eq_ok_iff.1 found
    have inward := ih further
    split at found
    · obtain ⟨stated, _, found⟩ := bind_eq_ok_iff.1 found
      obtain ⟨look, _, found⟩ := bind_eq_ok_iff.1 found
      obtain rfl := pure_eq_ok_iff.1 found
      have same : (⟨stated.getD outer.pageWidth, outer.insets⟩ : Extent Rat).Inward := inward
      exact same.inner look
    · obtain ⟨look, _, found⟩ := bind_eq_ok_iff.1 found
      obtain rfl := pure_eq_ok_iff.1 found
      exact inward.inner look
    · obtain rfl := pure_eq_ok_iff.1 found
      exact inward

theorem inward_pageWithin {page : Extent Rat}
    (found : scheme.pageWithin pageWidth around = .ok page) : page.Inward := by
  induction around with
  | nil =>
    obtain rfl := Except.ok.inj found
    exact nofun
  | cons node around ih =>
    rw [pageWithin] at found
    split at found
    · exact inward_contentBox found
    · exact ih found

/-- No view resolves to a width below zero. -/
theorem nonneg_width_of_lookOf {node : Node} {outer : Extent Rat} {look : BoxLook Rat}
    (resolved : scheme.lookOf node outer = .ok look) {width : Rat}
    (stated : look.width = some width) : 0 ≤ width := by
  obtain ⟨written, _, resolved⟩ := bind_eq_ok_iff.1 resolved
  unfold Resolver.box at resolved
  obtain ⟨own, limited, resolved⟩ := bind_eq_ok_iff.1 resolved
  obtain ⟨margin, _, resolved⟩ := bind_eq_ok_iff.1 resolved
  obtain ⟨padding, _, resolved⟩ := bind_eq_ok_iff.1 resolved
  obtain rfl := pure_eq_ok_iff.1 resolved
  obtain rfl : own = some width := stated
  unfold Resolver.width at limited
  split at limited
  · obtain ⟨wanted, _, limited⟩ := bind_eq_ok_iff.1 limited
    obtain ⟨value, _, rfl⟩ := Option.map_eq_some_iff.1 (pure_eq_ok_iff.1 limited)
    rw [Scalar.max_rat]
    exact le_max_left _ _
  · cases Except.ok.inj limited

theorem nonneg_of_frameWithin {frame : PictureFrame Rat}
    (found : scheme.frameWithin pageWidth around = .ok frame) {width : Rat}
    (stated : frame.width = some width) : 0 ≤ width := by
  induction around with
  | nil =>
    obtain rfl := Except.ok.inj found
    cases stated
  | cons node around ih =>
    rw [frameWithin] at found
    split at found
    · obtain rfl := Except.ok.inj found
      cases stated
    · obtain ⟨outer, _, found⟩ := bind_eq_ok_iff.1 found
      obtain ⟨look, resolved, found⟩ := bind_eq_ok_iff.1 found
      obtain rfl := pure_eq_ok_iff.1 found
      exact nonneg_width_of_lookOf resolved stated
    · exact ih found

/-- The box of a picture begins at the left edge of the page, and it is as wide as the page and the
view allow. -/
theorem edges_of_frameWithin {page : Extent Rat} {frame : PictureFrame Rat}
    (around : List Node) (outer : scheme.pageWithin pageWidth around = .ok page)
    (found : scheme.frameWithin pageWidth around = .ok frame) :
    (page.limitedTo frame.width).left = page.left ∧
      (page.limitedTo frame.width).width = frame.width.elim page.width (min page.width) :=
  Extent.edges_limitedTo (inward_pageWithin outer) frame.width fun _ =>
    nonneg_of_frameWithin found

end Scheme

end Receipt
