import Receipt.Convert
import Receipt.Proofs.Absent
import Receipt.Proofs.PicturesSeen
import Receipt.Proofs.Zero

/-!
# Pictures in the boxes of their pages

A picture has the box that the elements around it call for as long as no page has ended that could have
left another one behind, that is, as long as it stands on clear ground.

`keepsPlaces_tree` is the main statement: the pictures of a plan stand for the image elements that are
seen, one for each, and all that stand on clear ground have the box and the alignment of
`Scheme.pictureBox`; in a document whose pages stand apart these are all of them. The invariant behind
it is `Scheme.Stands`, which every element keeps for the ground that it leaves behind (`shows_node`).
Behind a page that has ended inside another one the statement fails (`not_keepsPlaces_innerPage`).
-/

namespace Receipt

/-- The alignment and the box of a picture or a symbol. -/
def Step.box? {α : Type} : Step α → Option (Alignment × Extent α)
  | .picture _ align _ _ extent | .symbol _ _ align _ extent => some (align, extent)
  | .reset | .page .. | .text .. | .row .. | .divider .. | .space _ | .sourceless _ => none

namespace Scheme

variable {α : Type} [Scalar α]

/-- A step stands for an image element, and on some grounds it has the alignment and the box that the
elements around call for. -/
structure Suits (scheme : Scheme α) (pageWidth : α) (grounds : Ground → Prop) (seen : Seen)
    (step : Step α) : Prop where
  path : step.path? = some seen.path
  /-- Only an element without a payload and without a source has no box. -/
  sourceless : step.box? = none →
    (seen.site.node.props.get "qrData").isNull ∧ seen.site.node.props.source.isNull
  box : grounds seen.ground → ∀ box, step.box? = some box →
    scheme.pictureBox pageWidth seen.site = .ok box

/-- In the plan of a tree the image elements that stand on some grounds are laid out in the boxes that
the elements around them call for. -/
structure KeepsPlaces (scheme : Scheme α) (pageWidth : α) (grounds : Ground → Prop)
    (root : Node) : Prop where
  images : (scheme.seen root).map (fun seen => (seen.path, seen.site.node)) =
    root.images scheme.naming
  within : ∀ seen ∈ scheme.seen root, seen.site.Within root
  /-- The pictures stand for the elements up to the fault that ends the plan, if any. -/
  pictures : ∃ shown, shown <+: scheme.seen root ∧
    List.Forall₂ (scheme.Suits pageWidth grounds) shown
      ((scheme.tree [] (.start pageWidth) root).steps.filter (·.isPicture)) ∧
    ((scheme.tree [] (.start pageWidth) root).fault = none → shown = scheme.seen root)

end Scheme

/-! ## The pictures of a plan -/

/-- The pictures of a layout suit the elements that are seen, one for each, up to the fault that ends
it, and without a fault the anchors behind it have a property. -/
structure Layout.Shows {α : Type} (suits : Seen → Step α → Prop) (leaves : Anchors α → Prop)
    (seen : List Seen) (layout : Layout α) : Prop where
  pictures : ∃ shown, shown <+: seen ∧
    List.Forall₂ suits shown (layout.steps.filter (·.isPicture)) ∧
    (layout.fault = none → shown = seen)
  anchors : layout.fault = none → leaves layout.anchors

namespace Layout.Shows

variable {α : Type} {suits : Seen → Step α → Prop} {leaves others : Anchors α → Prop}
  {seen : List Seen} {anchors : Anchors α}

theorem done (left : leaves anchors) : Shows suits leaves [] (Layout.done anchors) :=
  ⟨⟨[], List.nil_prefix, .nil, fun _ => rfl⟩, fun _ => left⟩

theorem failed (anchors : Anchors α) (fault : NumberFault) :
    Shows suits leaves seen (Layout.failed anchors fault) :=
  ⟨⟨[], List.nil_prefix, .nil, nofun⟩, nofun⟩

/-- A step without a picture. -/
theorem silent (left : leaves anchors) {step : Step α} (other : step.isPicture = false) :
    Shows suits leaves [] (Layout.step anchors step) := by
  refine ⟨⟨[], List.nil_prefix, ?_, fun _ => rfl⟩, fun _ => left⟩
  rw [show (Layout.step anchors step).steps.filter (·.isPicture) = [] from
    List.filter_cons_of_neg (by rw [other]; exact Bool.false_ne_true)]
  exact .nil

/-- A step that shows the only element that is seen. -/
theorem single (left : leaves anchors) {one : Seen} {step : Step α}
    (picture : step.isPicture = true) (own : suits one step) :
    Shows suits leaves [one] (Layout.step anchors step) := by
  refine ⟨⟨[one], List.prefix_refl _, ?_, fun _ => rfl⟩, fun _ => left⟩
  rw [show (Layout.step anchors step).steps.filter (·.isPicture) = [step] from
    List.filter_cons_of_pos picture]
  exact .cons own .nil

theorem andThen {first : Layout α} {next : Anchors α → Layout α} {later : List Seen}
    (shows : Shows suits leaves seen first)
    (goesOn : ∀ anchors, leaves anchors → Shows suits others later (next anchors)) :
    Shows suits others (seen ++ later) (first.andThen next) := by
  obtain ⟨shown, former, own, whole⟩ := shows.pictures
  unfold Layout.andThen
  cases ended : first.fault with
  | some fault =>
    refine ⟨⟨shown, former.trans (List.prefix_append ..), own, ?_⟩, ?_⟩
    all_goals
      rw [ended]
      exact nofun
  | none =>
    have rest := goesOn _ (shows.anchors ended)
    obtain ⟨behind, latter, other, complete⟩ := rest.pictures
    obtain rfl := whole ended
    refine ⟨⟨shown ++ behind, ?_, ?_, fun none => ?_⟩, rest.anchors⟩
    · exact (List.prefix_append_right_inj shown).2 latter
    · rw [List.filter_append]
      exact List.rel_append own other
    · rw [complete none]

theorem andThen_silent {first : Layout α} {next : Anchors α → Layout α}
    (shows : Shows suits leaves seen first)
    (goesOn : ∀ anchors, leaves anchors → Shows suits others [] (next anchors)) :
    Shows suits others seen (first.andThen next) := by
  have both := shows.andThen goesOn
  rwa [List.append_nil] at both

/-- What shows nothing and leaves the anchors alone may stand in front. -/
theorem behind {first : Layout α} {next : Anchors α → Layout α}
    (nothing : Shows suits (anchors = ·) [] first)
    (shows : Shows suits leaves seen (next anchors)) :
    Shows suits leaves seen (first.andThen next) := by
  refine nothing.andThen fun same unchanged => ?_
  rw [← unchanged]
  exact shows

/-- The same of a step without a picture. -/
theorem behind_step {step : Step α} (other : step.isPicture = false) {next : Anchors α → Layout α}
    (shows : Shows suits leaves seen (next anchors)) :
    Shows suits leaves seen ((Layout.step anchors step).andThen next) :=
  (silent rfl other).behind shows

theorem withResolved {β : Type} {resolved : Except NumberFault β} {next : β → Layout α}
    (goesOn : ∀ value, resolved = .ok value → Shows suits leaves seen (next value)) :
    Shows suits leaves seen (Layout.withResolved anchors resolved next) := by
  cases resolved with
  | error fault => exact failed anchors fault
  | ok value => exact goesOn value rfl

theorem mono {layout : Layout α} (shows : Shows suits leaves seen layout)
    (weaker : ∀ anchors, leaves anchors → others anchors) : Shows suits others seen layout :=
  ⟨shows.pictures, fun ended => weaker _ (shows.anchors ended)⟩

theorem restoringFrame {layout : Layout α} (shows : Shows suits leaves seen layout)
    (frame : PictureFrame α) (weaker : ∀ anchors, leaves anchors →
      others { anchors with frame := frame }) :
    Shows suits others seen (layout.restoringFrame frame) :=
  ⟨shows.pictures, fun ended => weaker _ (shows.anchors ended)⟩

end Layout.Shows

namespace Scheme

open Layout

variable {α : Type} [Scalar α] {suits : Seen → Step α → Prop} {leaves : Anchors α → Prop}
  {seen : List Seen}

omit [Scalar α] in
theorem shows_border (insets : List (α × α)) (asked : Option Border) {anchors : Anchors α}
    (left : leaves anchors) : Shows suits leaves [] (border insets asked anchors) := by
  cases asked with
  | none => exact Shows.done left
  | some found => exact Shows.silent left rfl

/-- A container shows what its content does. -/
theorem shows_boxed {look : BoxLook α} {insets : List (α × α)} {anchors : Anchors α}
    {content : List (α × α) → Anchors α → Layout α}
    (inside : Shows suits leaves seen
      (content (look.inner (extentOf anchors insets)).insets anchors)) :
    Shows suits leaves seen (boxed look insets anchors content) := by
  unfold boxed
  refine Shows.behind_step rfl ?_
  refine Shows.behind (shows_border _ _ rfl) ?_
  refine Shows.behind_step rfl ?_
  refine inside.andThen_silent fun anchors left => ?_
  refine (Shows.silent left rfl).andThen_silent fun anchors left => ?_
  exact (shows_border _ _ left).andThen_silent fun anchors left => Shows.silent left rfl

/-! ## The invariant -/

/-- The insets and the anchors are those that the elements around call for, as far as no page that has
ended is in the way. -/
structure Stands (scheme : Scheme α) (pageWidth : α) (around : List Node) (insets : List (α × α))
    (ground : Ground) (anchors : Anchors α) : Prop where
  bare : (∀ node ∈ around, ¬ scheme.isBox node) → insets = []
  box : ground.shifted = false →
    scheme.contentBox pageWidth around = .ok ⟨anchors.pageWidth, insets⟩
  page : ground = .clear → ∃ page, scheme.pageWithin pageWidth around = .ok page ∧
    page.pageWidth = anchors.pageWidth ∧
    anchors.pageBox.getD (Scalar.zero, anchors.pageWidth) = (page.left, page.right)
  frame : ground = .clear → scheme.frameWithin pageWidth around = .ok anchors.frame

namespace Stands

variable {scheme : Scheme α} {pageWidth : α} {around : List Node} {insets : List (α × α)}
  {ground : Ground} {anchors : Anchors α} {node : Node}

theorem start [Scalar.LawfulZero α] (scheme : Scheme α) (pageWidth : α) :
    scheme.Stands pageWidth [] [] .clear (.start pageWidth) where
  bare _ := rfl
  box _ := rfl
  page _ := by
    refine ⟨⟨pageWidth, []⟩, rfl, rfl, ?_⟩
    show (Scalar.zero, pageWidth) = (Scalar.zero, pageWidth - Scalar.zero)
    rw [Scalar.LawfulZero.sub_zero]
  frame _ := rfl

/-- An element that is no box changes nothing. -/
theorem cons_iff (kind : ¬ scheme.isBox node) :
    scheme.Stands pageWidth (node :: around) insets ground anchors ↔
      scheme.Stands pageWidth around insets ground anchors := by
  have noPage : node.kind? scheme.naming ≠ some .page := fun page => kind (Or.inl page)
  have bare : (∀ other ∈ node :: around, ¬ scheme.isBox other) ↔
      ∀ other ∈ around, ¬ scheme.isBox other :=
    ⟨fun all => (List.forall_mem_cons.1 all).2, fun all => List.forall_mem_cons.2 ⟨kind, all⟩⟩
  constructor
  · rintro ⟨first, second, third, fourth⟩
    rw [contentBox_cons_of_not kind] at second
    rw [pageWithin_cons_of_not noPage] at third
    rw [frameWithin_cons_of_not kind] at fourth
    exact ⟨fun all => first (bare.2 all), second, third, fourth⟩
  · rintro ⟨first, second, third, fourth⟩
    rw [← contentBox_cons_of_not kind] at second
    rw [← pageWithin_cons_of_not noPage] at third
    rw [← frameWithin_cons_of_not kind] at fourth
    exact ⟨fun all => first (bare.1 all), second, third, fourth⟩

/-- A picture suits the elements around it. -/
theorem pictureBox (stands : scheme.Stands pageWidth around insets ground anchors)
    (clear : ground = .clear) {align : Alignment}
    (aligned : pictureAlignment anchors.frame (fieldsOf node.style) = .ok align) :
    scheme.pictureBox pageWidth ⟨node, around⟩ = .ok (align, pictureExtent anchors) := by
  obtain ⟨page, found, width, box⟩ := stands.page clear
  unfold Scheme.pictureBox
  simp only [found, stands.frame clear, bind, Except.bind]
  rw [pictureExtent_eq width box, pictureAlignment_eq_ok aligned]
  rfl

/-- The box inside a page is the one that the elements call for, unless its width is in doubt. -/
theorem contentBox_page (stands : scheme.Stands pageWidth around insets ground anchors)
    (kind : node.kind? scheme.naming = some .page) {stated : Option α}
    (width : scheme.ownWidth? node.props = .ok stated) {look : BoxLook α}
    (resolved : scheme.lookOf node ⟨stated.getD anchors.pageWidth, insets⟩ = .ok look)
    (settled : (scheme.groundWithin around node.props ground).shifted = false) :
    scheme.contentBox pageWidth (node :: around) =
      .ok (look.inner ⟨stated.getD anchors.pageWidth, insets⟩) := by
  cases shifted : ground.shifted with
  | false => exact contentBox_cons_page kind (stands.box shifted) width resolved
  | true =>
    have both : scheme.statesWidth node.props = true ∧ ∀ other ∈ around, ¬ scheme.isBox other := by
      simpa [groundWithin, shifted] using settled
    obtain rfl := stands.bare both.2
    cases stated with
    | none =>
      have states := both.1
      simp only [statesWidth, width] at states
      cases states
    | some own => exact contentBox_cons_page kind (contentBox_of_bare both.2) width resolved

theorem enterPage (stands : scheme.Stands pageWidth around insets ground anchors)
    (kind : node.kind? scheme.naming = some .page) {stated : Option α}
    (width : scheme.ownWidth? node.props = .ok stated) {begun : Anchors α}
    (own : begun.pageWidth = stated.getD anchors.pageWidth) {look : BoxLook α}
    (resolved : scheme.lookOf node (extentOf begun insets) = .ok look) :
    let inner := look.inner (extentOf begun insets)
    scheme.Stands pageWidth (node :: around) inner.insets
      (scheme.groundWithin around node.props ground)
      { begun with
        pageBox := some ((extentOf begun inner.insets).left, (extentOf begun inner.insets).right)
        frame := ⟨none, none⟩ } := by
  intro inner
  have same : inner = ⟨begun.pageWidth, inner.insets⟩ :=
    congrArg (Extent.mk · inner.insets) (look.pageWidth_inner _)
  have box (settled : (scheme.groundWithin around node.props ground).shifted = false) :
      scheme.contentBox pageWidth (node :: around) = .ok ⟨begun.pageWidth, inner.insets⟩ := by
    rw [← same]
    show _ = Except.ok (look.inner ⟨begun.pageWidth, insets⟩)
    rw [own]
    refine stands.contentBox_page kind width ?_ settled
    rw [← own]
    exact resolved
  refine ⟨fun bare => ?_, box, fun clear => ?_, fun _ => frameWithin_cons_page kind⟩
  · exact absurd (Or.inl kind) (bare node (List.mem_cons_self ..))
  · refine ⟨⟨begun.pageWidth, inner.insets⟩, ?_, rfl, rfl⟩
    rw [pageWithin_cons_page kind]
    exact box (congrArg Ground.shifted clear)

theorem leavePage (stands : scheme.Stands pageWidth around insets ground anchors)
    {stated : Option α} (width : scheme.ownWidth? node.props = .ok stated)
    {inner : List (α × α)} {begun ended : Anchors α} {inside : Ground}
    (entered : scheme.Stands pageWidth (node :: around) inner
      (scheme.groundWithin around node.props ground) begun)
    (own : begun.pageWidth = stated.getD anchors.pageWidth)
    (left : scheme.Stands pageWidth (node :: around) inner inside ended) :
    scheme.Stands pageWidth around insets (scheme.groundBehind node.props ground inside) ended := by
  refine ⟨stands.bare, fun settled => ?_, nofun, nofun⟩
  obtain ⟨⟨before, behind⟩, states⟩ :
      (ground.shifted = false ∧ inside.shifted = false) ∧ scheme.statesWidth node.props = false := by
    simpa [groundBehind] using settled
  have started := entered.box (by rw [groundWithin, before]; rfl)
  rw [left.box behind] at started
  have kept : ended.pageWidth = begun.pageWidth := congrArg Extent.pageWidth (Except.ok.inj started)
  have unstated : stated = none := by
    cases stated with
    | none => rfl
    | some _ =>
      simp only [statesWidth, width] at states
      cases states
  rw [kept, own, unstated]
  exact stands.box before

theorem enterView (stands : scheme.Stands pageWidth around insets ground anchors)
    (kind : node.kind? scheme.naming = some .view) {look : BoxLook α}
    (resolved : scheme.lookOf node (extentOf anchors insets) = .ok look) :
    let inner := look.inner (extentOf anchors insets)
    scheme.Stands pageWidth (node :: around) inner.insets ground
      { anchors with
        frame := ⟨look.width, Alignment.ofItems? ((fieldsOf node.style).get "alignItems")⟩ } := by
  intro inner
  have same : inner = ⟨anchors.pageWidth, inner.insets⟩ :=
    congrArg (Extent.mk · inner.insets) (look.pageWidth_inner _)
  have noPage : node.kind? scheme.naming ≠ some .page := by
    rw [kind]
    exact nofun
  refine ⟨fun bare => ?_, fun settled => ?_, fun clear => ?_, fun clear => ?_⟩
  · exact absurd (Or.inr kind) (bare node (List.mem_cons_self ..))
  · rw [contentBox_cons_view kind (stands.box settled) resolved]
    exact congrArg Except.ok same
  · rw [pageWithin_cons_of_not noPage]
    exact stands.page clear
  · exact frameWithin_cons_view kind (stands.box (congrArg Ground.shifted clear)) resolved

theorem leaveView (stands : scheme.Stands pageWidth around insets ground anchors)
    (kind : node.kind? scheme.naming = some .view) {inner : List (α × α)}
    {begun ended : Anchors α} {inside : Ground}
    (entered : scheme.Stands pageWidth (node :: around) inner ground begun)
    (own : begun.pageWidth = anchors.pageWidth)
    (left : scheme.Stands pageWidth (node :: around) inner inside ended) :
    scheme.Stands pageWidth around insets (ground.join inside)
      { ended with frame := anchors.frame } := by
  have noPage : node.kind? scheme.naming ≠ some .page := by
    rw [kind]
    exact nofun
  refine ⟨stands.bare, fun settled => ?_, fun clear => ?_, fun clear => ?_⟩
  · obtain ⟨before, behind⟩ := Bool.or_eq_false_iff.1 settled
    have started := entered.box before
    rw [left.box behind] at started
    have kept : ended.pageWidth = begun.pageWidth :=
      congrArg Extent.pageWidth (Except.ok.inj started)
    show _ = Except.ok (⟨ended.pageWidth, insets⟩ : Extent α)
    rw [kept, own]
    exact stands.box before
  · rw [← pageWithin_cons_of_not noPage]
    exact left.page (Ground.join_eq_clear_iff.1 clear).2
  · exact stands.frame (Ground.join_eq_clear_iff.1 clear).1

end Stands

/-! ## The walk -/

section Walk

variable {scheme : Scheme α} {pageWidth : α} {around : List Node} {insets : List (α × α)}
  {ground : Ground} {anchors : Anchors α}

/-- A page begins without a picture, as wide as it states or else as before. -/
theorem shows_beginPage_andThen {props : Fields} {next : Anchors α → Layout α}
    (goesOn : ∀ stated, scheme.ownWidth? props = .ok stated → Shows suits leaves seen
      (next { anchors with pageWidth := stated.getD anchors.pageWidth })) :
    Shows suits leaves seen ((scheme.beginPage props anchors).andThen next) := by
  cases target : scheme.resolver.target with
  | cells =>
    unfold beginPage
    simp only [target]
    exact Shows.behind (Shows.done rfl) (goesOn none (ownWidth?_of_cells target props))
  | points =>
    obtain ⟨height, wraps, begins⟩ := beginPage_of_points target props anchors
    rw [begins]
    cases own : scheme.ownWidth? props with
    | error fault => exact Shows.failed anchors fault
    | ok stated =>
      cases (statedSize? height : Except NumberFault (Option α)) with
      | error fault => exact Shows.failed _ fault
      | ok height => exact Shows.behind_step rfl (goesOn stated own)

/-- A picture element is laid out where it is seen. -/
theorem shows_picture (stands : scheme.Stands pageWidth around insets ground anchors)
    (path : String) (node : Node) :
    Shows (scheme.Suits pageWidth (· = .clear)) (scheme.Stands pageWidth around insets ground)
      [⟨path, ⟨node, around⟩, ground⟩]
      (picture anchors path node.props (fieldsOf node.style)) := by
  refine Shows.withResolved fun align aligned => ?_
  have box (clear : ground = .clear) :
      scheme.pictureBox pageWidth ⟨node, around⟩ = .ok (align, pictureExtent anchors) :=
    stands.pictureBox clear aligned
  simp only
  split
  · rename_i noPayload
    split
    · rename_i noSource
      exact Shows.single stands rfl ⟨rfl, fun _ => ⟨noPayload, noSource⟩, fun _ => nofun⟩
    · refine Shows.single stands rfl ⟨rfl, nofun, fun clear found own => ?_⟩
      obtain rfl := Option.some.inj own
      exact box clear
  · refine Shows.withResolved fun payload _ => Shows.withResolved fun size _ => ?_
    refine Shows.single stands rfl ⟨rfl, nofun, fun clear found own => ?_⟩
    obtain rfl := Option.some.inj own
    exact box clear

theorem shows_emptyView (height : Option α) (left : leaves anchors) :
    Shows suits leaves [] (scheme.emptyView height anchors) := by
  unfold emptyView
  cases scheme.resolver.target with
  | cells => exact Shows.done left
  | points => exact Shows.silent left rfl

-- The induction follows the walk. It carries that the insets and the anchors stand as the elements
-- around call for, on the ground that the walk has come to.
mutual

/-- An element shows what is seen in it, and leaves the ground behind it. -/
theorem shows_node (around : List Node) (insets : List (α × α)) (path : String)
    (inherited : Option Alignment) (ground : Ground) (anchors : Anchors α)
    (stands : scheme.Stands pageWidth around insets ground anchors) :
    ∀ node, Shows (scheme.Suits pageWidth (· = .clear))
      (scheme.Stands pageWidth around insets (scheme.seenIn around path ground node).2)
      (scheme.seenIn around path ground node).1
      (scheme.node insets path inherited anchors node)
  | ⟨type, props, style, children⟩ => by
    cases known : scheme.naming.kind? type with
    | none =>
      have noBox : ¬ scheme.isBox ⟨type, props, style, children⟩ := by
        simp [isBox, Node.kind?, known]
      rw [seenIn_unknown known, node_unknown _ _ _ _ _ _ _ known]
      have inside := shows_nodes _ insets path 0 inherited ground anchors
        ((Stands.cons_iff noBox).2 stands) children
      exact inside.mono fun _ => (Stands.cons_iff noBox).1
    | some kind =>
      cases kind with
      | document =>
        have noBox : ¬ scheme.isBox ⟨type, props, style, children⟩ := by
          simp [isBox, Node.kind?, known]
        rw [seenIn_document known, node_document _ _ _ _ _ _ _ known]
        refine Shows.behind_step rfl ?_
        have inside := shows_pages _ insets path 0 ground anchors
          ((Stands.cons_iff noBox).2 stands) children
        exact inside.mono fun _ => (Stands.cons_iff noBox).1
      | page =>
        have isPage : Node.kind? scheme.naming ⟨type, props, style, children⟩ = some .page := known
        rw [seenIn_page known, node_page _ _ _ _ _ _ _ known]
        refine shows_beginPage_andThen fun stated width => ?_
        refine Shows.withResolved fun written read => Shows.withResolved fun look resolved => ?_
        have entered := stands.enterPage isPage width rfl (lookOf_eq_ok read resolved)
        refine shows_boxed ?_
        have inside := shows_nodes _ _ path 0 none _ _ entered children
        exact inside.mono fun ended left => stands.leavePage width entered rfl left
      | view =>
        have isView : Node.kind? scheme.naming ⟨type, props, style, children⟩ = some .view := known
        rw [node_view _ _ _ _ _ _ _ known]
        refine Shows.withResolved fun written read => Shows.withResolved fun look resolved => ?_
        have row : Node.isRowOf style children = (written.isRow && 1 < children.length) := by
          rw [isRow_of_ofFields read]
          rfl
        refine shows_boxed ?_
        unfold viewContent
        cases children with
        | nil =>
          rw [seenIn_view known (by rw [row]; exact Bool.and_false _), seenInAll, Ground.join_self]
          exact shows_emptyView _ stands
        | cons child rest =>
          simp only [List.isEmpty_cons, Bool.false_eq_true, if_false]
          split
          · rename_i isRow
            rw [seenIn_row known (row.trans isRow)]
            exact Shows.withResolved fun cells _ => Shows.silent stands rfl
          · rename_i column
            rw [seenIn_view known (row.trans (Bool.eq_false_iff.2 column))]
            have entered := stands.enterView isView (lookOf_eq_ok read resolved)
            rw [(items_of_ofFields read).1]
            have inside := shows_nodes _ _ path 0
              ((Alignment.ofItems? ((fieldsOf style).get "alignItems")).or inherited) _ _ entered
              (child :: rest)
            refine inside.restoringFrame anchors.frame fun ended left => ?_
            exact stands.leaveView isView entered rfl left
      | text | run =>
        rw [seenIn, node]
        simp only [known]
        exact Shows.withResolved fun written _ => Shows.withResolved fun content _ =>
          Shows.silent stands rfl
      | image =>
        rw [seenIn, node]
        simp only [known]
        exact shows_picture stands path _

/-- The children of an element show what is seen in them. -/
theorem shows_nodes (around : List Node) (insets : List (α × α)) (path : String) (index : Nat)
    (inherited : Option Alignment) (ground : Ground) (anchors : Anchors α)
    (stands : scheme.Stands pageWidth around insets ground anchors) :
    ∀ children, Shows (scheme.Suits pageWidth (· = .clear))
      (scheme.Stands pageWidth around insets
        (scheme.seenInAll around path index ground children).2)
      (scheme.seenInAll around path index ground children).1
      (scheme.nodes insets path index inherited anchors children)
  | [] => by
    rw [seenInAll, nodes]
    exact Shows.done stands
  | ⟨type, props, style, children⟩ :: rest => by
    rw [seenInAll, nodes]
    refine (shows_node around insets _ inherited ground anchors stands _).andThen
      fun anchors stands => ?_
    exact shows_nodes around insets path (index + 1) inherited _ anchors stands rest

/-- The pages of a document show what is seen in them. -/
theorem shows_pages (around : List Node) (insets : List (α × α)) (path : String) (index : Nat)
    (ground : Ground) (anchors : Anchors α)
    (stands : scheme.Stands pageWidth around insets ground anchors) :
    ∀ children, Shows (scheme.Suits pageWidth (· = .clear))
      (scheme.Stands pageWidth around insets
        (scheme.seenInPages around path index ground children).2)
      (scheme.seenInPages around path index ground children).1
      (scheme.pages insets path index anchors children)
  | [] => by
    rw [seenInPages, pages]
    exact Shows.done stands
  | ⟨type, props, style, children⟩ :: rest => by
    rw [seenInPages, pages]
    split
    · refine (shows_node around insets _ none ground anchors stands _).andThen
        fun anchors stands => ?_
      exact shows_pages around insets path (index + 1) _ anchors stands rest
    · exact shows_pages around insets path (index + 1) ground anchors stands rest

end

end Walk

/-- Where all ground is clear, all pictures keep their places. -/
theorem KeepsPlaces.everywhere {scheme : Scheme α} {pageWidth : α} {root : Node}
    (keeps : scheme.KeepsPlaces pageWidth (· = .clear) root)
    (clear : ∀ one ∈ scheme.seen root, one.ground = .clear) :
    scheme.KeepsPlaces pageWidth (fun _ => True) root := by
  obtain ⟨shown, former, suits, whole⟩ := keeps.pictures
  refine ⟨keeps.images, keeps.within, shown, former, ?_, whole⟩
  have both := (List.forall₂_and_left _ _).2
    ⟨fun one member => clear one (former.subset member), suits⟩
  exact both.imp fun one step ⟨ground, own⟩ => ⟨own.path, own.sourceless, fun _ => own.box ground⟩

/-- In the plan of a tree every picture on clear ground has the alignment and the box that the
elements around it call for, and in a document whose pages stand apart every picture has them. Over
exact numbers it is a box that begins at the left edge of the innermost page and is as wide as that
page and the nearest view in it allow. -/
theorem keepsPlaces_tree [Scalar.LawfulZero α] (scheme : Scheme α) (pageWidth : α)
    (root : Node) :
    scheme.KeepsPlaces pageWidth (· = .clear) root ∧
      (scheme.Apart root → scheme.KeepsPlaces pageWidth (fun _ => True) root) ∧
      ∀ (exact : Scheme Rat) (pageWidth : Rat) (around : List Node) (page : Extent Rat)
        (frame : PictureFrame Rat), exact.pageWithin pageWidth around = .ok page →
        exact.frameWithin pageWidth around = .ok frame →
        (page.limitedTo frame.width).left = page.left ∧
          (page.limitedTo frame.width).width = frame.width.elim page.width (min page.width) := by
  have keeps : scheme.KeepsPlaces pageWidth (· = .clear) root := by
    have sees := scheme.sees_seenIn [] root.type .clear root (Site.within_root root)
    have shows := shows_node [] [] root.type none .clear _ (Stands.start scheme pageWidth) root
    refine ⟨sees.places, sees.within, ?_⟩
    unfold tree
    split
    · exact shows.pictures
    · exact (Shows.behind_step rfl shows).pictures
  refine ⟨keeps, fun apart => keeps.everywhere (clear_of_apart apart), ?_⟩
  exact fun exact pageWidth around page frame => edges_of_frameWithin around

/-- Layout for a receipt printer over exact numbers, without custom names. -/
def exactCells : Scheme Rat := ⟨[], Options.cellResolver⟩

/-- A page with a centered view of eight characters that holds a symbol, and a symbol below it. -/
def framedSymbols : Node :=
  ⟨"Document", [], none,
    [⟨"Page", [], none,
      [⟨"View", [], some [("width", .int 8), ("alignItems", .text "center")],
        [⟨"Image", [("qrData", .text "42")], none, []⟩]⟩,
       ⟨"Image", [("qrData", .text "42")], none, []⟩]⟩]⟩

/-- A page with a page of eight characters inside it, and a symbol below that. -/
def innerPage : Node :=
  ⟨"Document", [], none,
    [⟨"Page", [], none,
      [⟨"Page", [], some [("width", .int 8)], []⟩,
       ⟨"Image", [("qrData", .text "42")], none, []⟩]⟩]⟩

theorem keepsPlaces_tree_framedSymbols :
    (exactCells.seen framedSymbols).map (fun one =>
        (exactCells.pictureBox 16 one.site).map fun box => (box.1, box.2.left, box.2.width)) =
        [.ok (.center, 0, 8), .ok (.left, 0, 16)] ∧
      exactCells.Apart framedSymbols ∧ exactCells.KeepsPlaces 16 (fun _ => True) framedSymbols := by
  have apart : exactCells.Apart framedSymbols := by
    refine ⟨by decide +kernel, fun child member _ => ?_⟩
    rw [List.mem_singleton.1 member]
    decide +kernel
  exact ⟨by decide +kernel, apart, (keepsPlaces_tree exactCells 16 framedSymbols).2.1 apart⟩

/-- Behind the inner page the symbol is laid out in its box, not in that of the page around. -/
theorem not_keepsPlaces_innerPage : ¬ exactCells.KeepsPlaces 16 (fun _ => True) innerPage := by
  intro keeps
  obtain ⟨shown, _, suits, whole⟩ := keeps.pictures
  have called : (exactCells.seen innerPage).map (fun one =>
      (exactCells.pictureBox 16 one.site).map (·.2.width)) = [.ok 16] := by
    decide +kernel
  have laidOut : ((exactCells.tree [] (.start 16) innerPage).steps.filter (·.isPicture)).map
      (fun step => step.box?.map (·.2.width)) = [some 8] := by
    decide +kernel
  rw [← whole (by decide +kernel)] at called
  generalize List.filter _ _ = pictures at suits laidOut
  cases suits with
  | nil => cases called
  | cons own rest =>
    obtain ⟨box, found, narrow⟩ := Option.map_eq_some_iff.1 (List.cons.inj laidOut).1
    have wide := (List.cons.inj called).1
    simp only [own.box trivial box found] at wide
    have same : (8 : Rat) = 16 := narrow.symm.trans (Except.ok.inj wide)
    exact absurd same (by decide)

end Scheme

end Receipt
