import Receipt.Layout.Plan

/-!
# Where the steps of a plan come from

A `Site` is an element together with the elements around it. `Scheme.trace` lays out a tree like
`Scheme.tree` and marks every step with the site of the element that asked for it: the spacing and
the borders of a container with the container, a row with the view that holds its cells, a text or a
picture with its own element. Without the marks it is the plan (`plain_trace`).
-/

namespace Receipt

/-- An element and the elements around it, innermost first. -/
structure Site where
  node : Node
  around : List Node

namespace Site

/-- The element and the elements around it. -/
def chain (site : Site) : List Node := site.node :: site.around

end Site

/-- A layout whose steps are marked with their sites. -/
structure Traced (α : Type) where
  steps : List (Site × Step α)
  anchors : Anchors α
  fault : Option NumberFault

namespace Traced

variable {α : Type}

/-- The layout without the marks. -/
def plain (traced : Traced α) : Layout α :=
  ⟨traced.steps.map (·.2), traced.anchors, traced.fault⟩

/-- Marks every step of a layout with one site. -/
def mark (site : Site) (layout : Layout α) : Traced α :=
  ⟨layout.steps.map fun step => (site, step), layout.anchors, layout.fault⟩

/-- Goes on behind a traced layout, unless it ended at a fault. -/
def andThen (first : Traced α) (next : Anchors α → Traced α) : Traced α :=
  match first.fault with
  | some _ => first
  | none =>
    let second := next first.anchors
    { second with steps := first.steps ++ second.steps }

/-- Goes on with a resolved value, or ends at its fault. -/
def withResolved {β : Type} (anchors : Anchors α) (resolved : Except NumberFault β)
    (next : β → Traced α) : Traced α :=
  match resolved with
  | .ok value => next value
  | .error fault => ⟨[], anchors, some fault⟩

/-- Gives the pictures behind a traced layout the frame from before it. -/
def restoringFrame (frame : PictureFrame α) (traced : Traced α) : Traced α :=
  { traced with anchors := { traced.anchors with frame := frame } }

theorem plain_mark (site : Site) (layout : Layout α) : (mark site layout).plain = layout := by
  unfold mark plain
  rw [List.map_map]
  exact congrArg (fun steps => (⟨steps, layout.anchors, layout.fault⟩ : Layout α))
    (List.map_id layout.steps)

theorem plain_andThen {first : Traced α} {next : Anchors α → Traced α}
    {later : Anchors α → Layout α} (same : ∀ anchors, (next anchors).plain = later anchors) :
    (first.andThen next).plain = first.plain.andThen later := by
  unfold andThen Layout.andThen
  cases ended : first.fault with
  | some fault => simp [plain, ended]
  | none => simp [← same, plain, ended]

theorem plain_withResolved {β : Type} {anchors : Anchors α} {resolved : Except NumberFault β}
    {next : β → Traced α} {later : β → Layout α}
    (same : ∀ value, (next value).plain = later value) :
    (withResolved anchors resolved next).plain = Layout.withResolved anchors resolved later := by
  cases resolved with
  | error fault => rfl
  | ok value => exact same value

/-- Marks behind a resolved value. -/
theorem mark_withResolved {β : Type} (site : Site) (anchors : Anchors α)
    (resolved : Except NumberFault β) (next : β → Layout α) :
    mark site (Layout.withResolved anchors resolved next) =
      withResolved anchors resolved fun value => mark site (next value) := by
  cases resolved with
  | error fault => rfl
  | ok value => rfl

theorem plain_restoringFrame (frame : PictureFrame α) (traced : Traced α) :
    (traced.restoringFrame frame).plain = traced.plain.restoringFrame frame := rfl

end Traced

namespace Scheme

open Traced

variable {α : Type} [Scalar α]

/-- Traces a container around its content. -/
def traceBoxed (site : Site) (look : BoxLook α) (insets : List (α × α)) (anchors : Anchors α)
    (content : List (α × α) → Anchors α → Traced α) : Traced α :=
  let outer := (extentOf anchors insets).narrowed look.width
  let bordered := outer.inset look.margin.left look.margin.right
  let inner := bordered.inset look.padding.left look.padding.right
  (mark site (Layout.step anchors (.space look.margin.top))).andThen fun anchors =>
  (mark site (border bordered.insets look.borderTop anchors)).andThen fun anchors =>
  (mark site (Layout.step anchors (.space look.padding.top))).andThen fun anchors =>
  (content inner.insets anchors).andThen fun anchors =>
  (mark site (Layout.step anchors (.space look.padding.bottom))).andThen fun anchors =>
  (mark site (border bordered.insets look.borderBottom anchors)).andThen fun anchors =>
  mark site (Layout.step anchors (.space look.margin.bottom))

mutual

/-- Traces an element. -/
def traceNode (scheme : Scheme α) (around : List Node) (insets : List (α × α)) (path : String)
    (inherited : Option Alignment) (anchors : Anchors α) : Node → Traced α
  | ⟨type, props, style, children⟩ =>
    let site : Site := ⟨⟨type, props, style, children⟩, around⟩
    match scheme.naming.kind? type with
    | some .document =>
      (mark site (Layout.step anchors .reset)).andThen fun anchors =>
        tracePages scheme site.chain insets path 0 anchors children
    | some .page =>
      (mark site (scheme.beginPage props anchors)).andThen fun anchors =>
      Traced.withResolved anchors (ViewStyle.ofFields (fieldsOf style)) fun written =>
      Traced.withResolved anchors
        (scheme.resolver.box written (extentOf anchors insets).width) fun look =>
      traceBoxed site look insets anchors fun inner anchors =>
        let extent := extentOf anchors inner
        traceNodes scheme site.chain inner path 0 none
          { anchors with pageBox := some (extent.left, extent.right), frame := ⟨none, none⟩ }
          children
    | some .view =>
      Traced.withResolved anchors (ViewStyle.ofFields (fieldsOf style)) fun written =>
      Traced.withResolved anchors
        (scheme.resolver.box written (extentOf anchors insets).width) fun look =>
      traceBoxed site look insets anchors fun inner anchors =>
        let own := Alignment.ofItems? written.items
        if children.isEmpty then mark site (scheme.emptyView written.height anchors)
        else if written.isRow && 1 < children.length then
          mark site (Layout.withResolved anchors (scheme.cells children) fun cells =>
            Layout.step anchors (.row cells written.justify (extentOf anchors inner)))
        else
          Traced.restoringFrame anchors.frame
            (traceNodes scheme site.chain inner path 0 (own.or inherited)
              { anchors with frame := ⟨look.width, own⟩ } children)
    | some .text | some .run =>
      mark site (scheme.textual insets inherited anchors
        (Node.written scheme.naming ⟨type, props, style, children⟩) (fieldsOf style))
    | some .image => mark site (picture anchors path props (fieldsOf style))
    | none => traceNodes scheme site.chain insets path 0 inherited anchors children

/-- Traces the children of an element, from the one with this number on. -/
def traceNodes (scheme : Scheme α) (around : List Node) (insets : List (α × α)) (path : String)
    (index : Nat) (inherited : Option Alignment) (anchors : Anchors α) : List Node → Traced α
  | [] => ⟨[], anchors, none⟩
  | ⟨type, props, style, children⟩ :: rest =>
    (traceNode scheme around insets (childPath path type index) inherited anchors
      ⟨type, props, style, children⟩).andThen fun anchors =>
        traceNodes scheme around insets path (index + 1) inherited anchors rest

/-- Traces the pages among the children of a document, from the one with this number on. -/
def tracePages (scheme : Scheme α) (around : List Node) (insets : List (α × α)) (path : String)
    (index : Nat) (anchors : Anchors α) : List Node → Traced α
  | [] => ⟨[], anchors, none⟩
  | ⟨type, props, style, children⟩ :: rest =>
    if scheme.naming.kind? type = some .page then
      (traceNode scheme around insets (childPath path type index) none anchors
        ⟨type, props, style, children⟩).andThen fun anchors =>
          tracePages scheme around insets path (index + 1) anchors rest
    else tracePages scheme around insets path (index + 1) anchors rest

end

/-- Traces a whole tree. The reset in front of a root that is no document is marked with the
root. -/
def trace (scheme : Scheme α) (anchors : Anchors α) (root : Node) : Traced α :=
  if root.kind? scheme.naming = some .document then
    scheme.traceNode [] [] root.type none anchors root
  else
    (mark ⟨root, []⟩ (Layout.step anchors .reset)).andThen fun anchors =>
      scheme.traceNode [] [] root.type none anchors root

theorem plain_traceBoxed {site : Site} {look : BoxLook α} {insets : List (α × α)}
    {anchors : Anchors α} {content : List (α × α) → Anchors α → Traced α}
    {later : List (α × α) → Anchors α → Layout α}
    (same : ∀ inner anchors, (content inner anchors).plain = later inner anchors) :
    (traceBoxed site look insets anchors content).plain = boxed look insets anchors later := by
  unfold traceBoxed boxed
  rw [plain_andThen, plain_mark]
  intro anchors
  rw [plain_andThen, plain_mark]
  intro anchors
  rw [plain_andThen, plain_mark]
  intro anchors
  rw [plain_andThen, same]
  intro anchors
  rw [plain_andThen, plain_mark]
  intro anchors
  rw [plain_andThen, plain_mark]
  intro anchors
  exact plain_mark ..

mutual

/-- The trace of an element is its layout with marks. -/
theorem plain_traceNode (scheme : Scheme α) (around : List Node) (insets : List (α × α))
    (path : String) (inherited : Option Alignment) (anchors : Anchors α) :
    ∀ root, (scheme.traceNode around insets path inherited anchors root).plain =
      scheme.node insets path inherited anchors root
  | ⟨type, props, style, children⟩ => by
    unfold traceNode node
    cases scheme.naming.kind? type with
    | none => exact plain_traceNodes ..
    | some kind =>
      cases kind with
      | document =>
        simp only
        rw [plain_andThen, plain_mark]
        intro anchors
        exact plain_tracePages ..
      | page =>
        simp only
        rw [plain_andThen, plain_mark]
        intro anchors
        refine plain_withResolved fun written => plain_withResolved fun look => ?_
        refine plain_traceBoxed fun inner anchors => ?_
        exact plain_traceNodes ..
      | view =>
        refine plain_withResolved fun written => plain_withResolved fun look => ?_
        refine plain_traceBoxed fun inner anchors => ?_
        simp only
        split
        · exact plain_mark ..
        · split
          · exact plain_mark ..
          · rw [plain_restoringFrame, plain_traceNodes]
      | text => exact plain_mark ..
      | run => exact plain_mark ..
      | image => exact plain_mark ..

theorem plain_traceNodes (scheme : Scheme α) (around : List Node) (insets : List (α × α))
    (path : String) (index : Nat) (inherited : Option Alignment) (anchors : Anchors α) :
    ∀ children, (scheme.traceNodes around insets path index inherited anchors children).plain =
      scheme.nodes insets path index inherited anchors children
  | [] => by
    unfold traceNodes nodes
    rfl
  | ⟨type, props, style, children⟩ :: rest => by
    unfold traceNodes nodes
    rw [plain_andThen, plain_traceNode]
    intro anchors
    exact plain_traceNodes ..

theorem plain_tracePages (scheme : Scheme α) (around : List Node) (insets : List (α × α))
    (path : String) (index : Nat) (anchors : Anchors α) :
    ∀ children, (scheme.tracePages around insets path index anchors children).plain =
      scheme.pages insets path index anchors children
  | [] => by
    unfold tracePages pages
    rfl
  | ⟨type, props, style, children⟩ :: rest => by
    unfold tracePages pages
    split
    · rw [plain_andThen, plain_traceNode]
      intro anchors
      exact plain_tracePages ..
    · exact plain_tracePages ..

end

/-- The trace of a tree is its plan with marks. -/
theorem plain_trace (scheme : Scheme α) (anchors : Anchors α) (root : Node) :
    (scheme.trace anchors root).plain = scheme.tree [] anchors root := by
  unfold trace tree
  split
  · exact plain_traceNode ..
  · rw [plain_andThen, plain_mark]
    intro anchors
    exact plain_traceNode ..

end Scheme

end Receipt
