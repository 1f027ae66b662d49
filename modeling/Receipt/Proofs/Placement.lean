import Mathlib.Data.List.Chain
import Receipt.Proofs.Outcome
import Receipt.Proofs.Trace

/-!
# What a step owes to its place in the tree

On a receipt printer every step of a plan is settled by the element that asked for it and by the
elements around that one. `impliedAlignment` is the alignment that a text inherits,
`Scheme.extentWithin` the content box inside a chain of elements, and `Scheme.Places` says of each
kind of step what it holds. Neither knows of the walk through the tree, of the insets, or of what
was laid out before.

`placed_trace` is the main statement: every step of a trace is placed in that sense, at a site that
stands in the tree.
-/

namespace Receipt

/-- The alignment that the elements around a text imply: that of the nearest view inside the
innermost page whose placement of items stands for one. -/
def impliedAlignment (naming : Naming) (around : List Node) : Option Alignment :=
  ((around.takeWhile fun node => node.kind? naming ≠ some .page).filter
    fun node => node.kind? naming = some .view).findSome?
      fun view => Alignment.ofItems? ((Scheme.fieldsOf view.style).get "alignItems")

section ImpliedAlignment

variable {naming : Naming} {node : Node}

theorem impliedAlignment_of_page (kind : node.kind? naming = some .page) (around : List Node) :
    impliedAlignment naming (node :: around) = none := by
  simp [impliedAlignment, kind]

theorem impliedAlignment_of_view (kind : node.kind? naming = some .view) (around : List Node) :
    impliedAlignment naming (node :: around) =
      (Alignment.ofItems? ((Scheme.fieldsOf node.style).get "alignItems")).or
        (impliedAlignment naming around) := by
  unfold impliedAlignment
  rw [List.takeWhile_cons_of_pos (by simp [kind]), List.filter_cons_of_pos (by simp [kind]),
    List.findSome?_cons]
  cases Alignment.ofItems? ((Scheme.fieldsOf node.style).get "alignItems") with
  | none => rfl
  | some align => rfl

/-- All other elements are looked through. -/
theorem impliedAlignment_of_other (noPage : node.kind? naming ≠ some .page)
    (noView : node.kind? naming ≠ some .view) (around : List Node) :
    impliedAlignment naming (node :: around) = impliedAlignment naming around := by
  unfold impliedAlignment
  rw [List.takeWhile_cons_of_pos (by simp [noPage]), List.filter_cons_of_neg (by simp [noView])]

end ImpliedAlignment

namespace Site

/-- A site that stands in a tree: each element is a child of the next one, and the last one is the
root. -/
def Within (root : Node) (site : Site) : Prop :=
  site.chain.IsChain (fun inner outer => inner ∈ outer.children) ∧ site.chain.getLast? = some root

theorem within_root (root : Node) : Within root ⟨root, []⟩ :=
  ⟨List.IsChain.singleton root, rfl⟩

theorem Within.child {root node child : Node} {around : List Node}
    (within : Within root ⟨node, around⟩) (member : child ∈ node.children) :
    Within root ⟨child, node :: around⟩ :=
  ⟨List.IsChain.cons_cons member within.1, within.2⟩

end Site

namespace BoxLook

variable {α : Type} [Scalar α]

/-- The box inside the margin. -/
def bordered (look : BoxLook α) (outer : Extent α) : Extent α :=
  (outer.narrowed look.width).inset look.margin.left look.margin.right

/-- The box inside the padding. -/
def inner (look : BoxLook α) (outer : Extent α) : Extent α :=
  (look.bordered outer).inset look.padding.left look.padding.right

@[simp] theorem pageWidth_bordered (look : BoxLook α) (outer : Extent α) :
    (look.bordered outer).pageWidth = outer.pageWidth := by
  unfold bordered Extent.narrowed
  split
  · rfl
  · split <;> rfl

@[simp] theorem pageWidth_inner (look : BoxLook α) (outer : Extent α) :
    (look.inner outer).pageWidth = outer.pageWidth := look.pageWidth_bordered outer

end BoxLook

namespace Scheme

open Outcome Traced

variable {α : Type} [Scalar α]

/-- The look of a container in the box around it. -/
def lookOf (scheme : Scheme α) (node : Node) (outer : Extent α) :
    Except NumberFault (BoxLook α) := do
  scheme.resolver.box (← ViewStyle.ofFields (fieldsOf node.style)) outer.width

/-- Whether an element narrows the content box. -/
def isBox (scheme : Scheme α) (node : Node) : Prop :=
  node.kind? scheme.naming = some .page ∨ node.kind? scheme.naming = some .view

instance (scheme : Scheme α) (node : Node) : Decidable (scheme.isBox node) := by
  unfold isBox
  infer_instance

/-- The content box inside elements, the innermost first. -/
def extentWithin (scheme : Scheme α) (pageWidth : α) : List Node → Except NumberFault (Extent α)
  | [] => .ok ⟨pageWidth, []⟩
  | node :: around => do
    let outer ← scheme.extentWithin pageWidth around
    if scheme.isBox node then return (← scheme.lookOf node outer).inner outer
    else return outer

/-- What a step holds that an element asked for. -/
inductive Places (scheme : Scheme α) (pageWidth : α) (site : Site) : Step α → Prop where
  | reset : Places scheme pageWidth site .reset
  | text {written : TextStyle α} {extent : Extent α}
      (kind : Node.isTextual scheme.naming site.node.type)
      (style : TextStyle.ofFields (fieldsOf site.node.style) = .ok written)
      (box : scheme.extentWithin pageWidth site.around = .ok extent) :
      Places scheme pageWidth site
        (.text (site.node.fullText scheme.naming)
          (scheme.resolver.text written (impliedAlignment scheme.naming site.around)) extent)
  | row {cells : List (Cell α)} {extent : Extent α}
      (kind : site.node.kind? scheme.naming = some .view)
      (content : scheme.cells site.node.children = .ok cells)
      (box : scheme.extentWithin pageWidth site.chain = .ok extent) :
      Places scheme pageWidth site
        (.row cells ((fieldsOf site.node.style).get "justifyContent") extent)
  | divider {outer : Extent α} {look : BoxLook α} {border : Border}
      (kind : scheme.isBox site.node)
      (box : scheme.extentWithin pageWidth site.around = .ok outer)
      (resolved : scheme.lookOf site.node outer = .ok look)
      (asked : look.borderTop = some border ∨ look.borderBottom = some border) :
      Places scheme pageWidth site (.divider border (look.bordered outer))
  | space (kind : scheme.isBox site.node) (amount : α) :
      Places scheme pageWidth site (.space amount)
  | picture {frame : PictureFrame α} {align : Alignment}
      (kind : site.node.kind? scheme.naming = some .image)
      (aligned : pictureAlignment frame (fieldsOf site.node.style) = .ok align)
      (path : String) (framed : Bool) (extent : Extent α) :
      Places scheme pageWidth site (.picture site.node.props.source align path framed extent)
  | symbol {frame : PictureFrame α} {align : Alignment}
      (kind : site.node.kind? scheme.naming = some .image)
      (aligned : pictureAlignment frame (fieldsOf site.node.style) = .ok align)
      (size : Int) (path : String) (extent : Extent α) :
      Places scheme pageWidth site
        (.symbol (site.node.props.get "qrData").printed size align path extent)
  | sourceless (kind : site.node.kind? scheme.naming = some .image) (path : String) :
      Places scheme pageWidth site (.sourceless path)

end Scheme

/-- The text of a cell is that of its child, with spaces for the line feeds. -/
theorem Scheme.mem_of_cells {α : Type} [Scalar α] {scheme : Scheme α} {children : List Node}
    {cells : List (Cell α)} (content : scheme.cells children = .ok cells) {cell : Cell α}
    (member : cell ∈ cells) {c : Char} (inside : c ∈ cell.text.toList) :
    c ≠ '\n' ∧ (c = ' ' ∨ ∃ child ∈ children, c ∈ (child.fullText scheme.naming).toList) := by
  obtain ⟨child, below, made⟩ := Outcome.exists_of_mem_mapM content member
  obtain ⟨style, _, made⟩ := Outcome.bind_eq_ok_iff.1 made
  obtain ⟨align, _, made⟩ := Outcome.bind_eq_ok_iff.1 made
  obtain ⟨_, written, made⟩ := Outcome.bind_eq_ok_iff.1 made
  obtain rfl := Outcome.pure_eq_ok_iff.1 made
  obtain ⟨_, rfl⟩ := Node.written_eq_ok_iff.1 written
  simp only [Scheme.withoutFeeds, String.toList_ofList] at inside
  obtain ⟨d, own, same⟩ := List.mem_map.1 inside
  split at same
  · exact ⟨by rw [← same]; decide, Or.inl same.symm⟩
  · next other =>
    obtain rfl := same
    exact ⟨other, Or.inr ⟨child, below, own⟩⟩

namespace Traced

variable {α : Type}

/-- Every marked step has a property, and the page is as wide behind the layout as before it. -/
structure Holds (property : Site → Step α → Prop) (pageWidth : α) (traced : Traced α) : Prop where
  steps : ∀ marked ∈ traced.steps, property marked.1 marked.2
  pageWidth : traced.anchors.pageWidth = pageWidth

namespace Holds

variable {property : Site → Step α → Prop} {pageWidth : α}

theorem nothing {anchors : Anchors α} (kept : anchors.pageWidth = pageWidth)
    (fault : Option NumberFault) : Holds property pageWidth ⟨[], anchors, fault⟩ where
  steps _ member := by cases member
  pageWidth := kept

theorem mark {site : Site} {layout : Layout α} (steps : ∀ step ∈ layout.steps, property site step)
    (kept : layout.anchors.pageWidth = pageWidth) :
    Holds property pageWidth (mark site layout) where
  steps marked member := by
    obtain ⟨step, inside, rfl⟩ := List.mem_map.1 member
    exact steps step inside
  pageWidth := kept

theorem markStep {site : Site} {anchors : Anchors α} (kept : anchors.pageWidth = pageWidth)
    {step : Step α} (placed : property site step) :
    Holds property pageWidth (Traced.mark site (Layout.step anchors step)) := by
  refine mark (fun other member => ?_) kept
  rw [List.mem_singleton.1 member]
  exact placed

theorem andThen {first : Traced α} {next : Anchors α → Traced α}
    (before : Holds property pageWidth first)
    (behind : ∀ anchors, anchors.pageWidth = pageWidth → Holds property pageWidth (next anchors)) :
    Holds property pageWidth (first.andThen next) := by
  unfold Traced.andThen
  cases first.fault with
  | some fault => exact before
  | none =>
    have later := behind first.anchors before.pageWidth
    refine ⟨fun marked member => ?_, later.pageWidth⟩
    rcases List.mem_append.1 member with member | member
    · exact before.steps marked member
    · exact later.steps marked member

theorem withResolved {β : Type} {anchors : Anchors α} (kept : anchors.pageWidth = pageWidth)
    {resolved : Except NumberFault β} {next : β → Traced α}
    (behind : ∀ value, resolved = .ok value → Holds property pageWidth (next value)) :
    Holds property pageWidth (Traced.withResolved anchors resolved next) := by
  cases resolved with
  | error fault => exact nothing kept _
  | ok value => exact behind value rfl

theorem restoringFrame {traced : Traced α} (holds : Holds property pageWidth traced)
    (frame : PictureFrame α) : Holds property pageWidth (traced.restoringFrame frame) :=
  ⟨holds.steps, holds.pageWidth⟩

end Holds

end Traced

namespace Scheme

open Outcome Traced

variable {α : Type} [Scalar α]

theorem items_of_ofFields {style : Fields} {written : ViewStyle α}
    (read : ViewStyle.ofFields style = .ok written) :
    written.items = style.get "alignItems" ∧ written.justify = style.get "justifyContent" := by
  unfold ViewStyle.ofFields at read
  repeat
    obtain ⟨_, _, read⟩ := bind_eq_ok_iff.1 read
  obtain rfl := pure_eq_ok_iff.1 read
  exact ⟨rfl, rfl⟩

/-- A step stands where an element of the tree asked for it. -/
def Placed (scheme : Scheme α) (pageWidth : α) (root : Node) (site : Site) (step : Step α) : Prop :=
  site.Within root ∧ scheme.Places pageWidth site step

variable {scheme : Scheme α} {pageWidth : α} {root : Node} {site : Site} {insets : List (α × α)}
  {anchors : Anchors α}

omit [Scalar α] in
theorem extentOf_eq (kept : anchors.pageWidth = pageWidth) (insets : List (α × α)) :
    extentOf anchors insets = ⟨pageWidth, insets⟩ := by
  unfold extentOf
  rw [kept]

/-- The box inside a container. -/
theorem extentWithin_cons {node : Node} {around : List Node} {outer : Extent α} {look : BoxLook α}
    (kind : scheme.isBox node) (box : scheme.extentWithin pageWidth around = .ok outer)
    (resolved : scheme.lookOf node outer = .ok look) :
    scheme.extentWithin pageWidth (node :: around) = .ok (look.inner outer) := by
  rw [extentWithin, box]
  simp only [bind, Except.bind, if_pos kind, resolved]
  rfl

/-- Other elements leave the box alone. -/
theorem extentWithin_cons_of_not {node : Node} (around : List Node) (kind : ¬ scheme.isBox node) :
    scheme.extentWithin pageWidth (node :: around) = scheme.extentWithin pageWidth around := by
  rw [extentWithin]
  cases scheme.extentWithin pageWidth around with
  | error fault => rfl
  | ok outer =>
    simp only [bind, Except.bind, if_neg kind]
    rfl

theorem holds_border (within : site.Within root) (kind : scheme.isBox site.node)
    {outer : Extent α} {look : BoxLook α}
    (box : scheme.extentWithin pageWidth site.around = .ok outer)
    (resolved : scheme.lookOf site.node outer = .ok look) {asked : Option Border}
    (own : asked = look.borderTop ∨ asked = look.borderBottom)
    (width : outer.pageWidth = pageWidth) (kept : anchors.pageWidth = pageWidth) :
    Holds (scheme.Placed pageWidth root) pageWidth
      (mark site (border (look.bordered outer).insets asked anchors)) := by
  cases asked with
  | none => exact Holds.nothing kept none
  | some found =>
    have here : extentOf anchors (look.bordered outer).insets = look.bordered outer := by
      rw [extentOf_eq kept, ← width, ← look.pageWidth_bordered outer]
    unfold border
    rw [here]
    refine Holds.markStep kept ⟨within, .divider kind box resolved ?_⟩
    rcases own with own | own
    · exact Or.inl own.symm
    · exact Or.inr own.symm

/-- The spacing and the borders of a container are placed when its content is. -/
theorem holds_traceBoxed (within : site.Within root) (kind : scheme.isBox site.node)
    {look : BoxLook α} (kept : anchors.pageWidth = pageWidth)
    (box : scheme.extentWithin pageWidth site.around = .ok ⟨pageWidth, insets⟩)
    (resolved : scheme.lookOf site.node ⟨pageWidth, insets⟩ = .ok look)
    {content : List (α × α) → Anchors α → Traced α}
    (inside : ∀ inner : List (α × α),
      scheme.extentWithin pageWidth site.chain = .ok ⟨pageWidth, inner⟩ →
      ∀ anchors : Anchors α, anchors.pageWidth = pageWidth →
        Holds (scheme.Placed pageWidth root) pageWidth (content inner anchors)) :
    Holds (scheme.Placed pageWidth root) pageWidth
      (traceBoxed site look insets anchors content) := by
  have space (amount : α) (anchors : Anchors α) (kept : anchors.pageWidth = pageWidth) :
      Holds (scheme.Placed pageWidth root) pageWidth
        (mark site (Layout.step anchors (.space amount))) :=
    Holds.markStep kept ⟨within, .space kind amount⟩
  have inner : scheme.extentWithin pageWidth site.chain =
      .ok ⟨pageWidth, (look.inner ⟨pageWidth, insets⟩).insets⟩ := by
    rw [Site.chain, extentWithin_cons kind box resolved]
    congr 1
    exact congrArg (fun width => Extent.mk width _) (look.pageWidth_inner _)
  unfold traceBoxed
  rw [extentOf_eq kept]
  refine (space _ _ kept).andThen fun anchors kept => ?_
  refine (holds_border within kind box resolved (Or.inl rfl) rfl kept).andThen
    fun anchors kept => ?_
  refine (space _ _ kept).andThen fun anchors kept => ?_
  refine (inside _ inner anchors kept).andThen fun anchors kept => ?_
  refine (space _ _ kept).andThen fun anchors kept => ?_
  refine (holds_border within kind box resolved (Or.inr rfl) rfl kept).andThen
    fun anchors kept => ?_
  exact space _ _ kept

theorem holds_textual (within : site.Within root)
    (kind : Node.isTextual scheme.naming site.node.type) (kept : anchors.pageWidth = pageWidth)
    (box : scheme.extentWithin pageWidth site.around = .ok ⟨pageWidth, insets⟩) :
    Holds (scheme.Placed pageWidth root) pageWidth
      (mark site (scheme.textual insets (impliedAlignment scheme.naming site.around) anchors
        (site.node.written scheme.naming) (fieldsOf site.node.style))) := by
  unfold textual
  simp only [mark_withResolved]
  refine Holds.withResolved kept fun look style => ?_
  refine Holds.withResolved kept fun content written => Holds.markStep kept ⟨within, ?_⟩
  obtain ⟨_, rfl⟩ := Node.written_eq_ok_iff.1 written
  rw [extentOf_eq kept]
  exact .text kind style box

theorem holds_picture (within : site.Within root)
    (kind : site.node.kind? scheme.naming = some .image) (kept : anchors.pageWidth = pageWidth)
    (path : String) :
    Holds (scheme.Placed pageWidth root) pageWidth
      (mark site (picture anchors path site.node.props (fieldsOf site.node.style))) := by
  unfold picture
  rw [mark_withResolved]
  refine Holds.withResolved kept fun align aligned => ?_
  dsimp only
  split
  · split
    · exact Holds.markStep kept ⟨within, .sourceless kind path⟩
    · exact Holds.markStep kept ⟨within, .picture kind aligned path _ _⟩
  · simp only [mark_withResolved]
    refine Holds.withResolved kept fun payload written => Holds.withResolved kept fun size _ => ?_
    obtain ⟨_, rfl⟩ := Value.written_eq_ok_iff.1 written
    exact Holds.markStep kept ⟨within, .symbol kind aligned size path _⟩

/-! ## The walk through the tree -/

/-- A page that is printed begins with nothing. -/
theorem holds_beginPage (cells : scheme.resolver.target = .cells) (props : Fields)
    (kept : anchors.pageWidth = pageWidth) :
    Holds (scheme.Placed pageWidth root) pageWidth
      (mark site (scheme.beginPage props anchors)) := by
  unfold beginPage
  rw [cells]
  exact Holds.nothing kept none

theorem holds_emptyView (cells : scheme.resolver.target = .cells) (height : Option α)
    (kept : anchors.pageWidth = pageWidth) :
    Holds (scheme.Placed pageWidth root) pageWidth
      (mark site (scheme.emptyView height anchors)) := by
  unfold emptyView
  rw [cells]
  exact Holds.nothing kept none

theorem holds_row (within : site.Within root)
    (kind : site.node.kind? scheme.naming = some .view) (kept : anchors.pageWidth = pageWidth)
    {inner : List (α × α)}
    (box : scheme.extentWithin pageWidth site.chain = .ok ⟨pageWidth, inner⟩) {justify : Value}
    (own : justify = (fieldsOf site.node.style).get "justifyContent") :
    Holds (scheme.Placed pageWidth root) pageWidth
      (mark site (Layout.withResolved anchors (scheme.cells site.node.children) fun cells =>
        Layout.step anchors (.row cells justify (extentOf anchors inner)))) := by
  rw [mark_withResolved]
  refine Holds.withResolved kept fun cells content => ?_
  rw [extentOf_eq kept, own]
  exact Holds.markStep kept ⟨within, .row kind content box⟩

/-- How a container is looked up while the tree is walked. -/
theorem lookOf_eq_ok {node : Node} {outer : Extent α} {written : ViewStyle α} {look : BoxLook α}
    (style : ViewStyle.ofFields (fieldsOf node.style) = .ok written)
    (resolved : scheme.resolver.box written outer.width = .ok look) :
    scheme.lookOf node outer = .ok look :=
  bind_eq_ok_iff.2 ⟨written, style, resolved⟩

-- The induction follows the walk. It carries the box inside the chain and the implied alignment; a
-- page takes no alignment from around it, so for a page nothing is asked of what is inherited.
mutual

/-- Every step that an element asks for is placed. -/
theorem holds_traceNode (cells : scheme.resolver.target = .cells) (around : List Node)
    (insets : List (α × α)) (path : String) (inherited : Option Alignment) (anchors : Anchors α)
    (box : scheme.extentWithin pageWidth around = .ok ⟨pageWidth, insets⟩)
    (kept : anchors.pageWidth = pageWidth) :
    ∀ node, Site.Within root ⟨node, around⟩ →
      (node.kind? scheme.naming ≠ some .page →
        inherited = impliedAlignment scheme.naming around) →
      Holds (scheme.Placed pageWidth root) pageWidth
        (scheme.traceNode around insets path inherited anchors node)
  | ⟨type, props, style, children⟩ => by
    intro within implied
    have below : ∀ child ∈ children,
        Site.Within root ⟨child, ⟨type, props, style, children⟩ :: around⟩ :=
      fun child member => within.child member
    unfold traceNode
    cases kind : scheme.naming.kind? type with
    | none =>
      have noBox : ¬ scheme.isBox ⟨type, props, style, children⟩ := by
        simp [isBox, Node.kind?, kind]
      refine holds_traceNodes cells _ insets path 0 inherited anchors
        ((extentWithin_cons_of_not around noBox).trans box) kept children below ?_
      rw [impliedAlignment_of_other (by simp [Node.kind?, kind]) (by simp [Node.kind?, kind])]
      exact implied (by simp [Node.kind?, kind])
    | some found =>
      cases found with
      | document =>
        have noBox : ¬ scheme.isBox ⟨type, props, style, children⟩ := by
          simp [isBox, Node.kind?, kind]
        refine (Holds.markStep kept ⟨within, .reset⟩).andThen fun anchors kept => ?_
        exact holds_tracePages cells _ insets path 0 anchors
          ((extentWithin_cons_of_not around noBox).trans box) kept children below
      | page =>
        have isPage : Node.kind? scheme.naming ⟨type, props, style, children⟩ = some .page := kind
        have isBox : scheme.isBox ⟨type, props, style, children⟩ := Or.inl isPage
        refine (holds_beginPage cells props kept).andThen fun anchors kept => ?_
        refine Holds.withResolved kept fun written read => ?_
        refine Holds.withResolved kept fun look resolved => ?_
        rw [extentOf_eq kept] at resolved
        refine holds_traceBoxed within isBox kept box (lookOf_eq_ok read resolved)
          fun inner box anchors kept => ?_
        exact holds_traceNodes cells _ inner path 0 none
          { anchors with
            pageBox := some ((extentOf anchors inner).left, (extentOf anchors inner).right)
            frame := ⟨none, none⟩ }
          box kept children below (impliedAlignment_of_page isPage around).symm
      | view =>
        have isView : Node.kind? scheme.naming ⟨type, props, style, children⟩ = some .view := kind
        have isBox : scheme.isBox ⟨type, props, style, children⟩ := Or.inr isView
        refine Holds.withResolved kept fun written read => ?_
        refine Holds.withResolved kept fun look resolved => ?_
        rw [extentOf_eq kept] at resolved
        obtain ⟨items, justify⟩ := items_of_ofFields read
        refine holds_traceBoxed within isBox kept box (lookOf_eq_ok read resolved)
          fun inner box anchors kept => ?_
        simp only
        split
        · exact holds_emptyView cells _ kept
        · split
          · exact holds_row within isView kept box justify
          · refine Holds.restoringFrame ?_ _
            refine holds_traceNodes cells _ inner path 0 _
              { anchors with frame := ⟨look.width, Alignment.ofItems? written.items⟩ }
              box kept children below ?_
            rw [Site.chain, impliedAlignment_of_view isView, items]
            exact congrArg _ (implied (by simp [isView]))
      | text =>
        rw [implied (by simp [Node.kind?, kind])]
        exact holds_textual within (by simp [Node.isTextual, kind, Kind.isTextual]) kept box
      | run =>
        rw [implied (by simp [Node.kind?, kind])]
        exact holds_textual within (by simp [Node.isTextual, kind, Kind.isTextual]) kept box
      | image => exact holds_picture within kind kept path

/-- Every step that the children of an element ask for is placed. -/
theorem holds_traceNodes (cells : scheme.resolver.target = .cells) (around : List Node)
    (insets : List (α × α)) (path : String) (index : Nat) (inherited : Option Alignment)
    (anchors : Anchors α) (box : scheme.extentWithin pageWidth around = .ok ⟨pageWidth, insets⟩)
    (kept : anchors.pageWidth = pageWidth) :
    ∀ children, (∀ child ∈ children, Site.Within root ⟨child, around⟩) →
      inherited = impliedAlignment scheme.naming around →
      Holds (scheme.Placed pageWidth root) pageWidth
        (scheme.traceNodes around insets path index inherited anchors children)
  | [] => fun _ _ => by
    unfold traceNodes
    exact Holds.nothing kept none
  | ⟨type, props, style, children⟩ :: rest => fun within implied => by
    unfold traceNodes
    refine (holds_traceNode cells around insets _ inherited anchors box kept _
      (within _ (List.mem_cons_self ..)) fun _ => implied).andThen fun anchors kept => ?_
    exact holds_traceNodes cells around insets path _ inherited anchors box kept rest
      (fun child member => within child (List.mem_cons_of_mem _ member)) implied

/-- Every step that the pages of a document ask for is placed. -/
theorem holds_tracePages (cells : scheme.resolver.target = .cells) (around : List Node)
    (insets : List (α × α)) (path : String) (index : Nat) (anchors : Anchors α)
    (box : scheme.extentWithin pageWidth around = .ok ⟨pageWidth, insets⟩)
    (kept : anchors.pageWidth = pageWidth) :
    ∀ children, (∀ child ∈ children, Site.Within root ⟨child, around⟩) →
      Holds (scheme.Placed pageWidth root) pageWidth
        (scheme.tracePages around insets path index anchors children)
  | [] => fun _ => by
    unfold tracePages
    exact Holds.nothing kept none
  | ⟨type, props, style, children⟩ :: rest => fun within => by
    have later : ∀ child ∈ rest, Site.Within root ⟨child, around⟩ :=
      fun child member => within child (List.mem_cons_of_mem _ member)
    unfold tracePages
    split
    · rename_i page
      refine (holds_traceNode cells around insets _ none anchors box kept _
        (within _ (List.mem_cons_self ..)) fun noPage => absurd page noPage).andThen
          fun anchors kept => ?_
      exact holds_tracePages cells around insets path _ anchors box kept rest later
    · exact holds_tracePages cells around insets path _ anchors box kept rest later

end

/-- Every step of the plan of a tree is placed, at a site that stands in the tree. -/
theorem placed_trace (cells : scheme.resolver.target = .cells) (root : Node)
    (anchors : Anchors α) :
    ∀ marked ∈ (scheme.trace anchors root).steps,
      scheme.Placed anchors.pageWidth root marked.1 marked.2 := by
  have within := Site.within_root root
  have start (later : Anchors α) (kept : later.pageWidth = anchors.pageWidth) :
      Holds (scheme.Placed anchors.pageWidth root) anchors.pageWidth
        (scheme.traceNode [] [] root.type none later root) :=
    holds_traceNode cells [] [] root.type none later rfl kept root within fun _ => rfl
  unfold trace
  split
  · exact (start anchors rfl).steps
  · refine Holds.steps ((Holds.markStep rfl ⟨within, .reset⟩).andThen fun later kept => ?_)
    exact start later kept

end Scheme

end Receipt
