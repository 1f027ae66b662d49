import Receipt.Layout.Box
import Receipt.Layout.Row
import Receipt.Tree.Node
import Receipt.Value.Whole

/-!
# The plan of a receipt

Laying out a tree gives a list of steps, each with the content box it happens in; printing and
drawing only carry steps out. A container is laid out in box order:

    margin above, border above, padding above, its content,
    padding below, border below, margin below.

The `Anchors` are what outlives an element: a page sets the page width, the box of its content and
the frame of its pictures for everything that follows, a view sets the frame of the pictures in it
until it ends. A picture is laid out in the box of the page, narrowed to the frame.

A length that is no number, or too large, ends the plan where it is met, and so does a number that is
too long to be written out: `Layout.fault` says why, and the steps before it stand.
-/

namespace Receipt

/-- One step of a plan. -/
inductive Step (α : Type) where
  /-- The beginning of a document: the printer forgets its state. -/
  | reset
  /-- The beginning of a page that states a height or whether it wraps. -/
  | page (height : Option α) (wraps : Option Bool)
  /-- Literal text. -/
  | text (content : String) (look : TextLook α) (extent : Extent α)
  /-- A row on one line. -/
  | row (cells : List (Cell α)) (justify : Value) (extent : Extent α)
  /-- A divider across the content box. -/
  | divider (border : Border) (extent : Extent α)
  /-- Vertical space. -/
  | space (amount : α)
  /-- A picture; `framed` says that its view states a width. -/
  | picture (source : Value) (align : Alignment) (path : String) (framed : Bool)
    (extent : Extent α)
  /-- A two-dimensional symbol that holds a payload. -/
  | symbol (data : String) (size : Int) (align : Alignment) (path : String) (extent : Extent α)
  /-- A picture element without a source. -/
  | sourceless (path : String)

/-- What a view gives the pictures in it. -/
structure PictureFrame (α : Type) where
  width : Option α
  align : Option Alignment

/-- What outlives the element that set it. -/
structure Anchors (α : Type) where
  pageWidth : α
  pageBox : Option (α × α)
  frame : PictureFrame α

/-- What a layout rests on: the custom names and how styles are resolved. -/
structure Scheme (α : Type) where
  naming : Naming
  resolver : Resolver α

/-- The steps of a part of a tree, the anchors after it, and the fault that ended it early. -/
structure Layout (α : Type) where
  steps : List (Step α)
  anchors : Anchors α
  fault : Option NumberFault

namespace Layout

variable {α : Type}

/-- No step. -/
def done (anchors : Anchors α) : Layout α := ⟨[], anchors, none⟩

/-- One step. -/
def step (anchors : Anchors α) (step : Step α) : Layout α := ⟨[step], anchors, none⟩

/-- The end of a plan at a fault. -/
def failed (anchors : Anchors α) (fault : NumberFault) : Layout α := ⟨[], anchors, some fault⟩

/-- Goes on behind a layout, unless it ended at a fault. -/
def andThen (first : Layout α) (next : Anchors α → Layout α) : Layout α :=
  match first.fault with
  | some _ => first
  | none =>
    let second := next first.anchors
    { second with steps := first.steps ++ second.steps }

/-- Goes on with a resolved value, or ends at its fault. -/
def withResolved {β : Type} (anchors : Anchors α) (resolved : Except NumberFault β)
    (next : β → Layout α) : Layout α :=
  match resolved with
  | .ok value => next value
  | .error fault => failed anchors fault

/-- Gives the pictures behind a layout the frame from before it. -/
def restoringFrame (frame : PictureFrame α) (layout : Layout α) : Layout α :=
  { layout with anchors := { layout.anchors with frame := frame } }

end Layout

namespace Scheme

variable {α : Type} [Scalar α]

/-- The extent of a list of insets on the page in force. -/
def extentOf (anchors : Anchors α) (insets : List (α × α)) : Extent α :=
  ⟨anchors.pageWidth, insets⟩

/-- The style of an element, with no fields when it has none. -/
def fieldsOf (style : Option Fields) : Fields := style.getD []

/-- The alignment a view among the cells of a row gives its text. -/
def cellAlignment (scheme : Scheme α) (child : Node) : Except NumberFault (Option Alignment) :=
  if child.kind? scheme.naming = some .view then do
    let style : ViewStyle α ← ViewStyle.ofFields (fieldsOf child.style)
    return (Alignment.ofItems? style.items).or (Alignment.ofItems? style.justify)
  else .ok none

/-- A line feed becomes a space. -/
def withoutFeeds (text : String) : String :=
  String.ofList (text.toList.map fun c => if c = '\n' then ' ' else c)

/-- Flattens a child of a row: its literal text, in the style of its first text element. -/
def cell (scheme : Scheme α) (child : Node) : Except NumberFault (Cell α) := do
  let first := child.find? scheme.naming .text
  let style ← TextStyle.ofFields ((first.map fun node => fieldsOf node.style).getD [])
  let look := scheme.resolver.text style (← scheme.cellAlignment child)
  let content ← child.written scheme.naming
  return {
    text := withoutFeeds content
    align := look.align
    bold := look.bold
    width := (fieldsOf child.style).get "width"
    pointSize := look.pointSize }

/-- The cells of a row. -/
def cells (scheme : Scheme α) (children : List Node) : Except NumberFault (List (Cell α)) :=
  children.mapM scheme.cell

/-- The alignment of a picture: its own text alignment, its own placement of items, that of the
view around it, or left. -/
def pictureAlignment (frame : PictureFrame α) (style : Fields) : Except NumberFault Alignment := do
  let text : TextStyle α ← TextStyle.ofFields style
  match Alignment.ofValue? text.align with
  | some align => return align
  | none =>
    let view : ViewStyle α ← ViewStyle.ofFields style
    return (((Alignment.ofItems? view.items).or (Alignment.ofItems? view.justify)).or
      frame.align).getD .left

/-- The box of a picture: the content box of the page, narrowed to the frame. -/
def pictureExtent (anchors : Anchors α) : Extent α :=
  let (left, right) := anchors.pageBox.getD (Scalar.zero, anchors.pageWidth)
  let width :=
    match anchors.frame.width with
    | some limit => Scalar.min (right - left) limit
    | none => right - left
  (⟨anchors.pageWidth, []⟩ : Extent α).framed left width

/-- The module size of a symbol; six when the value is no whole number. -/
def symbolSize (value : Value) : Except NumberFault Int :=
  match value.whole with
  | .ok size => .ok size
  | .error (.number .infinite) => .error .infinite
  | .error _ => .ok 6

/-- Lays out a picture element. -/
def picture (anchors : Anchors α) (path : String) (props style : Fields) : Layout α :=
  Layout.withResolved anchors (pictureAlignment anchors.frame style) fun align =>
    let extent := pictureExtent anchors
    let data := props.get "qrData"
    if data.isNull then
      if props.source.isNull then Layout.step anchors (.sourceless path)
      else
        Layout.step anchors
          (.picture props.source align path anchors.frame.width.isSome extent)
    else
      Layout.withResolved anchors data.written fun payload =>
      Layout.withResolved anchors (symbolSize (props.get "qrSize")) fun size =>
        Layout.step anchors (.symbol payload size align path extent)

/-- Lays out a text element. -/
def textual (scheme : Scheme α) (insets : List (α × α)) (inherited : Option Alignment)
    (anchors : Anchors α) (content : Except NumberFault String) (style : Fields) : Layout α :=
  Layout.withResolved anchors (TextStyle.ofFields style) fun written =>
  Layout.withResolved anchors content fun content =>
    Layout.step anchors
      (.text content (scheme.resolver.text written inherited) (extentOf anchors insets))

/-- A border, when there is one. -/
def border (insets : List (α × α)) (border : Option Border) (anchors : Anchors α) : Layout α :=
  match border with
  | some border => Layout.step anchors (.divider border (extentOf anchors insets))
  | none => Layout.done anchors

/-- Lays out a container around its content, which is given the insets inside it. -/
def boxed (look : BoxLook α) (insets : List (α × α)) (anchors : Anchors α)
    (content : List (α × α) → Anchors α → Layout α) : Layout α :=
  let outer := (extentOf anchors insets).narrowed look.width
  let bordered := outer.inset look.margin.left look.margin.right
  let inner := bordered.inset look.padding.left look.padding.right
  (Layout.step anchors (.space look.margin.top)).andThen fun anchors =>
  (border bordered.insets look.borderTop anchors).andThen fun anchors =>
  (Layout.step anchors (.space look.padding.top)).andThen fun anchors =>
  (content inner.insets anchors).andThen fun anchors =>
  (Layout.step anchors (.space look.padding.bottom)).andThen fun anchors =>
  (border bordered.insets look.borderBottom anchors).andThen fun anchors =>
  Layout.step anchors (.space look.margin.bottom)

/-- The number that a page states for its width or height, when it is more than zero. -/
def statedSize? (value : Value) : Except NumberFault (Option α) :=
  match value with
  | .bool holds => .ok (if holds then some Scalar.one else none)
  | .int number => if 0 < number then (Scalar.ofInt number).map some else .ok none
  | .float number =>
    .ok ((Scalar.ofBinary number).filter fun n => decide (Scalar.zero < n))
  | _ => .ok none

/-- The beginning of a page. Only a page that is drawn takes the size it states. -/
def beginPage (scheme : Scheme α) (props : Fields) (anchors : Anchors α) : Layout α :=
  match scheme.resolver.target with
  | .cells => Layout.done anchors
  | .points =>
    let (width, height) :=
      match props.get "size" with
      | .mapping size => (Fields.get size "width", Fields.get size "height")
      | _ => (.null, .null)
    let wraps :=
      match props.get "wrap" with
      | .bool wraps => some wraps
      | _ => none
    Layout.withResolved anchors (statedSize? width) fun (width : Option α) =>
      let anchors := { anchors with pageWidth := width.getD anchors.pageWidth }
      Layout.withResolved anchors (statedSize? height) fun (height : Option α) =>
        Layout.step anchors (.page height wraps)

/-- An empty view takes its height on a page, and nothing on a receipt printer. -/
def emptyView (scheme : Scheme α) (height : Option α) (anchors : Anchors α) : Layout α :=
  match scheme.resolver.target with
  | .cells => Layout.done anchors
  | .points => Layout.step anchors (.space (pointsOfPixels height))

mutual

/-- Lays out an element. -/
def node (scheme : Scheme α) (insets : List (α × α)) (path : String)
    (inherited : Option Alignment) (anchors : Anchors α) : Node → Layout α
  | ⟨type, props, style, children⟩ =>
    match scheme.naming.kind? type with
    | some .document =>
      (Layout.step anchors .reset).andThen fun anchors =>
        pages scheme insets path 0 anchors children
    | some .page =>
      (scheme.beginPage props anchors).andThen fun anchors =>
      Layout.withResolved anchors (ViewStyle.ofFields (fieldsOf style)) fun written =>
      Layout.withResolved anchors
        (scheme.resolver.box written (extentOf anchors insets).width) fun look =>
      boxed look insets anchors fun inner anchors =>
        let extent := extentOf anchors inner
        nodes scheme inner path 0 none
          { anchors with pageBox := some (extent.left, extent.right), frame := ⟨none, none⟩ }
          children
    | some .view =>
      Layout.withResolved anchors (ViewStyle.ofFields (fieldsOf style)) fun written =>
      Layout.withResolved anchors
        (scheme.resolver.box written (extentOf anchors insets).width) fun look =>
      boxed look insets anchors fun inner anchors =>
        let own := Alignment.ofItems? written.items
        if children.isEmpty then scheme.emptyView written.height anchors
        else if written.isRow && 1 < children.length then
          Layout.withResolved anchors (scheme.cells children) fun cells =>
            Layout.step anchors (.row cells written.justify (extentOf anchors inner))
        else
          Layout.restoringFrame anchors.frame
            (nodes scheme inner path 0 (own.or inherited)
              { anchors with frame := ⟨look.width, own⟩ } children)
    | some .text | some .run =>
      scheme.textual insets inherited anchors
        (Node.written scheme.naming ⟨type, props, style, children⟩) (fieldsOf style)
    | some .image => picture anchors path props (fieldsOf style)
    | none => nodes scheme insets path 0 inherited anchors children

/-- Lays out the children of an element, from the one with this number on. -/
def nodes (scheme : Scheme α) (insets : List (α × α)) (path : String) (index : Nat)
    (inherited : Option Alignment) (anchors : Anchors α) : List Node → Layout α
  | [] => Layout.done anchors
  | ⟨type, props, style, children⟩ :: rest =>
    (node scheme insets (childPath path type index) inherited anchors
      ⟨type, props, style, children⟩).andThen fun anchors =>
        nodes scheme insets path (index + 1) inherited anchors rest

/-- Lays out the pages among the children of a document, from the one with this number on. -/
def pages (scheme : Scheme α) (insets : List (α × α)) (path : String) (index : Nat)
    (anchors : Anchors α) : List Node → Layout α
  | [] => Layout.done anchors
  | ⟨type, props, style, children⟩ :: rest =>
    if scheme.naming.kind? type = some .page then
      (node scheme insets (childPath path type index) none anchors
        ⟨type, props, style, children⟩).andThen fun anchors =>
          pages scheme insets path (index + 1) anchors rest
    else pages scheme insets path (index + 1) anchors rest

end

/-- Lays out a whole tree inside insets. A root that is no document is laid out as if it stood in
one. -/
def tree (scheme : Scheme α) (insets : List (α × α)) (anchors : Anchors α) (root : Node) :
    Layout α :=
  if root.kind? scheme.naming = some .document then
    scheme.node insets root.type none anchors root
  else
    (Layout.step anchors .reset).andThen fun anchors =>
      scheme.node insets root.type none anchors root

end Scheme

/-- The anchors before a tree is laid out. -/
def Anchors.start {α : Type} (pageWidth : α) : Anchors α := ⟨pageWidth, none, ⟨none, none⟩⟩

end Receipt
