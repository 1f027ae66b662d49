import Receipt.Diagnostic
import Receipt.Layout.Plan
import Receipt.Page.Glyph
import Receipt.Picture.Source

/-!
# Drawing a plan

`Page.draw` carries out one step of a plan on a page: it gives marks with their positions and moves
the pen down behind them. Heights grow towards the bottom of the page until the page is written out.
Everything a step draws lies between the pen before it and the pen after it.
-/

namespace Receipt

/-- Something drawn on a page; `y` is the baseline of a text, the stroke of a line and the upper edge
of a picture or symbol. -/
inductive Mark (α : Type) where
  | text (content : String) (x y : α) (bold : Bool) (size : α) (anchor : Alignment)
  | line (x1 x2 y : α) (dashed : Bool)
  | picture (picture : Picture) (x y width height : α)
  | symbol (data : String) (x y side : α)

/-- Where drawing stands: the height of the pen and the lowest it has been, the alignment that was
set last, and what the pages state about their height. -/
structure Pen (α : Type) where
  y : α
  lowest : α
  align : Option Alignment
  pageHeight : Option α
  wraps : Option Bool

/-- Why drawing ended early. -/
inductive DrawFault where
  /-- A number lies beyond those that can be drawn with. -/
  | number (fault : NumberFault)
  /-- A source cannot be read at all. -/
  | source (fault : SourceFault)
deriving DecidableEq, Repr

/-- The parts of a page by what they show. -/
inductive Part where
  | start
  | text
  | row
  | divider
  | space
  | picture
  | symbol
deriving DecidableEq, Repr

namespace Part

/-- The name of a part in the trace of what is drawn. -/
def name : Part → String
  | start => "init"
  | text => "text"
  | row => "row"
  | divider => "divider"
  | space => "space"
  | picture => "image"
  | symbol => "barcode_2d"

end Part

/-- What happens while a plan is drawn. -/
inductive DrawEvent (α : Type) where
  /-- A part of the page is drawn, with the marks it takes. -/
  | drawn (part : Part) (marks : List (Mark α))
  | noted (diagnostic : Diagnostic)

/-- The course of drawing: the events, the pen after them, and the fault that ended it. -/
structure Drawing (α : Type) where
  events : List (DrawEvent α)
  pen : Pen α
  fault : Option DrawFault

namespace Drawing

variable {α : Type}

/-- Nothing happens. -/
def done (pen : Pen α) : Drawing α := ⟨[], pen, none⟩

/-- A part of the page is drawn. -/
def draw (pen : Pen α) (part : Part) (marks : List (Mark α)) : Drawing α :=
  ⟨[.drawn part marks], pen, none⟩

/-- An element is left out. -/
def note (pen : Pen α) (path message : String) : Drawing α := ⟨[.noted ⟨path, message⟩], pen, none⟩

/-- Drawing ends. -/
def failed (pen : Pen α) (fault : DrawFault) : Drawing α := ⟨[], pen, some fault⟩

/-- Goes on behind some drawing, unless it ended at a fault. -/
def andThen (first : Drawing α) (next : Pen α → Drawing α) : Drawing α :=
  match first.fault with
  | some _ => first
  | none =>
    let second := next first.pen
    { second with events := first.events ++ second.events }

/-- The marks, in order. -/
def marks (drawing : Drawing α) : List (Mark α) :=
  drawing.events.flatMap fun
    | .drawn _ marks => marks
    | .noted _ => []

/-- The notes, in order. -/
def diagnostics (drawing : Drawing α) : List Diagnostic :=
  drawing.events.filterMap fun
    | .drawn _ _ => none
    | .noted diagnostic => some diagnostic

end Drawing

namespace Pen

variable {α : Type} [Scalar α]

/-- The pen at the top of a page. -/
def atTop : Pen α := ⟨Scalar.zero, Scalar.zero, none, none, none⟩

/-- Moves the pen down. -/
def advance (pen : Pen α) (amount : α) : Pen α :=
  { pen with y := pen.y + amount, lowest := Scalar.max pen.lowest (pen.y + amount) }

end Pen

namespace Page

/-- How text is set: the size in points that a bare line feed takes, and the height of a line as a
multiple of the size. -/
structure Setting (α : Type) where
  fontSize : α
  lineHeight : α

variable {α : Type} [Scalar α]

/-- The usual setting. -/
def Setting.usual : Setting α := ⟨Scalar.ofNat 10, Scalar.ofRatio 6 5⟩

/-- How far a line of text moves the pen. -/
def Setting.lineAdvance (setting : Setting α) (size : α) : α := size * setting.lineHeight

/-- The space a divider takes. -/
def dividerAdvance : α := Scalar.ofNat 4

/-- A printer dot in points. -/
def dotSize : α := Scalar.ofRatio 72 203

/-- The modules along the side of a small symbol. -/
def symbolModules : Int := 25

/-- Where a text stands between two edges. -/
def anchorX (align : Alignment) (left right : α) : α :=
  match align with
  | .left => left
  | .center => (left + right) / Scalar.ofNat 2
  | .right => right

/-- Where a block of a width stands in a content box. -/
def blockX (extent : Extent α) (align : Option Alignment) (width : α) : α :=
  match align with
  | some .center => extent.left + (extent.width - width) / Scalar.ofNat 2
  | some .right => extent.right - width
  | some .left | none => extent.left

/-- Draws one line of text in a content box with paddings. -/
def drawLine (setting : Setting α) (extent : Extent α) (line : String) (align : Alignment)
    (bold : Bool) (size paddingLeft paddingRight : α) (pen : Pen α) : Drawing α :=
  let x := anchorX align (extent.left + paddingLeft) (extent.right - paddingRight)
  let marks := if line.isEmpty then [] else [Mark.text line x (pen.y + size) bold size align]
  Drawing.draw (pen.advance (setting.lineAdvance size)) .text marks

/-- Draws lines of text, one below the other. -/
def drawLines (setting : Setting α) (extent : Extent α) (look : TextLook α) (pen : Pen α) :
    List String → Drawing α
  | [] => Drawing.done pen
  | line :: lines =>
    (drawLine setting extent line look.align look.bold look.pointSize look.paddingLeft
      look.paddingRight pen).andThen fun pen => drawLines setting extent look pen lines

/-- Draws a text, wrapped to the content box without its paddings, at least one point. -/
def drawText (setting : Setting α) (pen : Pen α) (content : String) (look : TextLook α)
    (extent : Extent α) : Drawing α :=
  let width := extent.width - look.paddingLeft - look.paddingRight
  drawLines setting extent look pen
    (wrapText content look.bold look.pointSize (Scalar.max Scalar.one width))

/-- The size of the tallest placement. -/
def tallest (first : Placement α) (rest : List (Placement α)) : α :=
  rest.foldl (fun size placement => Scalar.max size placement.pointSize) first.pointSize

/-- Draws placed cells on one line. -/
def drawPlacements (setting : Setting α) (extent : Extent α) (pen : Pen α)
    (placements : List (Placement α)) : Drawing α :=
  match placements with
  | [] => Drawing.draw pen .row []
  | first :: rest =>
    let size := tallest first rest
    let shown := placements.filter fun placement => !placement.text.isEmpty
    Drawing.draw (pen.advance (setting.lineAdvance size)) .row (shown.map fun placement =>
      .text placement.text (extent.left + placement.x) (pen.y + size) placement.bold
        placement.pointSize placement.anchor)

/-- Draws a divider across a content box. -/
def drawDivider (extent : Extent α) (pen : Pen α) (dashed : Bool) : Drawing α :=
  Drawing.draw (pen.advance dividerAdvance) .divider
    [.line extent.left extent.right (pen.y + dividerAdvance / Scalar.ofNat 2) dashed]

/-- Leaves vertical space. -/
def drawSpace (pen : Pen α) (amount : α) : Drawing α :=
  Drawing.draw (if Scalar.zero < amount then pen.advance amount else pen) .space []

/-- Draws a picture of a width, keeping its shape. -/
def drawPicture (extent : Extent α) (pen : Pen α) (picture : Picture) (width : α)
    (align : Option Alignment) : Drawing α :=
  if picture.isEmpty || decide (width ≤ Scalar.zero) then Drawing.draw pen .picture []
  else
    let height := width * Scalar.ofNat picture.height / Scalar.ofNat picture.width
    Drawing.draw (pen.advance height) .picture
      [.picture picture (blockX extent align width) pen.y width height]

/-- Draws a symbol: its side is limited by the content box. -/
def drawSymbol (extent : Extent α) (pen : Pen α) (data : String) (size : Int)
    (align : Option Alignment) : Drawing α :=
  match (Scalar.ofInt (max 1 size * symbolModules) : Except NumberFault α) with
  | .error fault => Drawing.failed pen (.number fault)
  | .ok modules =>
    let side := Scalar.min extent.width (modules * dotSize)
    Drawing.draw (pen.advance side) .symbol [.symbol data (blockX extent align side) pen.y side]

/-- Draws the picture of a source, or leaves it out. A picture whose view states no width takes half
of the content box. -/
def drawSource (extent : Extent α) (pen : Pen α) (source : Value) (align : Alignment)
    (path : String) (framed : Bool) : Drawing α :=
  match source.toPicture with
  | .error fault =>
    if fault.isSkipped then Drawing.note pen path ("skipping image: " ++ fault.message)
    else Drawing.failed pen (.source fault)
  | .ok picture =>
    let width := if framed then extent.width else extent.width * Scalar.ofRatio 1 2
    drawPicture extent pen picture width (some align)

/-- Carries out one step. -/
def draw (setting : Setting α) (resolver : Resolver α) (pen : Pen α) : Step α → Drawing α
  | .reset => Drawing.draw { pen with y := Scalar.zero, lowest := Scalar.zero } .start []
  | .page height wraps =>
    Drawing.done { pen with pageHeight := height.or pen.pageHeight, wraps := wraps.or pen.wraps }
  | .text content look extent => drawText setting pen content look extent
  | .row cells justify extent =>
    match Row.placements resolver textWidth cells extent.width justify with
    | .error fault => Drawing.failed pen (.number fault)
    | .ok placements => drawPlacements setting extent pen placements
  | .divider border extent => drawDivider extent pen (border == .dashed)
  | .space amount => drawSpace pen amount
  | .picture source align path framed extent => drawSource extent pen source align path framed
  | .symbol data size align _ extent =>
    drawSymbol extent { pen with align := some align } data size (some align)
  | .sourceless path => Drawing.note pen path "image has no source"

/-- Carries out steps in order. -/
def drawAll (setting : Setting α) (resolver : Resolver α) (pen : Pen α) :
    List (Step α) → Drawing α
  | [] => Drawing.done pen
  | step :: steps =>
    (draw setting resolver pen step).andThen fun pen => drawAll setting resolver pen steps

/-- Draws a layout: its steps, and then the fault that ended it. -/
def drawLayout (setting : Setting α) (resolver : Resolver α) (pen : Pen α) (layout : Layout α) :
    Drawing α :=
  (drawAll setting resolver pen layout.steps).andThen fun pen =>
    match layout.fault with
    | some fault => Drawing.failed pen (.number fault)
    | none => Drawing.done pen

/-- The height that is fixed for the page: the one a page states, none when the page is to wrap, or
else the one asked for. -/
def fixedHeight (pen : Pen α) (asked : Option α) : Option α :=
  match pen.pageHeight with
  | some height => some height
  | none => if pen.wraps = some true then none else asked

/-- The space below the lowest mark of a page without a fixed height. -/
def bottomMargin : α := Scalar.ofNat 5

/-- The height of the page: the fixed one, or else what its content takes and a margin. -/
def height (pen : Pen α) (fixed : Option α) : α := fixed.getD (pen.lowest + bottomMargin)

/-- Whether content lies below a fixed height. -/
def overflows (pen : Pen α) (fixed : Option α) : Bool :=
  match fixed with
  | some height => decide (height < pen.lowest)
  | none => false

end Page

end Receipt
