import Receipt.Style.Basic
import Receipt.Value.Printed

/-!
# Resolved styles

A `Resolver` turns styles into the units of its target: character cells and whole line feeds for a
receipt printer, points for a page. `TextLook` and `BoxLook` are the results. Widths of the cells of
a row are shared out by `Resolver.widths`: explicit widths take from what is left in turn, and the
rest is divided among the other cells, on a printer in whole characters with the leftover ones going
to the first cells.
-/

namespace Receipt

/-- Character multipliers. -/
structure CharSize where
  width : Int
  height : Int
deriving DecidableEq, Repr

namespace CharSize

/-- The size of plain text. -/
def normal : CharSize := ⟨1, 1⟩

/-- The largest size of both protocols. -/
def largest : CharSize := ⟨2, 2⟩

/-- A size limited to a ceiling, and from below to the plain size. -/
def clamp (size ceiling : CharSize) : CharSize :=
  ⟨max 1 (min size.width ceiling.width), max 1 (min size.height ceiling.height)⟩

variable {α : Type} [Scalar α]

/-- The size a font size in pixels stands for. Below 13 it is plain, from 13 double height, from 19
double width and from 25 both. -/
def ofFontSize (pixels : Option α) : CharSize :=
  match pixels with
  | none => normal
  | some pixels =>
    if ¬ Scalar.isNumber pixels then normal
    else if pixels < Scalar.ofNat 13 then ⟨1, 1⟩
    else if pixels < Scalar.ofNat 19 then ⟨1, 2⟩
    else if pixels < Scalar.ofNat 25 then ⟨2, 1⟩
    else ⟨2, 2⟩

end CharSize

/-- The units that styles are resolved to. -/
inductive Target where
  /-- Character cells and line feeds. -/
  | cells
  /-- Points. -/
  | points
deriving DecidableEq, Repr

/-- Spacing at the four edges of a box. -/
structure Edges (α : Type) where
  top : α
  right : α
  bottom : α
  left : α

/-- The effective style of a text. -/
structure TextLook (α : Type) where
  align : Alignment
  bold : Bool
  size : CharSize
  pointSize : α
  paddingLeft : α
  paddingRight : α

/-- The effective style of a container. -/
structure BoxLook (α : Type) where
  align : Alignment
  width : Option α
  margin : Edges α
  padding : Edges α
  borderTop : Option Border
  borderBottom : Option Border

/-- How styles are resolved: the units, the largest character size, and the size in points of text
that says nothing else. -/
structure Resolver (α : Type) where
  target : Target
  maxSize : CharSize
  pointSize : α

variable {α : Type} [Scalar α]

/-- The explicit alignment, or else the inherited one, or else left. -/
def resolveAlignment (own : Value) (inherited : Option Alignment) : Alignment :=
  ((Alignment.ofValue? own).or inherited).getD .left

/-- The whole line feeds in a spacing, twenty pixels to a line. -/
def linesOfPixels (pixels : Option α) : Except NumberFault Int :=
  match pixels with
  | none => .ok 0
  | some pixels => if pixels ≤ Scalar.zero then .ok 0 else Scalar.floorQuotient pixels 20

/-- The points in a spacing, three to four pixels. -/
def pointsOfPixels (pixels : Option α) : α :=
  match pixels with
  | none => Scalar.zero
  | some pixels => if pixels ≤ Scalar.zero then Scalar.zero else pixels * Scalar.ofRatio 3 4

/-- The text of a divider: `width` glyphs. -/
def dividerText (border : Border) (width : Int) : String :=
  String.ofList (List.replicate width.toNat
    (match border with
      | .dashed => '-'
      | .solid => '─'))

namespace Resolver

/-- The size in points of a font size in pixels. -/
def pointSizeOf (resolver : Resolver α) (fontSize : Option α) : α :=
  match fontSize with
  | none => resolver.pointSize
  | some pixels =>
    if pixels ≤ Scalar.zero then resolver.pointSize else pixels * Scalar.ofRatio 3 4

/-- Resolves the style of a text against the inherited alignment. -/
def text (resolver : Resolver α) (style : TextStyle α) (inherited : Option Alignment) :
    TextLook α :=
  let padding (pixels : Option α) : α :=
    match resolver.target with
    | .points => pointsOfPixels pixels
    | .cells => Scalar.zero
  { align := resolveAlignment style.align inherited
    bold := style.isBold
    size := CharSize.clamp (CharSize.ofFontSize style.fontSize) resolver.maxSize
    pointSize := resolver.pointSizeOf style.fontSize
    paddingLeft := padding style.paddingLeft
    paddingRight := padding style.paddingRight }

/-- The explicit width in target units before it is limited: a share of the width around it, whole
characters, or pixels. A width of another kind is passed over, but it is written out for the log. -/
def statedWidth (resolver : Resolver α) (width : Value) (outer : α) :
    Except NumberFault (Option α) :=
  match Percentage.ofValue? width with
  | some share =>
    match resolver.target with
    | .points => .ok (some (share * outer))
    | .cells => do
      let whole ← Scalar.roundEven (share * outer)
      return some (← Scalar.ofInt whole)
  | none => do
    match ← Length.ofValue width with
    | none => width.written.map fun _ => none
    | some pixels =>
      match resolver.target with
      | .points => return some (pixels * Scalar.ofRatio 3 4)
      | .cells => return some (← Scalar.ofInt (← Scalar.truncate pixels))

/-- Resolves an explicit width, limited to the width around it. -/
def width (resolver : Resolver α) (width : Value) (outer : α) : Except NumberFault (Option α) :=
  if isWidth width then do
    let stated ← resolver.statedWidth width outer
    return stated.map fun value => Scalar.max Scalar.zero (Scalar.min value outer)
  else .ok none

/-- Resolves the spacing at the four edges; a printer has none at the sides. -/
def edges (resolver : Resolver α) (top right bottom left : Option α) :
    Except NumberFault (Edges α) :=
  match resolver.target with
  | .points =>
    .ok ⟨pointsOfPixels top, pointsOfPixels right, pointsOfPixels bottom, pointsOfPixels left⟩
  | .cells => do
    let above ← Scalar.ofInt (← linesOfPixels top)
    let below ← Scalar.ofInt (← linesOfPixels bottom)
    return ⟨above, Scalar.zero, below, Scalar.zero⟩

/-- Resolves the style of a container inside a box of a width. -/
def box (resolver : Resolver α) (style : ViewStyle α) (outer : α) :
    Except NumberFault (BoxLook α) := do
  let width ← resolver.width style.width outer
  let margin ← resolver.edges style.marginTop style.marginRight style.marginBottom style.marginLeft
  let padding ←
    resolver.edges style.paddingTop style.paddingRight style.paddingBottom style.paddingLeft
  return {
    align := (Alignment.ofItems? style.items).getD .left
    width := width
    margin := margin
    padding := padding
    borderTop := style.borderTop.bind Border.ofText?
    borderBottom := style.borderBottom.bind Border.ofText? }

/-- Lets explicit widths take from what is left, in turn. -/
def grantWidths : α → List (Option α) → List (Option α) × α
  | remaining, [] => ([], remaining)
  | remaining, none :: widths =>
    let (granted, rest) := grantWidths remaining widths
    (none :: granted, rest)
  | remaining, some width :: widths =>
    let taken := Scalar.min width remaining
    let (granted, rest) := grantWidths (remaining - taken) widths
    (some taken :: granted, rest)

/-- Gives each cell without a width the next of the shares. -/
def fillShares : List (Option α) → List α → List α
  | [], _ => []
  | some width :: widths, shares => width :: fillShares widths shares
  | none :: widths, share :: shares => share :: fillShares widths shares
  | none :: widths, [] => Scalar.zero :: fillShares widths []

/-- Divides what is left among a number of cells. -/
def shares (resolver : Resolver α) (remaining : α) (count : Nat) : Except NumberFault (List α) :=
  match resolver.target with
  | .points => .ok (List.replicate count (remaining / Scalar.ofNat count))
  | .cells => do
    let whole ← Scalar.truncate remaining
    let share := whole / count
    let extra := whole % count
    (List.range count).mapM fun (n : Nat) =>
      Scalar.ofInt (share + if (n : Int) < extra then 1 else 0)

/-- Shares a width out among the cells of a row. -/
def widths (resolver : Resolver α) (stated : List Value) (total : α) :
    Except NumberFault (List α) := do
  let resolved ← stated.mapM fun width => resolver.width width total
  let (granted, remaining) := grantWidths (Scalar.max Scalar.zero total) resolved
  let free := granted.countP Option.isNone
  if free = 0 then return fillShares granted []
  return fillShares granted (← resolver.shares remaining free)

end Resolver

end Receipt
