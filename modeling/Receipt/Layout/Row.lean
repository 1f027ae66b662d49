import Receipt.Style.Resolved

/-!
# Rows

The children of a row are flattened to cells and laid out on one line. On a receipt printer the line
is a list of segments, each printed in one weight; on a page each cell is placed at a point. Both
follow the same three ways: two cells without widths pushed to the two ends, all cells centred
together, or columns with the widths that `Resolver.widths` shares out.
-/

namespace Receipt

/-- The flattened content of one child of a row. -/
structure Cell (α : Type) where
  text : String
  align : Alignment
  bold : Bool
  width : Value
  pointSize : α

/-- A part of a printed line in one weight. -/
structure Segment where
  text : String
  bold : Bool
deriving DecidableEq, Repr

/-- A cell of a row on a page, its text standing at `x` on the side that `anchor` names. -/
structure Placement (α : Type) where
  text : String
  x : α
  anchor : Alignment
  bold : Bool
  pointSize : α

/-- The width in points of a text in a weight and a size. -/
abbrev Measure (α : Type) := String → Bool → α → α

namespace Row

variable {α : Type} [Scalar α]

/-- The two cells of a row that pushes them to its ends. -/
def ends? (justify : Value) (cells : List (Cell α)) : Option (Cell α × Cell α) :=
  match cells with
  | [first, second] =>
    if justify.isTextOf "space-between" && !isWidth first.width && !isWidth second.width then
      some (first, second)
    else none
  | _ => none

/-- Whether a row centres its cells. -/
def isCentered (justify : Value) : Bool := justify.isTextOf "center"

/-- A number of spaces. -/
def blanks (count : Nat) : List Char := List.replicate count ' '

/-- A text cut or filled up with spaces to exactly `width` characters. -/
def fit (text : List Char) (width : Int) (align : Alignment) : List Char :=
  let clipped := text.take width.toNat
  let room := width.toNat - clipped.length
  match align with
  | .left => clipped ++ blanks room
  | .right => blanks room ++ clipped
  | .center => blanks (room / 2) ++ clipped ++ blanks (room - room / 2)

/-- The cells one after the other, each cut to the room that is left; none is given once there is no
room. -/
def clipInTurn (room : Nat) : List (Cell α) → List Segment
  | [] => []
  | cell :: cells =>
    if room = 0 then []
    else
      let piece := cell.text.toList.take room
      ⟨String.ofList piece, cell.bold⟩ :: clipInTurn (room - piece.length) cells

/-- How many characters the cells have together. -/
def textLength : List (Cell α) → Nat
  | [] => 0
  | cell :: cells => cell.text.length + textLength cells

/-- The line of a row whose cells are centred together. -/
def centered (cells : List (Cell α)) (width : Int) : List Segment :=
  let lead := ((width - textLength cells) / 2).toNat
  let rest := clipInTurn (width - lead).toNat cells
  if lead = 0 then rest else ⟨String.ofList (blanks lead), false⟩ :: rest

/-- The line of a row in columns. -/
def columns (resolver : Resolver α) (cells : List (Cell α)) (width : Int) :
    Except NumberFault (List Segment) := do
  let widths ← resolver.widths (cells.map (·.width)) (← Scalar.ofInt width)
  (cells.zip widths).mapM fun (cell, width) => do
    let count ← Scalar.truncate width
    return ⟨String.ofList (fit cell.text.toList count cell.align), cell.bold⟩

/-- The line of a row on a receipt printer, `width` characters wide. -/
def segments (resolver : Resolver α) (cells : List (Cell α)) (width : Int) (justify : Value) :
    Except NumberFault (List Segment) :=
  if cells.isEmpty then .ok []
  else
    match ends? justify cells with
    | some (first, second) =>
      let used : Int := first.text.length + second.text.length
      if used < width then
        .ok [⟨first.text, first.bold⟩, ⟨String.ofList (blanks (width - used).toNat), false⟩,
          ⟨second.text, second.bold⟩]
      else columns resolver cells width
    | none =>
      if isCentered justify then .ok (centered cells width) else columns resolver cells width

/-- The longest of the first `count` beginnings of a text that fits, or nothing. -/
def longestFitting (fits : List Char → Bool) (text : List Char) : Nat → List Char
  | 0 => []
  | count + 1 =>
    if fits (text.take (count + 1)) then text.take (count + 1)
    else longestFitting fits text count

/-- Drops characters at the end of a text until it measures at most `width`. -/
def clip (measure : Measure α) (text : String) (width : α) (bold : Bool) (pointSize : α) :
    String :=
  String.ofList <| longestFitting
    (fun piece => decide (¬ width < measure (String.ofList piece) bold pointSize))
    text.toList text.length

/-- Places cells one behind the other. -/
def placeInTurn (measure : Measure α) : α → List (Cell α) → List (Placement α)
  | _, [] => []
  | x, cell :: cells =>
    ⟨cell.text, x, .left, cell.bold, cell.pointSize⟩ ::
      placeInTurn measure (x + measure cell.text cell.bold cell.pointSize) cells

/-- Where the text of a column stands: at its left edge, in its middle or at its right edge. -/
def anchorPoint (align : Alignment) (x width : α) : α :=
  match align with
  | .left => x
  | .center => x + width / Scalar.ofNat 2
  | .right => x + width

/-- Places cells in columns of the given widths. -/
def placeColumns (measure : Measure α) : α → List (Cell α × α) → List (Placement α)
  | _, [] => []
  | x, (cell, width) :: columns =>
    ⟨clip measure cell.text width cell.bold cell.pointSize, anchorPoint cell.align x width,
      cell.align, cell.bold, cell.pointSize⟩ :: placeColumns measure (x + width) columns

/-- The cells of a row on a page, relative to the left edge of a box of a width. -/
def placements (resolver : Resolver α) (measure : Measure α) (cells : List (Cell α)) (width : α)
    (justify : Value) : Except NumberFault (List (Placement α)) :=
  let inColumns : Except NumberFault (List (Placement α)) := do
    let widths ← resolver.widths (cells.map (·.width)) width
    return placeColumns measure Scalar.zero (cells.zip widths)
  let sizes := cells.map fun cell => measure cell.text cell.bold cell.pointSize
  if cells.isEmpty then .ok []
  else
    match ends? justify cells with
    | some (first, second) =>
      if Scalar.sum sizes < width then
        .ok [⟨first.text, Scalar.zero, .left, first.bold, first.pointSize⟩,
          ⟨second.text, width, .right, second.bold, second.pointSize⟩]
      else inColumns
    | none =>
      if isCentered justify then
        .ok (placeInTurn measure
          (Scalar.max Scalar.zero ((width - Scalar.sum sizes) / Scalar.ofNat 2)) cells)
      else inColumns

end Row

end Receipt
