import Receipt.Proofs.Device

/-!
# What a step leaves on the paper

A `Sheet` is what a step of a plan asks to be printed: every line in the face that its step names.
It is made from the step alone, without commands and without registers. Only the weight is carried
from step to step, because a blank part of a row and a divider are printed in whatever weight is in
force.
-/

namespace Receipt

/-- Pieces of a receipt, and the weight in force behind them. -/
structure Sheet where
  imprints : List Imprint
  weight : Bool

namespace Sheet

/-- Nothing is printed. -/
def blank (weight : Bool) : Sheet := ⟨[], weight⟩

/-- Goes on with a whole number; without one nothing is printed. -/
def withNumber (weight : Bool) (number : Except NumberFault Int) (next : Int → Sheet) : Sheet :=
  match number with
  | .error _ => blank weight
  | .ok n => next n

/-- There is nothing without a number, and else what its number gives. -/
theorem withNumber_cases (weight : Bool) (number : Except NumberFault Int) (next : Int → Sheet) :
    withNumber weight number next = blank weight ∨
      ∃ n, number = .ok n ∧ withNumber weight number next = next n := by
  cases number with
  | error fault => exact Or.inl rfl
  | ok n => exact Or.inr ⟨n, rfl, rfl⟩

/-- A part of a line in a face; an empty one leaves nothing. -/
def part (face : Face) (content : String) : List Imprint :=
  if content.isEmpty then [] else [.text (Codepage.encode content.toList) face]

/-- A line in a face. -/
def line (face : Face) (content : String) : List Imprint := part face content ++ [.lineEnd]

/-- The parts of a row. One that shows something sets the weight. -/
def ofSegments (weight : Bool) : List Segment → Sheet
  | [] => blank weight
  | segment :: segments =>
    let own := if Text.isBlankText segment.text.toList then weight else segment.bold
    let rest := ofSegments own segments
    ⟨part ⟨.left, .normal, own⟩ segment.text ++ rest.imprints, rest.weight⟩

variable {α : Type} [Scalar α]

/-- A text, wrapped to the content box. -/
def ofText (weight : Bool) (content : String) (look : TextLook α) (extent : Extent α) : Sheet :=
  if content.isEmpty then ⟨[.lineEnd], weight⟩
  else
    match Printer.columns extent look.size with
    | .error _ => blank weight
    | .ok columns =>
      ⟨(Text.wrapText content columns).flatMap (line ⟨look.align, look.size, look.bold⟩),
        look.bold⟩

/-- A row on one line. -/
def ofRow (resolver : Resolver α) (weight : Bool) (cells : List (Cell α)) (justify : Value)
    (extent : Extent α) : Sheet :=
  withNumber weight (Scalar.truncate extent.width) fun width =>
    match Row.segments resolver cells width justify with
    | .error _ => blank weight
    | .ok segments =>
      let parts := ofSegments weight segments
      ⟨parts.imprints ++ [.lineEnd], parts.weight⟩

/-- A divider across the content box. -/
def ofDivider (weight : Bool) (border : Border) (extent : Extent α) : Sheet :=
  withNumber weight (Scalar.truncate extent.width) fun width =>
    ⟨line ⟨.left, .normal, weight⟩ (dividerText border width), weight⟩

/-- Vertical space in whole lines. -/
def ofSpace (weight : Bool) (amount : α) : Sheet :=
  withNumber weight (Scalar.truncate amount) fun lines =>
    ⟨List.replicate lines.toNat .lineEnd, weight⟩

/-- The command for a bitmap. -/
def rasterCommand (bitmap : Bitmap) : Command := .raster bitmap.pack bitmap.width bitmap.height

/-- A picture, when the protocol accepts its bitmap. -/
def ofPicture (printer : Printer α) (weight : Bool) (source : Value) (align : Alignment)
    (extent : Extent α) : Sheet :=
  withNumber weight (Scalar.truncate extent.width) fun width =>
    match rasterize source (width * printer.dotsPerCharacter) true with
    | .error _ => blank weight
    | .ok bitmap =>
      match printer.protocol.encode (rasterCommand bitmap) with
      | .error _ => blank weight
      | .ok _ =>
        ⟨[.raster ((bitmap.width + 7) / 8 % 65536) (bitmap.height % 65536) bitmap.pack align],
          weight⟩

/-- A symbol, when the protocol accepts it. -/
def ofSymbol (printer : Printer α) (weight : Bool) (data : String) (size : Int)
    (align : Alignment) : Sheet :=
  match printer.protocol.encode (.symbol data size) with
  | .error _ => blank weight
  | .ok bytes => ⟨[.symbol (bytes.drop 3) align], weight⟩

/-- What a step asks to be printed, with the weight in force before it. A reset ends in the light
weight. -/
def ofStep (printer : Printer α) (weight : Bool) : Step α → Sheet
  | .reset => blank false
  | .page _ _ => blank weight
  | .text content look extent => ofText weight content look extent
  | .row cells justify extent => ofRow printer.resolver weight cells justify extent
  | .divider border extent => ofDivider weight border extent
  | .space amount => ofSpace weight amount
  | .picture source align _ _ extent => ofPicture printer weight source align extent
  | .symbol data size align _ _ => ofSymbol printer weight data size align
  | .sourceless _ => blank weight

end Sheet

end Receipt
