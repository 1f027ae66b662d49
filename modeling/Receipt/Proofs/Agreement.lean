import Receipt.Proofs.Faithful

/-!
# Two protocols, one receipt

One protocol prints symbols and the other leaves them out, and setting the registers for a symbol
sends commands that the other run never sends. The two runs agree nevertheless: a sheet knows no
registers, only the weight in force, and a symbol leaves that alone. `record_escBematech` is the
statement for a whole tree; the two printers may even come out of their resets differently.
-/

namespace Receipt

namespace Imprint

/-- Whether a piece of a receipt is a symbol. -/
def isSymbol : Imprint → Bool
  | symbol _ _ => true
  | text _ _ | lineEnd | raster _ _ _ _ => false

end Imprint

namespace Sheet

/-- The sheet with its symbols left out. -/
def withoutSymbols (sheet : Sheet) : Sheet :=
  ⟨sheet.imprints.filter fun imprint => !imprint.isSymbol, sheet.weight⟩

theorem withoutSymbols_eq_self {sheet : Sheet}
    (none : ∀ imprint ∈ sheet.imprints, imprint.isSymbol = false) :
    sheet.withoutSymbols = sheet := by
  have kept : sheet.imprints.filter (fun imprint => !imprint.isSymbol) = sheet.imprints :=
    List.filter_eq_self.2 fun imprint member => by simp [none imprint member]
  unfold withoutSymbols
  rw [kept]

variable {α : Type} [Scalar α]

theorem isSymbol_ofRow {resolver : Resolver α} {weight : Bool} {cells : List (Cell α)}
    {justify : Value} {extent : Extent α} {imprint : Imprint}
    (member : imprint ∈ (ofRow resolver weight cells justify extent).imprints) :
    imprint.isSymbol = false := by
  unfold ofRow at member
  rcases withNumber_cases weight (Scalar.truncate extent.width) _ with blank | ⟨width, _, given⟩
  · rw [blank] at member
    cases member
  · rw [given] at member
    split at member
    · cases member
    · rcases List.mem_append.1 member with shown | ended
      · obtain ⟨segment, _, bold, rfl⟩ := mem_ofSegments shown
        rfl
      · rw [List.mem_singleton.1 ended]
        rfl

/-- Only a symbol leaves a symbol. -/
theorem isSymbol_ofStep {printer : Printer α} {weight : Bool} {step : Step α}
    (noSymbol : ∀ data size align path extent, step ≠ .symbol data size align path extent) :
    ∀ imprint ∈ (ofStep printer weight step).imprints, imprint.isSymbol = false := by
  intro imprint member
  cases step with
  | reset => cases member
  | page height wraps => cases member
  | text content look extent =>
    rcases mem_ofText member with rfl | ⟨bytes, rfl⟩
    · rfl
    · rfl
  | row cells justify extent => exact isSymbol_ofRow member
  | divider border extent =>
    rcases mem_ofDivider member with rfl | ⟨bytes, rfl⟩
    · rfl
    · rfl
  | space amount =>
    rw [mem_ofSpace member]
    rfl
  | picture source align path framed extent =>
    obtain ⟨rowBytes, rows, data, rfl⟩ := mem_ofPicture member
    rfl
  | symbol data size align path extent => exact absurd rfl (noSymbol data size align path extent)
  | sourceless path => cases member

end Sheet

variable {α : Type} [Scalar α]

/-- A picture that is printed without a fault has been accepted. -/
theorem Printer.accepted_of_fault_printPicture {printer : Printer α} {registers : Registers}
    {source : Value} {align : Alignment} {path : String} {extent : Extent α} {width : Int}
    {bitmap : Bitmap} (known : Scalar.truncate extent.width = .ok width)
    (made : rasterize source (width * printer.dotsPerCharacter) true = .ok bitmap)
    (ended : (printer.printPicture registers source align path extent).fault = none) :
    ∃ bytes, printer.protocol.encode (Sheet.rasterCommand bitmap) = .ok bytes := by
  unfold Printer.printPicture Printing.withNumber at ended
  rw [known] at ended
  simp only [made] at ended
  rw [Printing.fault_andThen rfl] at ended
  unfold Sheet.rasterCommand
  cases accepted : printer.protocol.encode (.raster bitmap.pack bitmap.width bitmap.height) with
  | error fault =>
    simp only [accepted] at ended
    cases ended
  | ok bytes => exact ⟨bytes, rfl⟩

namespace Sheet

/-- The sheet of a picture is the same for every protocol that accepts it. -/
theorem ofPicture_eq {first second : Printer α} {registers others : Registers} {weight : Bool}
    {source : Value} {align : Alignment} {path : String} {extent : Extent α}
    (firstEnds : (first.printPicture registers source align path extent).fault = none)
    (secondEnds : (second.printPicture others source align path extent).fault = none)
    (dots : first.dotsPerCharacter = second.dotsPerCharacter) :
    ofPicture first weight source align extent = ofPicture second weight source align extent := by
  unfold ofPicture withNumber
  cases known : Scalar.truncate extent.width with
  | error fault => rfl
  | ok width =>
    simp only
    rw [dots]
    cases made : rasterize source (width * second.dotsPerCharacter) true with
    | error fault => rfl
    | ok bitmap =>
      have same : rasterize source (width * first.dotsPerCharacter) true = .ok bitmap := by
        rw [dots, made]
      obtain ⟨_, accepted⟩ := Printer.accepted_of_fault_printPicture known same firstEnds
      obtain ⟨_, taken⟩ := Printer.accepted_of_fault_printPicture known made secondEnds
      simp only [accepted, taken]

/-- A step that both protocols print leaves the same on the paper, but for symbols. -/
theorem ofStep_escBematech (options : Options) {registers others : Registers} (weight : Bool)
    {step : Step α}
    (firstEnds : ((options.printer .escPos).perform registers step).fault = none)
    (secondEnds : ((options.printer .escBematech).perform others step).fault = none) :
    ofStep (options.printer .escBematech) weight step =
      (ofStep (options.printer .escPos) weight step).withoutSymbols := by
  cases step with
  | picture source align path framed extent =>
    -- One protocol refuses bitmaps that the other frames; here neither run has met a fault.
    rw [withoutSymbols_eq_self (isSymbol_ofStep (by intros; nofun))]
    exact ofPicture_eq secondEnds firstEnds rfl
  | symbol data size align path extent =>
    show blank weight = (ofSymbol _ weight data size align).withoutSymbols
    unfold ofSymbol
    split
    · rfl
    · rfl
  | reset | page _ _ | text _ _ _ | row _ _ _ | divider _ _ | space _ | sourceless _ =>
    exact (withoutSymbols_eq_self (isSymbol_ofStep (by intros; nofun))).symm

/-- Plans that both protocols print to their ends leave the same on the paper, but for symbols. -/
theorem ofSteps_escBematech (options : Options) {registers others : Registers} (weight : Bool)
    {steps : List (Step α)}
    (firstEnds : ((options.printer .escPos).performAll registers steps).fault = none)
    (secondEnds : ((options.printer .escBematech).performAll others steps).fault = none) :
    ofSteps (options.printer .escBematech) weight steps =
      (ofSteps (options.printer .escPos) weight steps).withoutSymbols := by
  induction steps generalizing registers others weight with
  | nil => rfl
  | cons step steps ih =>
    obtain ⟨firstStep, firstRest⟩ := Printer.fault_performAll_cons firstEnds
    obtain ⟨secondStep, secondRest⟩ := Printer.fault_performAll_cons secondEnds
    unfold ofSteps
    simp only
    rw [ofStep_escBematech options weight firstStep secondStep, ih _ firstRest secondRest]
    simp [withoutSymbols]

end Sheet

/-- A tree that is printed to its end leaves the sheets of its plan on the paper. -/
theorem record_printTree {options : Options} {protocol : Protocol} {pageWidth : α} {root : Node}
    (device : Device) (ended : (printTree options protocol pageWidth root).fault = none) :
    device.record protocol (printTree options protocol pageWidth root).commands =
      (Sheet.ofSteps (options.printer protocol) false
        (options.cellScheme.trace (.start pageWidth) root).plain.steps).imprints := by
  have printable : ∀ step ∈ (options.cellScheme.trace (.start pageWidth) root).plain.steps,
      step.Printable := by
    intro step member
    obtain ⟨marked, inside, rfl⟩ := List.mem_map.1 member
    exact printable_of_placed (Scheme.placed_trace rfl root (.start pageWidth) marked inside)
  rw [printTree_eq] at ended ⊢
  rw [Printer.commands_print]
  exact (prints_performAll (options.printer protocol) (Mirrors.unknown device) printable
    (Printer.fault_performAll_of_print ended)).record

/-- What one protocol prints of a tree is what the other prints but for the symbols, when both get
to the end, on any two printers. -/
theorem record_escBematech {options : Options} {pageWidth : α} {root : Node}
    (posEnds : (printTree options .escPos pageWidth root).fault = none)
    (bematechEnds : (printTree options .escBematech pageWidth root).fault = none)
    (pos bematech : Device) :
    bematech.record .escBematech (printTree options .escBematech pageWidth root).commands =
      (pos.record .escPos (printTree options .escPos pageWidth root).commands).filter
        fun imprint => !imprint.isSymbol := by
  rw [record_printTree pos posEnds, record_printTree bematech bematechEnds]
  rw [printTree_eq] at posEnds bematechEnds
  have sheets := Sheet.ofSteps_escBematech options false
    (Printer.fault_performAll_of_print posEnds) (Printer.fault_performAll_of_print bematechEnds)
  exact congrArg Sheet.imprints sheets

/-- A receipt with a symbol between two texts. -/
def symbolReceipt : Node :=
  ⟨"Document", [], none,
    [⟨"Page", [], none,
      [⟨"Text", [("children", .text "Total")], none, []⟩,
        ⟨"Image", [("qrData", .text "42")], none, []⟩,
        ⟨"Text", [("children", .text "Thanks")], some [("fontWeight", .text "bold")], []⟩]⟩]⟩

theorem record_escBematech_symbolReceipt :
    let options : Options := ⟨.standard, none⟩
    (printTree options .escPos (48 : Rat) symbolReceipt).fault = none ∧
      (printTree options .escBematech (48 : Rat) symbolReceipt).fault = none ∧
      Device.steady.record .escBematech
          (printTree options .escBematech (48 : Rat) symbolReceipt).commands =
        (Device.steady.record .escPos
          (printTree options .escPos (48 : Rat) symbolReceipt).commands).filter
          fun imprint => !imprint.isSymbol :=
  ⟨by decide +kernel, by decide +kernel,
    record_escBematech (by decide +kernel) (by decide +kernel) .steady .steady⟩

end Receipt
