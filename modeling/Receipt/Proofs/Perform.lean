import Receipt.Proofs.Mirror

/-!
# Each step prints its sheet

`prints_perform`: from registers that mirror the printer, whatever the printer, a step of a plan
leaves exactly its `Sheet` on the paper, and the registers mirror the printer again. There is one
lemma for each kind of step. A row goes part by part; its parts find the printer left-aligned and in
the plain size, and leave it so.
-/

namespace Receipt

namespace Step

variable {α : Type}

/-- The size that a step asks for is one that a printer can be set to. -/
def Printable : Step α → Prop
  | .text _ look _ => look.size.Printable
  | _ => True

end Step

namespace Registers

theorem weight_after (registers : Registers) (align : Alignment) (size : CharSize)
    (bold : Option Bool) :
    (registers.after align size bold).weight = bold.getD registers.weight := by
  cases bold <;> rfl

/-- The registers that a row prints with. -/
def InRow (registers : Registers) : Prop :=
  registers.align = some .left ∧ registers.size = some .normal

theorem inRow_after (registers : Registers) (bold : Option Bool) :
    (registers.after .left .normal bold).InRow := ⟨rfl, rfl⟩

end Registers

namespace Prints

variable {protocol : Protocol} {device : Device} {registers : Registers}

/-! ### Lines and parts of lines -/

theorem record_lineCommands (protocol : Protocol) (device : Device) (line : String) :
    device.record protocol (Printer.lineCommands line) = Sheet.line device.face line := by
  unfold Printer.lineCommands Sheet.line Sheet.part
  split
  · simp [Device.record, Device.imprints]
  · simp [Device.record, Device.imprints]

theorem record_flatMap_lineCommands (protocol : Protocol) (device : Device) (lines : List String) :
    device.record protocol (lines.flatMap Printer.lineCommands) =
      lines.flatMap (Sheet.line device.face) := by
  induction lines with
  | nil => rfl
  | cons line lines ih =>
    rw [List.flatMap_cons, List.flatMap_cons, Device.record_append, Device.after_lineCommands,
      record_lineCommands, ih]

theorem after_lineFeed (device : Device) (lines : Int) :
    device.after protocol [.lineFeed lines] = device := by
  simp [Device.obey]

theorem record_lineFeed (protocol : Protocol) (device : Device) (lines : Int) :
    device.record protocol [.lineFeed lines] = List.replicate lines.toNat .lineEnd := by
  simp [Device.record, Device.imprints]

theorem after_part (device : Device) (part : String) :
    device.after protocol (if part.isEmpty then [] else [Command.text part]) = device := by
  split
  · rfl
  · simp [Device.obey]

theorem record_part (protocol : Protocol) (device : Device) (part : String) :
    device.record protocol (if part.isEmpty then [] else [Command.text part]) =
      Sheet.part device.face part := by
  unfold Sheet.part
  split
  · rfl
  · simp [Device.record, Device.imprints]

/-- A part of a line is printed in the face in force. -/
theorem part (mirrors : Mirrors registers device) (part : String) :
    Prints protocol device
      (.send registers (if part.isEmpty then [] else [Command.text part]))
      ⟨Sheet.part device.face part, registers.weight⟩ := by
  rw [← record_part protocol]
  exact Prints.send mirrors (after_part device part)

/-- Lines are printed in the face in force. -/
theorem lines (mirrors : Mirrors registers device) (lines : List String) :
    Prints protocol device (.send registers (lines.flatMap Printer.lineCommands))
      ⟨lines.flatMap (Sheet.line device.face), registers.weight⟩ := by
  rw [← record_flatMap_lineCommands protocol]
  exact Prints.send mirrors (Device.after_flatMap_lineCommands lines)

theorem line (mirrors : Mirrors registers device) (line : String) :
    Prints protocol device (.send registers (Printer.lineCommands line))
      ⟨Sheet.line device.face line, registers.weight⟩ := by
  rw [← record_lineCommands protocol]
  exact Prints.send mirrors (Device.after_lineCommands line)

theorem lineFeed (mirrors : Mirrors registers device) (lines : Int) :
    Prints protocol device (.send registers [.lineFeed lines])
      ⟨List.replicate lines.toNat .lineEnd, registers.weight⟩ := by
  rw [← record_lineFeed protocol device]
  exact Prints.send mirrors (after_lineFeed device lines)

/-! ### Steps -/

variable {α : Type} [Scalar α]

/-- A fault that ends a step before anything is sent. -/
theorem withNumber {number : Except NumberFault Int} {next : Int → Printing}
    {sheet : Int → Sheet} (mirrors : Mirrors registers device)
    (later : ∀ n, Prints protocol device (next n) (sheet n)) :
    Prints protocol device (.withNumber registers number next)
      (.withNumber registers.weight number sheet) := by
  cases number with
  | error fault => exact failed mirrors _
  | ok n => exact later n

theorem printText (mirrors : Mirrors registers device) (content : String) {look : TextLook α}
    (printable : look.size.Printable) (extent : Extent α) :
    Prints protocol device (Printer.printText registers content look extent)
      (.ofText registers.weight content look extent) := by
  unfold Printer.printText Sheet.ofText
  split
  · exact line mirrors ""
  · cases Printer.columns extent look.size with
    | error fault => exact failed mirrors fault
    | ok columns =>
      refine set_andThen mirrors printable ?_
      have behind := Mirrors.after registers device look.align printable (some look.bold)
      have weight := registers.weight_after look.align look.size (some look.bold)
      have printed : Prints protocol _ _ _ := lines behind (Text.wrapText content columns)
      rw [weight] at printed
      exact printed

/-- A part of a row is printed in its own weight when it shows something, and else in the weight in
force. -/
theorem printSegment (mirrors : Mirrors registers device) (inRow : registers.InRow)
    (segment : Segment) :
    let own := if Text.isBlankText segment.text.toList then registers.weight else segment.bold
    Prints protocol device (Printer.printSegment registers segment)
      ⟨Sheet.part ⟨.left, .normal, own⟩ segment.text, own⟩ := by
  unfold Printer.printSegment
  by_cases empty : Text.isBlankText segment.text.toList
  · simp only [empty, if_true]
    rw [← mirrors.face_eq inRow.1 inRow.2]
    exact part mirrors segment.text
  · simp only [empty, if_false, Bool.false_eq_true]
    refine set_andThen mirrors CharSize.printable_normal ?_
    exact part (Mirrors.after registers device .left CharSize.printable_normal
      (some segment.bold)) segment.text

theorem fault_printSegment (registers : Registers) (segment : Segment) :
    (Printer.printSegment registers segment).fault = none := by
  unfold Printer.printSegment
  simp only
  split
  · rfl
  · rfl

theorem inRow_printSegment (inRow : registers.InRow) (segment : Segment) :
    (Printer.printSegment registers segment).registers.InRow := by
  unfold Printer.printSegment
  simp only
  split
  · exact inRow
  · exact registers.inRow_after _

theorem fault_printSegments (registers : Registers) (segments : List Segment) :
    (Printer.printSegments registers segments).fault = none := by
  induction segments generalizing registers with
  | nil => rfl
  | cons segment segments ih =>
    rw [Printer.printSegments, Printing.fault_andThen (fault_printSegment registers segment)]
    exact ih _

/-- The parts of a row, one after the other. -/
theorem printSegments (mirrors : Mirrors registers device) (inRow : registers.InRow)
    (segments : List Segment) :
    Prints protocol device (Printer.printSegments registers segments)
      (.ofSegments registers.weight segments) := by
  induction segments generalizing registers device with
  | nil => exact done mirrors
  | cons segment segments ih =>
    have first : Prints protocol _ _ _ := printSegment mirrors inRow segment
    have rest := ih first.mirrors (inRow_printSegment inRow segment)
    rw [first.weight] at rest
    exact first.andThen (fault_printSegment registers segment)
      (fun registers => Printer.printSegments registers segments) rest

theorem printRow (printer : Printer α) (mirrors : Mirrors registers device)
    (cells : List (Cell α)) (justify : Value) (extent : Extent α) :
    Prints protocol device (printer.printRow registers cells justify extent)
      (.ofRow printer.resolver registers.weight cells justify extent) := by
  unfold Printer.printRow Sheet.ofRow
  refine withNumber mirrors fun width => ?_
  cases Row.segments printer.resolver cells width justify with
  | error fault => exact failed mirrors _
  | ok segments =>
    refine set_andThen mirrors CharSize.printable_normal ?_
    have parts : Prints protocol _ _ _ := printSegments
      (Mirrors.after registers device .left CharSize.printable_normal none)
      (registers.inRow_after none) segments
    rw [registers.weight_after, Option.getD_none] at parts
    have ended : Prints protocol _ _ _ := lineFeed parts.mirrors 1
    rw [parts.weight] at ended
    exact parts.andThen (fault_printSegments _ segments)
      (fun registers => .send registers [.lineFeed 1]) ended

theorem printDivider (mirrors : Mirrors registers device) (border : Border)
    (extent : Extent α) :
    Prints protocol device (Printer.printDivider registers border extent)
      (.ofDivider registers.weight border extent) := by
  unfold Printer.printDivider Sheet.ofDivider
  refine set_andThen mirrors CharSize.printable_normal ?_
  have behind := Mirrors.after registers device .left CharSize.printable_normal none
  have kept := registers.weight_after .left .normal none
  have divided : Prints protocol _ (.withNumber _ (Scalar.truncate extent.width) _) _ :=
    withNumber behind fun width => line behind (dividerText border width)
  rw [kept] at divided
  exact divided

theorem printSpace (mirrors : Mirrors registers device) (amount : α) :
    Prints protocol device (Printer.printSpace registers amount)
      (.ofSpace registers.weight amount) := by
  unfold Printer.printSpace Sheet.ofSpace
  refine withNumber mirrors fun lines => ?_
  by_cases positive : 0 < lines
  · rw [if_pos positive]
    exact lineFeed mirrors lines
  · rw [if_neg positive, Int.toNat_of_nonpos (by omega)]
    exact done mirrors

/-- What is heard of an accepted bitmap is its own size, up to sixteen bits. -/
theorem imprints_raster {bitmap : Bitmap} {bytes : List UInt8}
    (accepted : protocol.encode (Sheet.rasterCommand bitmap) = .ok bytes) (device : Device) :
    device.imprints (protocol.order (Sheet.rasterCommand bitmap)) =
      [.raster ((bitmap.width + 7) / 8 % 65536) (bitmap.height % 65536) bitmap.pack
        device.face.align] := by
  have across :
      (((bitmap.width : Int) + 7) / 8 % 65536).toNat = (bitmap.width + 7) / 8 % 65536 := by omega
  have down : ((bitmap.height : Int) % 65536).toNat = bitmap.height % 65536 := by omega
  unfold Sheet.rasterCommand at accepted ⊢
  rw [protocol.order_raster accepted, across, down]
  rfl

/-- A bitmap is printed in the alignment in force, when it is accepted. -/
theorem raster (mirrors : Mirrors registers device) (bitmap : Bitmap) :
    Prints protocol device
      (match protocol.encode (Sheet.rasterCommand bitmap) with
        | .error fault => .failed registers (.command fault)
        | .ok _ => .send registers [Sheet.rasterCommand bitmap])
      (match protocol.encode (Sheet.rasterCommand bitmap) with
        | .error _ => .blank registers.weight
        | .ok _ =>
          ⟨[.raster ((bitmap.width + 7) / 8 % 65536) (bitmap.height % 65536) bitmap.pack
            device.face.align], registers.weight⟩) := by
  cases accepted : protocol.encode (Sheet.rasterCommand bitmap) with
  | error fault => exact failed mirrors (.command fault)
  | ok bytes =>
    have still : device.after protocol [Sheet.rasterCommand bitmap] = device := by
      simp only [Sheet.rasterCommand] at accepted ⊢
      simp [protocol.order_raster accepted, Device.obey]
    have sent : Prints protocol _ _ _ := send mirrors still
    simp only [Device.record, imprints_raster accepted, List.append_nil] at sent
    exact sent

theorem printPicture (printer : Printer α) (mirrors : Mirrors registers device)
    (source : Value) (align : Alignment) (path : String) (extent : Extent α) :
    Prints printer.protocol device
      (printer.printPicture registers source align path extent)
      (.ofPicture printer registers.weight source align extent) := by
  unfold Printer.printPicture Sheet.ofPicture
  refine withNumber mirrors fun width => ?_
  cases rasterize source (width * printer.dotsPerCharacter) true with
  | error fault =>
    cases fault with
    | badHeader | tooLarge => exact failed mirrors _
    | undecodable | badText | badSamples | unknown _ | empty => exact note mirrors path _
  | ok bitmap =>
    refine set_andThen mirrors mirrors.printable_sizeOrNormal ?_
    have behind := Mirrors.after registers device align mirrors.printable_sizeOrNormal none
    have sent : Prints printer.protocol _ _ _ := raster behind bitmap
    rw [registers.weight_after] at sent
    exact sent

omit [Scalar α] in
theorem printSymbol (printer : Printer α) (mirrors : Mirrors registers device)
    (data : String) (size : Int) (align : Alignment) (path : String) :
    Prints printer.protocol device
      (printer.printSymbol registers data size align path)
      (.ofSymbol printer registers.weight data size align) := by
  unfold Printer.printSymbol Sheet.ofSymbol
  cases accepted : printer.protocol.encode (.symbol data size) with
  | error fault =>
    cases fault with
    | unsupported _ _ _ => exact note mirrors path _
    | bitmapSize _ _ _ _ | field | payload _ => exact note mirrors path _
  | ok bytes =>
    refine set_andThen mirrors mirrors.printable_sizeOrNormal ?_
    have behind := Mirrors.after registers device align mirrors.printable_sizeOrNormal none
    have kept := registers.weight_after align registers.sizeOrNormal none
    have heard := printer.protocol.order_symbol accepted
    have still : ∀ device : Device,
        device.after printer.protocol [.symbol data size] = device := by
      intro device
      simp [heard, Device.obey]
    have sent : Prints printer.protocol _ _ _ := send behind (still _)
    rw [kept] at sent
    simp only [Device.record, heard, Device.imprints, List.append_nil] at sent
    exact sent

theorem reset (printer : Printer α) (registers : Registers) (device : Device) :
    Prints printer.protocol device (printer.perform registers .reset) (.blank false) := by
  have sent : (printer.perform registers .reset).commands =
      .init :: (printer.lineSpacing.toList.map fun dots => .lineSpacing (some dots)) :=
    Printing.commands_send ..
  refine ⟨?_, Mirrors.unknown _, rfl⟩
  rw [sent]
  cases printer.lineSpacing with
  | none => rfl
  | some dots => simp [Device.record, Device.imprints, Sheet.blank]

end Prints

open Prints

variable {α : Type} [Scalar α]

/-- Each step prints its sheet, whatever the printer. -/
theorem prints_perform (printer : Printer α) {registers : Registers} {device : Device}
    (mirrors : Mirrors registers device) {step : Step α} (printable : step.Printable) :
    Prints printer.protocol device (printer.perform registers step)
      (.ofStep printer registers.weight step) := by
  cases step with
  | reset => exact Prints.reset printer registers device
  | page height wraps => exact Prints.done mirrors
  | text content look extent => exact Prints.printText mirrors content printable extent
  | row cells justify extent => exact Prints.printRow printer mirrors cells justify extent
  | divider border extent => exact Prints.printDivider mirrors border extent
  | space amount => exact Prints.printSpace mirrors amount
  | picture source align path framed extent =>
    exact Prints.printPicture printer mirrors source align path extent
  | symbol data size align path extent =>
    exact Prints.printSymbol printer mirrors data size align path
  | sourceless path => exact Prints.note mirrors path _

end Receipt
