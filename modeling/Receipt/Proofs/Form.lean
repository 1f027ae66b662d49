import Receipt.Proofs.Delivery

/-!
# The printed form

What can be told of a receipt by looking at it is its printed form: the characters of each line with
their alignment and size, line ends, pictures and symbols with their alignment. The weight can be
told of the lines of a text and of the parts of a row that show something, but not of a divider or of
blanks. `Device.form` reads the form off the deliveries of a run, on a printer at the other end.

`Step.shown` is what a single step shows, and no register, no printer and no step before it enters
there. `form_of_ended`: the form of a tree is what the steps of its plan show.
-/

namespace Receipt

/-- A piece of the printed form. Text is in no weight where the weight cannot be told. -/
inductive Shown where
  | text (bytes : List UInt8) (align : Alignment) (size : CharSize) (bold : Option Bool)
  | lineEnd
  | raster (rowBytes rows : Nat) (data : List UInt8) (align : Alignment)
  | symbol (functions : List UInt8) (align : Alignment)
deriving DecidableEq, Repr

namespace Imprint

/-- What an imprint shows, with its weight or without. -/
def shown (told : Bool) : Imprint → Shown
  | text bytes face => .text bytes face.align face.size (if told then some face.bold else none)
  | lineEnd => .lineEnd
  | raster rowBytes rows data align => .raster rowBytes rows data align
  | symbol functions align => .symbol functions align

end Imprint

namespace Command

/-- Whether a command prints no blank text. -/
def showsWeight : Command → Bool
  | text content => !Text.isBlankText content.toList
  | _ => true

end Command

namespace Step

/-- Whether the weight of what a command of a step prints can be told. -/
def tellsWeight {α : Type} : Step α → Command → Bool
  | .row _ _ _ => Command.showsWeight
  | .divider _ _ => fun _ => false
  | .reset | .page _ _ | .text _ _ _ | .space _ | .picture _ _ _ _ _ | .symbol _ _ _ _ _
  | .sourceless _ => fun _ => true

end Step

namespace Device

/-- What commands show, when it can be told of some whether they print bold. -/
def shown (protocol : Protocol) (tells : Command → Bool) (device : Device) :
    List Command → List Shown
  | [] => []
  | command :: commands =>
    (device.imprints (protocol.order command)).map (·.shown (tells command)) ++
      shown protocol tells (device.obey (protocol.order command)) commands

/-- The printed form of deliveries. -/
def form {σ α : Type} (protocol : Protocol) (device : Device) : List (Delivery σ α) → List Shown
  | [] => []
  | delivery :: deliveries =>
    device.shown protocol delivery.step.tellsWeight delivery.commands ++
      form protocol (device.after protocol delivery.commands) deliveries

variable {protocol : Protocol} {tells : Command → Bool} {device : Device}

theorem shown_append (first second : List Command) :
    device.shown protocol tells (first ++ second) =
      device.shown protocol tells first ++
        (device.after protocol first).shown protocol tells second := by
  induction first generalizing device with
  | nil => rfl
  | cons command commands ih =>
    simp only [List.cons_append, shown, after_cons, ih, List.append_assoc]

/-- What is shown is what is on the paper, where the same can be told of all of it. -/
theorem shown_const (protocol : Protocol) (told : Bool) (device : Device)
    (commands : List Command) :
    device.shown protocol (fun _ => told) commands =
      (device.record protocol commands).map (·.shown told) := by
  induction commands generalizing device with
  | nil => rfl
  | cons command commands ih => rw [shown, record, List.map_append, ih]

/-- Commands that leave nothing on the paper show nothing. -/
theorem shown_eq_nil {commands : List Command} (silent : device.record protocol commands = []) :
    device.shown protocol tells commands = [] := by
  induction commands generalizing device with
  | nil => rfl
  | cons command commands ih =>
    rw [record, List.append_eq_nil_iff] at silent
    rw [shown, silent.1, ih silent.2]
    rfl

end Device

/-! ## What a step shows -/

namespace Segment

/-- What a part of a row shows. -/
def shown (segment : Segment) : List Shown :=
  if segment.text.isEmpty then []
  else
    [.text (Codepage.encode segment.text.toList) .left .normal
      (if Text.isBlankText segment.text.toList then none else some segment.bold)]

end Segment

namespace Step

variable {α : Type} [Scalar α]

/-- What a step shows. -/
def shown (printer : Printer α) : Step α → List Shown
  | .row cells justify extent =>
    match Scalar.truncate extent.width with
    | .error _ => []
    | .ok width =>
      match Row.segments printer.resolver cells width justify with
      | .error _ => []
      | .ok segments => segments.flatMap (·.shown) ++ [.lineEnd]
  | .divider border extent =>
    (Sheet.ofDivider false border extent).imprints.map (·.shown false)
  | step => (Sheet.ofStep printer false step).imprints.map (·.shown true)

end Step

namespace Sheet

variable {α : Type} [Scalar α]

/-- The weight in force before a divider cannot be told from it. -/
theorem shown_ofDivider (weight : Bool) (border : Border) (extent : Extent α) :
    (ofDivider weight border extent).imprints.map (·.shown false) =
      (ofDivider false border extent).imprints.map (·.shown false) := by
  unfold ofDivider
  cases Scalar.truncate extent.width with
  | error fault => rfl
  | ok width =>
    unfold withNumber line part
    simp only
    split
    · rfl
    · rfl

theorem imprints_ofText (weight : Bool) (content : String) (look : TextLook α)
    (extent : Extent α) :
    (ofText weight content look extent).imprints =
      (ofText false content look extent).imprints := by
  unfold ofText
  split
  · rfl
  · cases Printer.columns extent look.size with
    | error fault => rfl
    | ok columns => rfl

theorem imprints_ofPicture (printer : Printer α) (weight : Bool) (source : Value)
    (align : Alignment) (extent : Extent α) :
    (ofPicture printer weight source align extent).imprints =
      (ofPicture printer false source align extent).imprints := by
  unfold ofPicture withNumber
  cases Scalar.truncate extent.width with
  | error fault => rfl
  | ok width =>
    simp only
    split
    · rfl
    · split
      · rfl
      · rfl

omit [Scalar α] in
theorem imprints_ofSymbol (printer : Printer α) (weight : Bool) (data : String) (size : Int)
    (align : Alignment) :
    (ofSymbol printer weight data size align).imprints =
      (ofSymbol printer false data size align).imprints := by
  unfold ofSymbol
  split
  · rfl
  · rfl

theorem imprints_ofSpace (weight : Bool) (amount : α) :
    (ofSpace weight amount).imprints = (ofSpace false amount).imprints := by
  unfold ofSpace
  cases Scalar.truncate amount with
  | error fault => rfl
  | ok lines => rfl

end Sheet

namespace Printer

variable {protocol : Protocol} {device : Device} {registers : Registers}

theorem shown_settings (tells : Command → Bool) (registers : Registers) (device : Device)
    (align : Alignment) {size : CharSize} (printable : size.Printable) (bold : Option Bool) :
    device.shown protocol tells (registers.settings align size bold) = [] :=
  Device.shown_eq_nil (Mirrors.record_settings registers device align printable bold)

/-- A part of a row shows its text, and its weight when it is no blank. -/
theorem shown_printSegment (mirrors : Mirrors registers device) (inRow : registers.InRow)
    (segment : Segment) :
    device.shown protocol Command.showsWeight (printSegment registers segment).commands =
      segment.shown := by
  have part (device : Device) (bold : Bool) (face : device.face = ⟨.left, .normal, bold⟩)
      (own : Text.isBlankText segment.text.toList ∨ bold = segment.bold) :
      device.shown protocol Command.showsWeight
        (if segment.text.isEmpty then [] else [Command.text segment.text]) = segment.shown := by
    unfold Segment.shown
    split
    · rfl
    · simp only [Device.shown, protocol.order_text, Device.imprints, face, List.append_nil,
        List.map_cons, List.map_nil, Imprint.shown, Command.showsWeight]
      by_cases blank : Text.isBlankText segment.text.toList
      · simp [blank]
      · have weight := own.resolve_left blank
        simp [blank, weight]
  unfold printSegment
  by_cases blank : Text.isBlankText segment.text.toList
  · simp only [blank, if_true]
    rw [Printing.commands_send]
    exact part device _ (mirrors.face_eq inRow.1 inRow.2) (Or.inl blank)
  · simp only [blank, if_false, Bool.false_eq_true]
    rw [Printing.commands_andThen rfl, Printing.set, Printing.commands_send,
      Printing.commands_send, Device.shown_append,
      shown_settings _ registers device _ CharSize.printable_normal,
      mirrors.after_settings _ CharSize.printable_normal]
    exact part _ segment.bold rfl (Or.inr rfl)

/-- The parts of a row, one behind the other. -/
theorem shown_printSegments (mirrors : Mirrors registers device) (inRow : registers.InRow)
    (segments : List Segment) :
    device.shown protocol Command.showsWeight (printSegments registers segments).commands =
      segments.flatMap (·.shown) := by
  induction segments generalizing registers device with
  | nil => rfl
  | cons segment segments ih =>
    have first : Prints protocol device _ _ := Prints.printSegment mirrors inRow segment
    have behind := first.mirrors
    rw [printSegments, Printing.commands_andThen (Prints.fault_printSegment registers segment),
      Device.shown_append, shown_printSegment mirrors inRow,
      ih behind (Prints.inRow_printSegment inRow segment), List.flatMap_cons]

variable {α : Type} [Scalar α]

theorem shown_printRow (printer : Printer α) (mirrors : Mirrors registers device)
    (cells : List (Cell α)) (justify : Value) (extent : Extent α) :
    device.shown protocol Command.showsWeight
        (printer.printRow registers cells justify extent).commands =
      (Step.row cells justify extent).shown printer := by
  unfold printRow Printing.withNumber
  simp only [Step.shown]
  cases Scalar.truncate extent.width with
  | error fault => rfl
  | ok width =>
    simp only
    cases Row.segments printer.resolver cells width justify with
    | error fault => rfl
    | ok segments =>
      have behind := Mirrors.after registers device .left CharSize.printable_normal none
      have inRow := registers.inRow_after none
      have shown : Device.shown protocol _ _ _ = _ := shown_printSegments behind inRow segments
      simp only
      rw [Printing.commands_andThen rfl, Printing.commands_andThen
        (Prints.fault_printSegments _ segments), Device.shown_append, Device.shown_append,
        Printing.set, Printing.commands_send,
        shown_settings _ registers device _ CharSize.printable_normal,
        mirrors.after_settings _ CharSize.printable_normal, List.nil_append, Printing.commands_send]
      simp only [Printing.send, shown]
      simp [Device.shown, Device.imprints, Imprint.shown]

/-- A step shows the same in whatever state the printer is. -/
theorem shown_perform (printer : Printer α) (mirrors : Mirrors registers device) {step : Step α}
    (printable : step.Printable) :
    device.shown printer.protocol step.tellsWeight (printer.perform registers step).commands =
      step.shown printer := by
  have record := (prints_perform printer mirrors printable).record
  cases step with
  | row cells justify extent => exact shown_printRow printer mirrors cells justify extent
  | divider border extent =>
    rw [Step.tellsWeight, Device.shown_const, record]
    exact Sheet.shown_ofDivider ..
  | text content look extent =>
    rw [Step.tellsWeight, Device.shown_const, record]
    exact congrArg _ (Sheet.imprints_ofText ..)
  | picture source align path framed extent =>
    rw [Step.tellsWeight, Device.shown_const, record]
    exact congrArg _ (Sheet.imprints_ofPicture ..)
  | symbol data size align path extent =>
    rw [Step.tellsWeight, Device.shown_const, record]
    exact congrArg _ (Sheet.imprints_ofSymbol ..)
  | space amount =>
    rw [Step.tellsWeight, Device.shown_const, record]
    exact congrArg _ (Sheet.imprints_ofSpace ..)
  | reset | page _ _ | sourceless _ =>
    rw [Step.tellsWeight, Device.shown_const, record]
    rfl

/-- The form of a plan that is carried out to its end is what its steps show. -/
theorem form_deliveries {σ : Type} (printer : Printer α) (mirrors : Mirrors registers device)
    {steps : List (σ × Step α)} (printable : ∀ marked ∈ steps, marked.2.Printable)
    (ended : (printer.performAll registers (steps.map (·.2))).fault = none) :
    device.form printer.protocol (printer.deliveries registers steps) =
      (steps.map (·.2)).flatMap (Step.shown printer) := by
  induction steps generalizing registers device with
  | nil => rfl
  | cons marked steps ih =>
    obtain ⟨mark, step⟩ := marked
    have own := printable _ (List.mem_cons_self ..)
    obtain ⟨goesOn, later⟩ := Printer.fault_performAll_cons ended
    have behind := (prints_perform printer mirrors own).mirrors
    rw [deliveries]
    simp only [goesOn]
    rw [Device.form, shown_perform printer mirrors own,
      ih behind (fun marked inside => printable _ (List.mem_cons_of_mem _ inside)) later,
      List.map_cons, List.flatMap_cons]

end Printer

variable {α : Type} [Scalar α]

/-- The form of a tree that is printed to its end is what the steps of its plan show, on every
printer. -/
theorem form_of_ended {options : Options} {protocol : Protocol} {pageWidth : α} {root : Node}
    (device : Device) (ended : (printTree options protocol pageWidth root).fault = none) :
    device.form protocol (options.deliveries protocol pageWidth root) =
      ((options.cellScheme : Scheme α).tree [] (.start pageWidth) root).steps.flatMap
        (Step.shown (options.printer protocol)) := by
  have printable : ∀ marked ∈ (options.cellScheme.trace (.start pageWidth) root).steps,
      marked.2.Printable := fun marked inside =>
    printable_of_placed (Scheme.placed_trace rfl root (.start pageWidth) marked inside)
  rw [printTree_eq] at ended
  rw [← Scheme.plain_trace]
  exact Printer.form_deliveries (options.printer protocol) (Mirrors.unknown device) printable
    (Printer.fault_performAll_of_print ended)

end Receipt
