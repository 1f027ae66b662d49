import Receipt.Proofs.Alike
import Receipt.Proofs.Form

/-!
# Pages print one behind the other

Registers, anchors and paths all live on from one page to the next, so the second of two pages is
sent with other commands than on its own. Two printings are `Printing.Alike` when they end at the
same fault and leave out with the same messages; `alike_perform` says that a step is carried out alike
from all registers and under all paths, and `Step.shown` shows the same.

`printTree_append_pages`: a document with two lists of pages is printed to its end exactly when both
documents with one of them are; its printed form is then that of the one followed by that of the
other, and so are its messages.
-/

namespace Receipt

namespace Printing

/-- The messages of the notes, in order. -/
def messages (printing : Printing) : List String := printing.diagnostics.map (·.message)

/-- Two printings end alike and leave out with the same messages. -/
structure Alike (first second : Printing) : Prop where
  fault : first.fault = second.fault
  messages : first.messages = second.messages

theorem messages_send (registers : Registers) (commands : List Command) :
    (send registers commands).messages = [] := by
  have silent : (commands.map PrintEvent.sent).filterMap (·.diagnostic?) = [] := by
    rw [List.filterMap_map, List.filterMap_eq_nil_iff]
    intro command _
    rfl
  unfold messages diagnostics send
  rw [silent]
  rfl

theorem messages_andThen {first : Printing} (goesOn : first.fault = none)
    (next : Registers → Printing) :
    (first.andThen next).messages = first.messages ++ (next first.registers).messages := by
  unfold andThen messages diagnostics
  rw [goesOn]
  simp only [List.filterMap_append, List.map_append]

theorem andThen_assoc (first : Printing) (second third : Registers → Printing) :
    (first.andThen second).andThen third =
      first.andThen fun registers => (second registers).andThen third := by
  unfold andThen
  cases ended : first.fault with
  | some fault => simp only [ended]
  | none =>
    cases later : (second first.registers).fault with
    | some fault => simp only [later]
    | none => simp only [later, List.append_assoc]

namespace Alike

variable {registers others : Registers} {first second third : Printing}

theorem symm (alike : Alike first second) : Alike second first :=
  ⟨alike.fault.symm, alike.messages.symm⟩

theorem trans (before : Alike first second) (behind : Alike second third) : Alike first third :=
  ⟨before.fault.trans behind.fault, before.messages.trans behind.messages⟩

theorem done : Alike (.done registers) (.done others) := ⟨rfl, rfl⟩

theorem send (commands later : List Command) :
    Alike (.send registers commands) (.send others later) := by
  refine ⟨rfl, ?_⟩
  rw [messages_send, messages_send]

theorem note (path other message : String) :
    Alike (.note registers path message) (.note others other message) := ⟨rfl, rfl⟩

theorem failed (fault : PrintFault) : Alike (.failed registers fault) (.failed others fault) :=
  ⟨rfl, rfl⟩

theorem andThen {next later : Registers → Printing} (alike : Alike first second)
    (goesOn : ∀ registers others, Alike (next registers) (later others)) :
    Alike (first.andThen next) (second.andThen later) := by
  have sameFault := alike.fault
  cases ended : first.fault with
  | some fault =>
    rw [ended] at sameFault
    rw [andThen_of_fault ended, andThen_of_fault sameFault.symm]
    exact alike
  | none =>
    rw [ended] at sameFault
    have rest := goesOn first.registers second.registers
    refine ⟨?_, ?_⟩
    · rw [fault_andThen ended, fault_andThen sameFault.symm, rest.fault]
    · rw [messages_andThen ended, messages_andThen sameFault.symm, alike.messages, rest.messages]

/-- What says nothing in front changes nothing. -/
theorem silent_andThen {next : Registers → Printing} (goesOn : first.fault = none)
    (silent : first.messages = []) (later : Alike (next first.registers) second) :
    Alike (first.andThen next) second := by
  refine ⟨?_, ?_⟩
  · rw [fault_andThen goesOn, later.fault]
  · rw [messages_andThen goesOn, silent, List.nil_append, later.messages]

theorem set_andThen {align : Alignment} {size other : CharSize} {bold : Option Bool}
    {next later : Registers → Printing}
    (goesOn : ∀ registers others, Alike (next registers) (later others)) :
    Alike ((Printing.set registers align size bold).andThen next)
      ((Printing.set others align other bold).andThen later) :=
  (send _ _).andThen goesOn

theorem withNumber {number : Except NumberFault Int} {next later : Int → Printing}
    (goesOn : ∀ n, Alike (next n) (later n)) :
    Alike (.withNumber registers number next) (.withNumber others number later) := by
  cases number with
  | error fault => exact failed _
  | ok n => exact goesOn n

end Alike

end Printing

/-! ## A step is carried out alike from all registers -/

namespace Printer

open Printing

theorem alike_printSegments (segments : List Segment) (registers others : Registers) :
    Alike (printSegments registers segments) (printSegments others segments) := by
  induction segments generalizing registers others with
  | nil => exact Alike.done
  | cons segment segments ih =>
    refine Alike.andThen ?_ fun registers others => ih registers others
    unfold printSegment
    simp only
    split
    · exact Alike.send _ _
    · exact Alike.set_andThen fun _ _ => Alike.send _ _

variable {α : Type} [Scalar α]

theorem alike_printText (content : String) (look : TextLook α) (extent : Extent α)
    (registers others : Registers) :
    Alike (printText registers content look extent) (printText others content look extent) := by
  unfold printText
  split
  · exact Alike.send _ _
  · cases columns extent look.size with
    | error fault => exact Alike.failed fault
    | ok columns => exact Alike.set_andThen fun _ _ => Alike.send _ _

theorem alike_printRow (printer : Printer α) (cells : List (Cell α)) (justify : Value)
    (extent : Extent α) (registers others : Registers) :
    Alike (printer.printRow registers cells justify extent)
      (printer.printRow others cells justify extent) := by
  refine Alike.withNumber fun width => ?_
  cases Row.segments printer.resolver cells width justify with
  | error fault => exact Alike.failed _
  | ok segments =>
    refine Alike.set_andThen fun registers others => ?_
    exact (alike_printSegments segments registers others).andThen fun _ _ => Alike.send _ _

theorem alike_printDivider (border : Border) (extent : Extent α) (registers others : Registers) :
    Alike (printDivider registers border extent) (printDivider others border extent) := by
  refine Alike.set_andThen fun registers others => ?_
  exact Alike.withNumber fun width => Alike.send _ _

theorem alike_printPicture (printer : Printer α) (source : Value) (align : Alignment)
    (path other : String) (extent : Extent α) (registers others : Registers) :
    Alike (printer.printPicture registers source align path extent)
      (printer.printPicture others source align other extent) := by
  refine Alike.withNumber fun width => ?_
  cases rasterize source (width * printer.dotsPerCharacter) true with
  | error fault =>
    cases fault with
    | badHeader | tooLarge => exact Alike.failed _
    | undecodable | badText | badSamples | unknown _ | empty => exact Alike.note ..
  | ok bitmap =>
    refine Alike.set_andThen fun registers others => ?_
    simp only
    split
    · exact Alike.failed _
    · exact Alike.send _ _

omit [Scalar α] in
theorem alike_printSymbol (printer : Printer α) (data : String) (size : Int) (align : Alignment)
    (path other : String) (registers others : Registers) :
    Alike (printer.printSymbol registers data size align path)
      (printer.printSymbol others data size align other) := by
  unfold printSymbol
  split
  · exact Alike.note ..
  · exact Alike.note ..
  · exact Alike.set_andThen fun _ _ => Alike.send _ _

/-- A step is carried out alike from all registers and under all paths. -/
theorem alike_perform (printer : Printer α) (step : Step α) (registers others : Registers) :
    Alike (printer.perform registers step) (printer.perform others step.unplaced) := by
  cases step with
  | reset => exact Alike.send _ _
  | page height wraps => exact Alike.done
  | text content look extent => exact alike_printText content look extent registers others
  | row cells justify extent => exact alike_printRow printer cells justify extent registers others
  | divider border extent => exact alike_printDivider border extent registers others
  | space amount =>
    refine Alike.withNumber fun lines => ?_
    split
    · exact Alike.send _ _
    · exact Alike.done
  | picture source align path framed extent =>
    exact alike_printPicture printer source align path "" extent registers others
  | symbol data size align path extent =>
    exact alike_printSymbol printer data size align path "" registers others
  | sourceless path => exact Alike.note ..

theorem alike_performAll_unplaced (printer : Printer α) (steps : List (Step α))
    (registers others : Registers) :
    Alike (printer.performAll registers steps)
      (printer.performAll others (steps.map Step.unplaced)) := by
  induction steps generalizing registers others with
  | nil => exact Alike.done
  | cons step steps ih =>
    exact (alike_perform printer step registers others).andThen fun registers others =>
      ih registers others

/-- Layouts that ask for the same are printed alike from all registers. -/
theorem alike_print (printer : Printer α) {related : Anchors α → Anchors α → Prop}
    {first second : Layout α} (alike : Layout.Alike related first second)
    (registers others : Registers) :
    Alike (printer.print registers first) (printer.print others second) := by
  have own := alike_performAll_unplaced printer first.steps registers registers
  have other := alike_performAll_unplaced printer second.steps others registers
  rw [alike.steps] at own
  unfold print
  rw [alike.fault]
  refine (own.trans other.symm).andThen fun registers others => ?_
  cases second.fault with
  | some fault => exact Alike.failed _
  | none => exact Alike.done

/-! ## Two plans one behind the other -/

theorem performAll_append (printer : Printer α) (registers : Registers)
    (first second : List (Step α)) :
    printer.performAll registers (first ++ second) =
      (printer.performAll registers first).andThen fun registers =>
        printer.performAll registers second := by
  induction first generalizing registers with
  | nil => rfl
  | cons step steps ih =>
    rw [List.cons_append, performAll, performAll, andThen_assoc]
    simp only [ih]

/-- Printing two layouts in turn is printing the one and then the other. -/
theorem print_andThen (printer : Printer α) (registers : Registers) (first second : Layout α) :
    printer.print registers (first.andThen fun _ => second) =
      (printer.print registers first).andThen fun registers => printer.print registers second := by
  unfold print Layout.andThen
  cases ended : first.fault with
  | some fault =>
    simp only [ended]
    rw [andThen_assoc]
    rfl
  | none =>
    simp only
    rw [performAll_append, andThen_assoc, andThen_assoc]
    rfl

end Printer

namespace Step

variable {α : Type} [Scalar α]

theorem shown_unplaced (printer : Printer α) (step : Step α) :
    step.unplaced.shown printer = step.shown printer := by
  cases step with
  | reset | page _ _ | text _ _ _ | row _ _ _ | divider _ _ | space _ | picture _ _ _ _ _
  | symbol _ _ _ _ _ | sourceless _ => rfl

theorem flatMap_shown_congr (printer : Printer α) {steps others : List (Step α)}
    (same : steps.map unplaced = others.map unplaced) :
    steps.flatMap (shown printer) = others.flatMap (shown printer) := by
  have without (steps : List (Step α)) :
      steps.flatMap (shown printer) = (steps.map unplaced).flatMap (shown printer) := by
    rw [List.flatMap_map]
    simp only [shown_unplaced]
  rw [without, same, ← without]

end Step

/-! ## Documents with two lists of pages -/

namespace Scheme

open Layout

variable {α : Type} [Scalar α]

/-- The plan of a document is a reset and then the plan of its pages. -/
theorem tree_of_document {scheme : Scheme α} {type : String}
    (document : scheme.naming.kind? type = some .document) (anchors : Anchors α) (props : Fields)
    (style : Option Fields) (children : List Node) :
    scheme.tree [] anchors ⟨type, props, style, children⟩ =
      (Layout.step anchors .reset).andThen fun anchors =>
        scheme.pages [] type 0 anchors children := by
  have here : Node.kind? scheme.naming ⟨type, props, style, children⟩ = some .document := document
  unfold tree
  rw [if_pos here, node, document]

/-- The pages behind other pages of a printed document are laid out as on their own. -/
theorem alike_tree_append {scheme : Scheme α} (cells : scheme.resolver.target = .cells)
    {type : String} (document : scheme.naming.kind? type = some .document) (anchors : Anchors α)
    (props : Fields) (style : Option Fields) (first second : List Node) :
    Alike Anchors.SameWidth
      (scheme.tree [] anchors ⟨type, props, style, first ++ second⟩)
      ((scheme.tree [] anchors ⟨type, props, style, first⟩).andThen fun _ =>
        scheme.pages [] type 0 anchors second) := by
  have isDocument : Node.kind? scheme.naming ⟨type, props, style, first⟩ = some .document := document
  have leaves := sameWidth_pages cells isDocument type 0 anchors
  have start : Alike (fun before behind => before = anchors ∧ behind = anchors)
      (Layout.step anchors .reset) (Layout.step anchors .reset) :=
    ⟨rfl, rfl, fun _ => ⟨rfl, rfl⟩⟩
  have ahead : Alike (fun before _ => before.SameWidth anchors)
      (scheme.pages [] type 0 anchors first) (scheme.pages [] type 0 anchors first) :=
    ⟨rfl, rfl, fun _ => leaves⟩
  rw [tree_of_document document, tree_of_document document, andThen_assoc]
  refine start.andThen ?_
  rintro _ _ ⟨rfl, rfl⟩
  rw [pages_append]
  exact ahead.andThen fun before _ width => alike_pages scheme [] type _ 0 width second

/-- What the plan of two lists of pages shows is what the plans of both show. -/
theorem flatMap_shown_tree_append {scheme : Scheme α} (cells : scheme.resolver.target = .cells)
    {type : String} (document : scheme.naming.kind? type = some .document) {anchors : Anchors α}
    {props : Fields} {style : Option Fields} {first : List Node}
    (ended : (scheme.tree [] anchors ⟨type, props, style, first⟩).fault = none)
    (second : List Node) (printer : Printer α) :
    (scheme.tree [] anchors ⟨type, props, style, first ++ second⟩).steps.flatMap
        (Step.shown printer) =
      (scheme.tree [] anchors ⟨type, props, style, first⟩).steps.flatMap (Step.shown printer) ++
        (scheme.tree [] anchors ⟨type, props, style, second⟩).steps.flatMap
          (Step.shown printer) := by
  have steps := (alike_tree_append cells document anchors props style first second).steps
  have alone : (scheme.tree [] anchors ⟨type, props, style, second⟩).steps =
      .reset :: (scheme.pages [] type 0 anchors second).steps := by
    rw [tree_of_document document]
    rfl
  unfold Layout.andThen at steps
  rw [ended] at steps
  rw [Step.flatMap_shown_congr printer steps, List.flatMap_append, alone, List.flatMap_cons]
  rfl

end Scheme

variable {α : Type} [Scalar α]

/-- Printing a document with two lists of pages is alike to printing the document with the first and
then the pages of the second. -/
theorem alike_printTree_append {options : Options} {protocol : Protocol} {pageWidth : α}
    {type : String} (document : options.naming.kind? type = some .document) (props : Fields)
    (style : Option Fields) (first second : List Node) :
    Printing.Alike (printTree options protocol pageWidth ⟨type, props, style, first ++ second⟩)
      ((printTree options protocol pageWidth ⟨type, props, style, first⟩).andThen fun registers =>
        (options.printer protocol).print registers
          ((options.cellScheme : Scheme α).pages [] type 0 (.start pageWidth) second)) := by
  have plans : Layout.Alike _ ((options.cellScheme : Scheme α).tree _ _ _) _ :=
    Scheme.alike_tree_append rfl document (.start pageWidth) props style first second
  have printed := Printer.alike_print (options.printer protocol) plans .unknown .unknown
  rw [Printer.print_andThen] at printed
  exact printed

/-- A document is printed alike to its pages from any registers. -/
theorem alike_printTree_pages {options : Options} {protocol : Protocol} {pageWidth : α}
    {type : String} (document : options.naming.kind? type = some .document) (props : Fields)
    (style : Option Fields) (children : List Node) (registers : Registers) :
    Printing.Alike (printTree options protocol pageWidth ⟨type, props, style, children⟩)
      ((options.printer protocol).print registers
        ((options.cellScheme : Scheme α).pages [] type 0 (.start pageWidth) children)) := by
  let printer : Printer α := options.printer protocol
  let pages := (options.cellScheme : Scheme α).pages [] type 0 (.start pageWidth) children
  have plan : (options.cellScheme : Scheme α).tree [] (.start pageWidth)
      ⟨type, props, style, children⟩ =
        (Layout.step (.start pageWidth) .reset).andThen fun _ => pages :=
    Scheme.tree_of_document document ..
  have printed : printTree options protocol pageWidth ⟨type, props, style, children⟩ =
      (printer.print .unknown (Layout.step (.start pageWidth) .reset)).andThen fun registers =>
        printer.print registers pages := by
    rw [← Printer.print_andThen, ← plan]
    rfl
  have silent : (printer.print .unknown (Layout.step (.start pageWidth) .reset)).messages = [] := by
    unfold Printer.print
    rw [Printing.messages_andThen rfl, Layout.step, Printer.performAll,
      Printing.messages_andThen rfl, Printer.perform, Printing.messages_send]
    rfl
  rw [printed]
  refine Printing.Alike.silent_andThen rfl silent ?_
  exact Printer.alike_print printer (Scheme.alike_self pages) _ registers

/-- A document is printed to its end with two lists of pages exactly when it is with each of them; it
then looks like the one receipt followed by the other, and leaves out with the messages of the one
followed by those of the other. -/
theorem printTree_append_pages {options : Options} {protocol : Protocol} {pageWidth : α}
    {type : String} (document : options.naming.kind? type = some .document) (props : Fields)
    (style : Option Fields) (first second : List Node) :
    let print (pages : List Node) :=
      printTree options protocol pageWidth ⟨type, props, style, pages⟩
    let deliveries (pages : List Node) :=
      options.deliveries protocol pageWidth ⟨type, props, style, pages⟩
    (∀ pages, (deliveries pages).flatMap (·.commands) = (print pages).commands) ∧
      ((print (first ++ second)).fault = none ↔
        (print first).fault = none ∧ (print second).fault = none) ∧
      ((print (first ++ second)).fault = none →
        (∀ whole before behind : Device,
          whole.form protocol (deliveries (first ++ second)) =
            before.form protocol (deliveries first) ++ behind.form protocol (deliveries second)) ∧
          (print (first ++ second)).messages = (print first).messages ++ (print second).messages) := by
  intro print deliveries
  have both : Printing.Alike (print (first ++ second)) _ :=
    alike_printTree_append document props style first second
  have alone (registers : Registers) : Printing.Alike (print second) _ :=
    alike_printTree_pages document props style second registers
  have ends : (print (first ++ second)).fault = none ↔
      (print first).fault = none ∧ (print second).fault = none := by
    rw [both.fault]
    cases firstEnds : (print first).fault with
    | some fault =>
      rw [Printing.andThen_of_fault firstEnds, firstEnds]
      simp
    | none =>
      rw [Printing.fault_andThen firstEnds, ← (alone _).fault]
      simp [print]
  refine ⟨fun pages => commands_deliveries .., ends, fun ended => ?_⟩
  obtain ⟨firstEnds, secondEnds⟩ := ends.1 ended
  refine ⟨fun whole before behind => ?_, ?_⟩
  · have laidOut := Printer.fault_layout_of_print firstEnds
    rw [form_of_ended whole ended, form_of_ended before firstEnds, form_of_ended behind secondEnds]
    exact Scheme.flatMap_shown_tree_append rfl document laidOut second _
  · calc (print (first ++ second)).messages
      _ = _ := both.messages
      _ = (print first).messages ++ _ := Printing.messages_andThen firstEnds _
      _ = (print first).messages ++ (print second).messages := by rw [← (alone _).messages]

/-- A page that leaves the printer bold, large and on the right, and a picture in a narrow view. -/
def loudPages : List Node :=
  [⟨"Page", [], some [("padding", .int 2)],
    [⟨"View", [], some [("width", .int 20)], [⟨"Image", [], none, []⟩]⟩,
      ⟨"Text", [("children", .text "Total 12,50")],
        some [("fontWeight", .text "bold"), ("fontSize", .int 30), ("textAlign", .text "right")],
        []⟩]⟩]

/-- A page with a border, a row with an empty cell and a symbol. -/
def quietPages : List Node :=
  [⟨"Page", [], some [("borderTop", .text "1px solid")],
    [⟨"View", [], some [("flexDirection", .text "row"), ("justifyContent", .text "space-between")],
        [⟨"Text", [("children", .text "Tax")], none, []⟩,
          ⟨"Text", [("children", .text "")], none, []⟩]⟩,
      ⟨"Image", [("qrData", .text "42")], none, []⟩]⟩]

theorem printTree_append_pages_loudPages :
    let options : Options := ⟨.standard, none⟩
    let print (pages : List Node) :=
      printTree options .escPos (48 : Rat) ⟨"Document", [], none, pages⟩
    let deliveries (pages : List Node) :=
      options.deliveries .escPos (48 : Rat) ⟨"Document", [], none, pages⟩
    options.naming.kind? "Document" = some .document ∧
      (print (loudPages ++ quietPages)).fault = none ∧
      Device.steady.form .escPos (deliveries (loudPages ++ quietPages)) =
        Device.steady.form .escPos (deliveries loudPages) ++
          Device.steady.form .escPos (deliveries quietPages) ∧
      (print (loudPages ++ quietPages)).messages =
        (print loudPages).messages ++ (print quietPages).messages := by
  intro options print deliveries
  have document : options.naming.kind? "Document" = some .document := by decide
  have ended : (print (loudPages ++ quietPages)).fault = none := by decide +kernel
  have printed : _ ∧ _ ∧ ((print (loudPages ++ quietPages)).fault = none → _) :=
    printTree_append_pages document [] none loudPages quietPages
  obtain ⟨forms, messages⟩ := printed.2.2 ended
  exact ⟨document, ended, forms .steady .steady .steady, messages⟩

end Receipt
