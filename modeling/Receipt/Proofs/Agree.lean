import Receipt.Convert
import Receipt.Proofs.Account
import Receipt.Proofs.Alike
import Receipt.Proofs.Zero

/-!
# Outputs that differ in paths alone

Two printings agree when they send the same commands, leave the same registers and end at the same
fault, and their notes have the same messages at related paths; two drawings agree when they have the
same marks and leave the same pen, and their notes correspond likewise. Two trees are converted alike
when both are refused for the same reason, or both are converted, to the same output and with
corresponding notes (`Conversion.Matches`).

`Layout.Echoes` is what it takes: the second plan has the steps of the first one, in boxes with the
same edges and at related paths, and may have steps between them that do nothing. Such plans are
printed and drawn in agreement (`agrees_print`, `agrees_drawLayout`), and trees with such plans are
converted alike with every backend, even when the custom names differ (`matches_convertRoot`).
-/

namespace Receipt

/-- The second note says the same of a path that is related to that of the first. -/
structure Diagnostic.Moved (paths : String → String → Prop) (first second : Diagnostic) : Prop where
  path : paths first.path second.path
  message : first.message = second.message

/-- All paths are related. -/
abbrev anyPaths (_ _ : String) : Prop := True

/-! ## Plans -/

/-- The same edges, whatever insets they come from. -/
structure Extent.Same {α : Type} [Scalar α] (first second : Extent α) : Prop where
  left : first.left = second.left
  right : first.right = second.right

theorem Extent.Same.width {α : Type} [Scalar α] {first second : Extent α}
    (same : first.Same second) : first.width = second.width := by
  unfold Extent.width
  rw [same.left, same.right]

namespace Step

variable {α : Type} [Scalar α]

/-- The second step asks for the same as the first, in a box with the same edges. -/
inductive Echoes (paths : String → String → Prop) : Step α → Step α → Prop
  | reset : Echoes paths .reset .reset
  | page (height : Option α) (wraps : Option Bool) :
      Echoes paths (.page height wraps) (.page height wraps)
  | text (content : String) (look : TextLook α) {extent other : Extent α}
      (same : extent.Same other) : Echoes paths (.text content look extent) (.text content look other)
  | row (cells : List (Cell α)) (justify : Value) {extent other : Extent α}
      (same : extent.Same other) : Echoes paths (.row cells justify extent) (.row cells justify other)
  | divider (border : Border) {extent other : Extent α} (same : extent.Same other) :
      Echoes paths (.divider border extent) (.divider border other)
  | space (amount : α) : Echoes paths (.space amount) (.space amount)
  | picture (source : Value) (align : Alignment) (framed : Bool) {path place : String}
      {extent other : Extent α} (moved : paths path place) (same : extent.Same other) :
      Echoes paths (.picture source align path framed extent)
        (.picture source align place framed other)
  | symbol (data : String) (size : Int) (align : Alignment) {path place : String}
      {extent other : Extent α} (moved : paths path place) (same : extent.Same other) :
      Echoes paths (.symbol data size align path extent) (.symbol data size align place other)
  | sourceless {path place : String} (moved : paths path place) :
      Echoes paths (.sourceless path) (.sourceless place)

/-- A step that does nothing. -/
inductive Idle : Step α → Prop
  | page : Idle (.page none none)
  | space : Idle (.space Scalar.zero)

/-- The second steps echo the first ones, apart from some that do nothing. -/
inductive EchoesAll (paths : String → String → Prop) : List (Step α) → List (Step α) → Prop
  | nil : EchoesAll paths [] []
  | cons {step other : Step α} {steps others : List (Step α)} (own : Echoes paths step other)
      (rest : EchoesAll paths steps others) : EchoesAll paths (step :: steps) (other :: others)
  | idle {other : Step α} {steps others : List (Step α)} (idle : Idle other)
      (rest : EchoesAll paths steps others) : EchoesAll paths steps (other :: others)

theorem EchoesAll.append {paths : String → String → Prop} {first second others later : List (Step α)}
    (former : EchoesAll paths first others) (latter : EchoesAll paths second later) :
    EchoesAll paths (first ++ second) (others ++ later) := by
  induction former with
  | nil => exact latter
  | cons own rest ih => exact .cons own ih
  | idle idle rest ih => exact .idle idle ih

/-- Steps that are the same without their paths echo each other. -/
theorem echoes_of_unplaced {step other : Step α} (same : step.unplaced = other.unplaced) :
    Echoes anyPaths step other := by
  have self (extent : Extent α) : extent.Same extent := ⟨rfl, rfl⟩
  have echoes : Echoes anyPaths step step.unplaced := by
    cases step with
    | reset => exact .reset
    | page height wraps => exact .page height wraps
    | text content look extent => exact .text content look (self extent)
    | row cells justify extent => exact .row cells justify (self extent)
    | divider border extent => exact .divider border (self extent)
    | space amount => exact .space amount
    | picture source align path framed extent =>
      exact .picture source align framed trivial (self extent)
    | symbol data size align path extent => exact .symbol data size align trivial (self extent)
    | sourceless path => exact .sourceless trivial
  rw [same] at echoes
  cases other with
  | reset | page _ _ | text _ _ _ | row _ _ _ | divider _ _ | space _ => exact echoes
  | picture source align path framed extent =>
    cases echoes with
    | picture _ _ _ moved edges => exact .picture source align framed trivial edges
  | symbol data size align path extent =>
    cases echoes with
    | symbol _ _ _ moved edges => exact .symbol data size align trivial edges
  | sourceless path =>
    cases echoes with
    | sourceless moved => exact .sourceless trivial

end Step

namespace Layout

variable {α : Type} [Scalar α]

/-- The second layout asks for the same as the first, and leaves related anchors. -/
structure Echoes (paths : String → String → Prop) (related : Anchors α → Anchors α → Prop)
    (first second : Layout α) : Prop where
  steps : Step.EchoesAll paths first.steps second.steps
  fault : first.fault = second.fault
  anchors : first.fault = none → related first.anchors second.anchors

theorem Echoes.mono {paths : String → String → Prop} {related others : Anchors α → Anchors α → Prop}
    {first second : Layout α} (echoes : first.Echoes paths related second)
    (weaker : ∀ before behind, related before behind → others before behind) :
    first.Echoes paths others second :=
  ⟨echoes.steps, echoes.fault, fun ended => weaker _ _ (echoes.anchors ended)⟩

/-- Layouts that are alike echo each other, whatever the paths in them. -/
theorem Alike.echoes {related : Anchors α → Anchors α → Prop} {first second : Layout α}
    (alike : Alike related first second) : first.Echoes anyPaths related second := by
  refine ⟨?_, alike.fault, alike.anchors⟩
  have steps := alike.steps
  rw [← List.forall₂_eq_eq_eq, List.forall₂_map_left_iff, List.forall₂_map_right_iff] at steps
  generalize first.steps = own, second.steps = other at steps
  induction steps with
  | nil => exact .nil
  | cons same rest ih => exact .cons (Step.echoes_of_unplaced same) ih

end Layout

/-! ## Printing -/

namespace Printing

/-- Two printings differ in nothing but the paths of their notes. -/
structure Agrees (paths : String → String → Prop) (first second : Printing) : Prop where
  commands : first.commands = second.commands
  notes : List.Forall₂ (Diagnostic.Moved paths) first.diagnostics second.diagnostics
  registers : first.registers = second.registers
  fault : first.fault = second.fault

theorem diagnostics_andThen {first : Printing} (goesOn : first.fault = none)
    (next : Registers → Printing) :
    (first.andThen next).diagnostics = first.diagnostics ++ (next first.registers).diagnostics := by
  unfold andThen diagnostics
  rw [goesOn]
  exact List.filterMap_append ..

theorem Silent.diagnostics {printing : Printing} (silent : Silent printing) :
    printing.diagnostics = [] := by
  rw [diagnostics_eq, silent]
  rfl

namespace Agrees

variable {paths : String → String → Prop} {first second third : Printing} {registers : Registers}

theorem of_noNotes {printing : Printing} (none : printing.diagnostics = []) :
    Agrees paths printing printing := by
  refine ⟨rfl, ?_, rfl, rfl⟩
  rw [none]
  exact .nil

theorem send (registers : Registers) (commands : List Command) :
    Agrees paths (.send registers commands) (.send registers commands) := by
  apply of_noNotes
  unfold diagnostics Printing.send
  rw [List.filterMap_map, List.filterMap_eq_nil_iff]
  exact fun command _ => rfl

theorem failed (registers : Registers) (fault : PrintFault) :
    Agrees paths (.failed registers fault) (.failed registers fault) := of_noNotes rfl

theorem note (registers : Registers) {path other : String} (moved : paths path other)
    (message : String) :
    Agrees paths (.note registers path message) (.note registers other message) :=
  ⟨rfl, .cons ⟨moved, rfl⟩ .nil, rfl, rfl⟩

theorem andThen {next later : Registers → Printing} (agrees : Agrees paths first second)
    (goesOn : ∀ registers, Agrees paths (next registers) (later registers)) :
    Agrees paths (first.andThen next) (second.andThen later) := by
  have sameFault := agrees.fault
  cases ended : first.fault with
  | some fault =>
    rw [ended] at sameFault
    rw [andThen_of_fault ended, andThen_of_fault sameFault.symm]
    exact agrees
  | none =>
    rw [ended] at sameFault
    have rest := goesOn first.registers
    have same := agrees.registers
    refine ⟨?_, ?_, ?_, ?_⟩
    · rw [commands_andThen ended, commands_andThen sameFault.symm, agrees.commands, ← same,
        rest.commands]
    · rw [diagnostics_andThen ended, diagnostics_andThen sameFault.symm, ← same]
      exact List.rel_append agrees.notes rest.notes
    · rw [registers_andThen ended, registers_andThen sameFault.symm, ← same, rest.registers]
    · rw [fault_andThen ended, fault_andThen sameFault.symm, ← same, rest.fault]

theorem withNumber {number : Except NumberFault Int} {next later : Int → Printing}
    (goesOn : ∀ n, Agrees paths (next n) (later n)) :
    Agrees paths (.withNumber registers number next) (.withNumber registers number later) := by
  cases number with
  | error fault => exact failed registers _
  | ok n => exact goesOn n

theorem set_andThen (align : Alignment) (size : CharSize) (bold : Option Bool)
    {next later : Registers → Printing}
    (goesOn : ∀ registers, Agrees paths (next registers) (later registers)) :
    Agrees paths ((Printing.set registers align size bold).andThen next)
      ((Printing.set registers align size bold).andThen later) :=
  (send _ _).andThen goesOn

/-- Printings that agree send the same bytes. -/
theorem bytes (agrees : Agrees paths first second) (protocol : Protocol) :
    first.bytes protocol = second.bytes protocol := by
  unfold Printing.bytes
  rw [agrees.commands]

end Agrees

end Printing

namespace Printer

open Printing

variable {α : Type} [Scalar α] {paths : String → String → Prop}

theorem agrees_printPicture (printer : Printer α) (registers : Registers) (source : Value)
    (align : Alignment) {path place : String} {extent other : Extent α} (moved : paths path place)
    (same : extent.Same other) :
    Agrees paths (printer.printPicture registers source align path extent)
      (printer.printPicture registers source align place other) := by
  unfold printPicture
  rw [same.width]
  refine Agrees.withNumber fun width => ?_
  cases rasterize source (width * printer.dotsPerCharacter) true with
  | error fault =>
    cases fault with
    | badHeader | tooLarge => exact Agrees.failed registers _
    | undecodable | badText | badSamples | unknown _ | empty => exact Agrees.note registers moved _
  | ok bitmap =>
    refine Agrees.set_andThen _ _ _ fun registers => ?_
    simp only
    split
    · exact Agrees.failed registers _
    · exact Agrees.send registers _

omit [Scalar α] in
theorem agrees_printSymbol (printer : Printer α) (registers : Registers) (data : String)
    (size : Int) (align : Alignment) {path place : String} (moved : paths path place) :
    Agrees paths (printer.printSymbol registers data size align path)
      (printer.printSymbol registers data size align place) := by
  unfold printSymbol
  split
  · exact Agrees.note registers moved _
  · exact Agrees.note registers moved _
  · exact Agrees.set_andThen _ _ _ fun registers => Agrees.send registers _

/-- A step and one that echoes it are carried out in agreement. Only the step of an image element has
anything to note. -/
theorem agrees_perform (printer : Printer α) (registers : Registers) {step other : Step α}
    (echoes : step.Echoes paths other) :
    Agrees paths (printer.perform registers step) (printer.perform registers other) := by
  have silent {step : Step α} (plain : step.isPicture = false) :
      Agrees paths (printer.perform registers step) (printer.perform registers step) :=
    Agrees.of_noNotes (silent_perform printer registers plain).diagnostics
  have equal {step other : Step α} (plain : other.isPicture = false)
      (same : printer.perform registers step = printer.perform registers other) :
      Agrees paths (printer.perform registers step) (printer.perform registers other) := by
    rw [same]
    exact silent plain
  cases echoes with
  | reset => exact silent rfl
  | page height wraps => exact silent rfl
  | space amount => exact silent rfl
  | text content look same =>
    refine equal rfl ?_
    show printText registers content look _ = printText registers content look _
    unfold printText columns
    rw [same.width]
  | row cells justify same =>
    refine equal rfl ?_
    show printer.printRow registers cells justify _ = printer.printRow registers cells justify _
    unfold printRow
    rw [same.width]
  | divider border same =>
    refine equal rfl ?_
    show printDivider registers border _ = printDivider registers border _
    unfold printDivider
    rw [same.width]
  | picture source align framed moved same =>
    exact agrees_printPicture printer registers source align moved same
  | symbol data size align moved same =>
    exact agrees_printSymbol printer registers data size align moved
  | sourceless moved => exact Agrees.note registers moved _

/-- A step that does nothing prints nothing. -/
theorem perform_of_idle [Scalar.LawfulZero α] (printer : Printer α) (registers : Registers)
    {step : Step α} (idle : step.Idle) : printer.perform registers step = .done registers := by
  cases idle with
  | page => rfl
  | space =>
    show printSpace registers Scalar.zero = _
    unfold printSpace
    rw [Scalar.LawfulZero.truncate_zero]
    rfl

theorem agrees_performAll [Scalar.LawfulZero α] (printer : Printer α) (registers : Registers)
    {steps others : List (Step α)} (echoes : Step.EchoesAll paths steps others) :
    Agrees paths (printer.performAll registers steps) (printer.performAll registers others) := by
  induction echoes generalizing registers with
  | nil => exact Agrees.of_noNotes rfl
  | cons own rest ih =>
    exact (agrees_perform printer registers own).andThen fun registers => ih registers
  | idle idle rest ih =>
    rw [performAll, perform_of_idle printer registers idle]
    exact ih registers

theorem agrees_print [Scalar.LawfulZero α] (printer : Printer α) (registers : Registers)
    {related : Anchors α → Anchors α → Prop} {first second : Layout α}
    (echoes : first.Echoes paths related second) :
    Agrees paths (printer.print registers first) (printer.print registers second) := by
  unfold print
  rw [echoes.fault]
  refine (agrees_performAll printer registers echoes.steps).andThen fun registers => ?_
  cases second.fault with
  | some fault => exact Agrees.failed registers _
  | none => exact Agrees.of_noNotes rfl

end Printer

/-! ## Drawing -/

namespace Drawing

variable {α : Type}

/-- Two drawings differ in nothing but the paths of their notes and in parts that show nothing. -/
structure Agrees (paths : String → String → Prop) (first second : Drawing α) : Prop where
  marks : first.marks = second.marks
  notes : List.Forall₂ (Diagnostic.Moved paths) first.diagnostics second.diagnostics
  pen : first.pen = second.pen
  fault : first.fault = second.fault

theorem andThen_of_fault {first : Drawing α} {fault : DrawFault} (ended : first.fault = some fault)
    (next : Pen α → Drawing α) : first.andThen next = first := by
  unfold andThen
  rw [ended]

theorem andThen_of_none {first : Drawing α} (goesOn : first.fault = none)
    (next : Pen α → Drawing α) :
    first.andThen next = ⟨first.events ++ (next first.pen).events, (next first.pen).pen,
      (next first.pen).fault⟩ := by
  unfold andThen
  rw [goesOn]

theorem marks_andThen {first : Drawing α} (goesOn : first.fault = none)
    (next : Pen α → Drawing α) :
    (first.andThen next).marks = first.marks ++ (next first.pen).marks := by
  rw [andThen_of_none goesOn]
  exact List.flatMap_append

theorem diagnostics_andThen {first : Drawing α} (goesOn : first.fault = none)
    (next : Pen α → Drawing α) :
    (first.andThen next).diagnostics = first.diagnostics ++ (next first.pen).diagnostics := by
  rw [andThen_of_none goesOn]
  exact List.filterMap_append ..

theorem andThen_assoc (first : Drawing α) (second third : Pen α → Drawing α) :
    (first.andThen second).andThen third =
      first.andThen fun pen => (second pen).andThen third := by
  unfold andThen
  cases ended : first.fault with
  | some fault => simp only [ended]
  | none =>
    cases later : (second first.pen).fault with
    | some fault => simp only [later]
    | none => simp only [later, List.append_assoc]

namespace Agrees

variable {paths : String → String → Prop} {first second : Drawing α}

theorem done (pen : Pen α) : Agrees paths (.done pen) (.done pen) := ⟨rfl, .nil, rfl, rfl⟩

theorem draw (pen : Pen α) (part : Part) (marks : List (Mark α)) :
    Agrees paths (.draw pen part marks) (.draw pen part marks) := ⟨rfl, .nil, rfl, rfl⟩

theorem failed (pen : Pen α) (fault : DrawFault) :
    Agrees paths (.failed pen fault) (.failed pen fault) := ⟨rfl, .nil, rfl, rfl⟩

theorem note (pen : Pen α) {path other : String} (moved : paths path other) (message : String) :
    Agrees paths (.note pen path message) (.note pen other message) :=
  ⟨rfl, .cons ⟨moved, rfl⟩ .nil, rfl, rfl⟩

theorem andThen {next later : Pen α → Drawing α} (agrees : Agrees paths first second)
    (goesOn : ∀ pen, Agrees paths (next pen) (later pen)) :
    Agrees paths (first.andThen next) (second.andThen later) := by
  have sameFault := agrees.fault
  cases ended : first.fault with
  | some fault =>
    rw [ended] at sameFault
    rw [andThen_of_fault ended, andThen_of_fault sameFault.symm]
    exact agrees
  | none =>
    rw [ended] at sameFault
    have rest := goesOn first.pen
    have same := agrees.pen
    refine ⟨?_, ?_, ?_, ?_⟩
    · rw [marks_andThen ended, marks_andThen sameFault.symm, agrees.marks, ← same, rest.marks]
    · rw [diagnostics_andThen ended, diagnostics_andThen sameFault.symm, ← same]
      exact List.rel_append agrees.notes rest.notes
    · rw [andThen_of_none ended, andThen_of_none sameFault.symm, ← same]
      exact rest.pen
    · rw [andThen_of_none ended, andThen_of_none sameFault.symm, ← same]
      exact rest.fault

/-- A part that shows nothing may come in front of the second drawing. -/
theorem behind_nothing {pen : Pen α} {part : Part} {next : Pen α → Drawing α}
    (agrees : Agrees paths first (next pen)) :
    Agrees paths first ((Drawing.draw pen part []).andThen next) :=
  ⟨agrees.marks, agrees.notes, agrees.pen, agrees.fault⟩

end Agrees

end Drawing

namespace Page

open Drawing

variable {α : Type} [Scalar α] {paths : String → String → Prop}

theorem agrees_drawLines (setting : Setting α) {extent other : Extent α}
    (same : extent.Same other) (look : TextLook α) (pen : Pen α) (lines : List String) :
    Agrees paths (drawLines setting extent look pen lines)
      (drawLines setting other look pen lines) := by
  induction lines generalizing pen with
  | nil => exact Agrees.done pen
  | cons line lines ih =>
    refine Agrees.andThen ?_ fun pen => ih pen
    unfold drawLine
    rw [same.left, same.right]
    exact Agrees.draw ..

theorem agrees_drawPlacements (setting : Setting α) {extent other : Extent α}
    (same : extent.Same other) (pen : Pen α) (placements : List (Placement α)) :
    Agrees paths (drawPlacements setting extent pen placements)
      (drawPlacements setting other pen placements) := by
  cases placements with
  | nil => exact Agrees.draw ..
  | cons first rest =>
    unfold drawPlacements
    rw [same.left]
    exact Agrees.draw ..

theorem blockX_congr {extent other : Extent α} (same : extent.Same other)
    (align : Option Alignment) (width : α) :
    blockX extent align width = blockX other align width := by
  unfold blockX
  rw [same.left, same.right, same.width]

theorem agrees_drawPicture {extent other : Extent α} (same : extent.Same other) (pen : Pen α)
    (picture : Picture) (width : α) (align : Option Alignment) :
    Agrees paths (drawPicture extent pen picture width align)
      (drawPicture other pen picture width align) := by
  unfold drawPicture
  rw [blockX_congr same]
  split
  · exact Agrees.draw ..
  · exact Agrees.draw ..

theorem agrees_drawSource {extent other : Extent α} (same : extent.Same other) (pen : Pen α)
    (source : Value) (align : Alignment) {path place : String} (moved : paths path place)
    (framed : Bool) :
    Agrees paths (drawSource extent pen source align path framed)
      (drawSource other pen source align place framed) := by
  unfold drawSource
  split
  · split
    · exact Agrees.note pen moved _
    · exact Agrees.failed pen _
  · rw [same.width]
    exact agrees_drawPicture same ..

theorem agrees_drawSymbol {extent other : Extent α} (same : extent.Same other) (pen : Pen α)
    (data : String) (size : Int) (align : Option Alignment) :
    Agrees paths (drawSymbol extent pen data size align)
      (drawSymbol other pen data size align) := by
  unfold drawSymbol
  rw [same.width]
  split
  · exact Agrees.failed pen _
  · simp only [blockX_congr same]
    exact Agrees.draw ..

/-- A step and one that echoes it are drawn in agreement. -/
theorem agrees_draw (setting : Setting α) (resolver : Resolver α) (pen : Pen α)
    {step other : Step α} (echoes : step.Echoes paths other) :
    Agrees paths (draw setting resolver pen step) (draw setting resolver pen other) := by
  cases echoes with
  | reset => exact Agrees.draw ..
  | page height wraps => exact Agrees.done _
  | space amount => exact Agrees.draw ..
  | text content look same =>
    unfold draw
    simp only
    unfold drawText
    rw [same.width]
    exact agrees_drawLines setting same ..
  | row cells justify same =>
    unfold draw
    simp only
    rw [same.width]
    split
    · exact Agrees.failed pen _
    · exact agrees_drawPlacements setting same ..
  | divider border same =>
    unfold draw
    simp only
    unfold drawDivider
    rw [same.left, same.right]
    exact Agrees.draw ..
  | picture source align framed moved same => exact agrees_drawSource same pen source align moved framed
  | symbol data size align moved same => exact agrees_drawSymbol same ..
  | sourceless moved => exact Agrees.note pen moved _

/-- A step that does nothing leaves the pen where it is. -/
theorem agrees_idle_andThen [Scalar.LawfulZero α] (setting : Setting α) (resolver : Resolver α)
    {pen : Pen α} {step : Step α} (idle : step.Idle) {first : Drawing α}
    {next : Pen α → Drawing α} (agrees : Agrees paths first (next pen)) :
    Agrees paths first ((draw setting resolver pen step).andThen next) := by
  cases idle with
  | page =>
    have same : draw setting resolver pen (.page none none) = .done pen := by
      unfold draw
      simp only [Option.none_or]
    rw [same]
    exact agrees
  | space =>
    have same : draw setting resolver pen (.space Scalar.zero) = .draw pen .space [] := by
      unfold draw drawSpace
      simp only [if_neg Scalar.LawfulZero.not_zero_lt_zero]
    rw [same]
    exact agrees.behind_nothing

theorem agrees_drawAll [Scalar.LawfulZero α] (setting : Setting α) (resolver : Resolver α)
    (pen : Pen α) {steps others : List (Step α)} (echoes : Step.EchoesAll paths steps others) :
    Agrees paths (drawAll setting resolver pen steps) (drawAll setting resolver pen others) := by
  induction echoes generalizing pen with
  | nil => exact Agrees.done pen
  | cons own rest ih => exact (agrees_draw setting resolver pen own).andThen fun pen => ih pen
  | idle idle rest ih => exact agrees_idle_andThen setting resolver idle (ih pen)

theorem agrees_drawLayout [Scalar.LawfulZero α] (setting : Setting α) (resolver : Resolver α)
    (pen : Pen α) {related : Anchors α → Anchors α → Prop} {first second : Layout α}
    (echoes : first.Echoes paths related second) :
    Agrees paths (drawLayout setting resolver pen first)
      (drawLayout setting resolver pen second) := by
  unfold drawLayout
  rw [echoes.fault]
  refine (agrees_drawAll setting resolver pen echoes.steps).andThen fun pen => ?_
  cases second.fault with
  | some fault => exact Agrees.failed pen _
  | none => exact Agrees.done pen

/-- A layout that is drawn to its end was laid out to its end. -/
theorem fault_layout_of_draw {setting : Setting α} {resolver : Resolver α} {pen : Pen α}
    {layout : Layout α} (ended : (drawLayout setting resolver pen layout).fault = none) :
    layout.fault = none := by
  unfold drawLayout at ended
  cases drawn : (drawAll setting resolver pen layout.steps).fault with
  | some fault =>
    rw [Drawing.andThen_of_fault drawn, drawn] at ended
    cases ended
  | none =>
    cases laidOut : layout.fault with
    | none => rfl
    | some fault =>
      rw [Drawing.andThen_of_none drawn, laidOut] at ended
      cases ended

end Page

/-! ## Conversions -/

namespace Conversion

/-- Two conversions differ in nothing but the paths of their notes and the lines of their logs. -/
structure Agrees (paths : String → String → Prop) (first second : Conversion) : Prop where
  backend : first.backend = second.backend
  output : first.output = second.output
  notes : List.Forall₂ (Diagnostic.Moved paths) first.diagnostics second.diagnostics

/-- Two conversions come to the same: both are refused for the same reason, or both are made and
agree. -/
inductive Matches (paths : String → String → Prop) :
    Except ConversionFault Conversion → Except ConversionFault Conversion → Prop
  | refused (fault : ConversionFault) : Matches paths (.error fault) (.error fault)
  | converted {first second : Conversion} (agrees : first.Agrees paths second) :
      Matches paths (.ok first) (.ok second)

variable {paths : String → String → Prop} {options : Options}
  {names : Option Naming} {root other : Node}

/-- Trees that are printed in agreement are converted to the same for a receipt printer. -/
theorem matches_convertToPrint {protocol : Protocol}
    (agrees : Printing.Agrees paths
      (printTree options protocol (Float.ofInt options.paperWidth) root)
      (printTree { options with names := names } protocol (Float.ofInt options.paperWidth)
        other)) :
    Matches paths (convertToPrint options protocol root)
      (convertToPrint { options with names := names } protocol other) := by
  have receipts : Printing.Agrees paths
      (printReceipt options protocol (Float.ofInt options.paperWidth) root)
      (printReceipt { options with names := names } protocol (Float.ofInt options.paperWidth)
        other) :=
    agrees.andThen fun registers => Printing.Agrees.send registers _
  unfold convertToPrint
  simp only
  rw [← receipts.fault, ← receipts.bytes]
  cases (printReceipt options protocol (Float.ofInt options.paperWidth) root).fault with
  | some fault => exact .refused _
  | none => exact .converted ⟨rfl, rfl, receipts.notes⟩

/-- Trees that are drawn in agreement, on pages of one width, are converted to the same page. -/
theorem matches_convertToPage
    (agrees : Drawing.Agrees paths (drawTree options options.pointWidth root).1
      (drawTree { options with names := names } options.pointWidth other).1)
    (width : (drawTree options options.pointWidth root).1.fault = none →
      (drawTree options options.pointWidth root).2 =
        (drawTree { options with names := names } options.pointWidth other).2) :
    Matches paths (convertToPage options root)
      (convertToPage { options with names := names } other) := by
  unfold convertToPage
  simp only
  rw [← agrees.fault, ← agrees.pen, ← agrees.marks]
  cases ended : (drawTree options options.pointWidth root).1.fault with
  | some fault => exact .refused _
  | none =>
    simp only
    rw [← width ended]
    split
    · exact .refused _
    · exact .converted ⟨rfl, rfl, agrees.notes⟩

/-- Trees whose plans echo each other, on the printer and on the page, come to the same with every
backend, each under custom names of its own. -/
theorem matches_convertRoot (plans : ∀ (resolver : Resolver Float) (pageWidth : Float),
      Layout.Echoes paths Anchors.SameWidth
        ((⟨options.naming, resolver⟩ : Scheme Float).tree [] (.start pageWidth) root)
        ((⟨({ options with names := names } : Options).naming, resolver⟩ : Scheme Float).tree []
          (.start pageWidth) other)) :
    Matches paths (convertRoot options root) (convertRoot { options with names := names } other) := by
  unfold convertRoot
  cases options.backend with
  | printer protocol =>
    exact matches_convertToPrint (Printer.agrees_print _ .unknown (plans _ _))
  | page =>
    have drawn := plans Options.pointResolver options.pointWidth
    apply matches_convertToPage (Page.agrees_drawLayout .usual Options.pointResolver .atTop drawn)
    exact fun ended => drawn.anchors (Page.fault_layout_of_draw ended)

end Conversion

namespace Options

/-- Two trees are refused for the same reason, or they are both converted, and the conversions
agree. -/
inductive ConvertsAlike (options : Options) (paths : String → String → Prop) (root other : Node) :
    Prop where
  | refused (fault : ConversionFault) (own : convertRoot options root = .error fault)
      (also : convertRoot options other = .error fault)
  | converted (first second : Conversion) (own : convertRoot options root = .ok first)
      (also : convertRoot options other = .ok second) (agrees : first.Agrees paths second)

/-- Trees whose plans echo each other, on the printer and on the page, are converted alike with
every backend. -/
theorem convertsAlike_of_echoes {options : Options} {paths : String → String → Prop}
    {root other : Node} (plans : ∀ (resolver : Resolver Float) (pageWidth : Float),
      Layout.Echoes paths Anchors.SameWidth
        ((⟨options.naming, resolver⟩ : Scheme Float).tree [] (.start pageWidth) root)
        ((⟨options.naming, resolver⟩ : Scheme Float).tree [] (.start pageWidth) other)) :
    options.ConvertsAlike paths root other := by
  have matched : Conversion.Matches paths (convertRoot options root) (convertRoot options other) :=
    Conversion.matches_convertRoot plans
  generalize own : convertRoot options root = result, also : convertRoot options other = answer
    at matched
  cases matched with
  | refused fault => exact .refused fault own also
  | converted agrees => exact .converted _ _ own also agrees

end Options

end Receipt
