import Receipt.Proofs.Delivery
import Receipt.Proofs.Reached

/-!
# Every image is accounted for

A printer answers an image element in one of three ways: it sends a picture, it sends a symbol, or it
leaves the element out with a note. A `Turn` is a step of the plan together with the registers that
were known before it; the turns of a run follow one another, each with the registers that the one
before it leaves.

`accountsForImages_printReceipt`: in a receipt that is printed to its end the image elements that the
walk reaches have one turn each, in document order, with exactly one answer, and nothing else has
any. A turn that answers with a note sends nothing and leaves the registers as they were. Hence the
notes come in document order, and pictures, symbols and notes are together as many as the elements.
-/

namespace Receipt

/-! ## Answers -/

namespace Command

/-- Whether a command prints a picture. -/
def isRaster : Command → Bool
  | raster .. => true
  | _ => false

/-- Whether a command prints a symbol. -/
def isSymbol : Command → Bool
  | symbol .. => true
  | _ => false

end Command

namespace PrintEvent

/-- Whether an event answers an image element: by a picture, a symbol or a note. -/
def isAnswer : PrintEvent → Bool
  | sent command => command.isRaster || command.isSymbol
  | noted _ => true

/-- An event answers the image element at a path; a note names the path. -/
def AnswersFor (path : String) : PrintEvent → Prop
  | sent command => command.isRaster || command.isSymbol
  | noted diagnostic => diagnostic.path = path

end PrintEvent

namespace Printing

/-- The answers to image elements, in order. -/
def answers (printing : Printing) : List PrintEvent := printing.events.filter (·.isAnswer)

theorem answers_andThen {first : Printing} (goesOn : first.fault = none)
    (next : Registers → Printing) :
    (first.andThen next).answers = first.answers ++ (next first.registers).answers := by
  unfold andThen answers
  rw [goesOn]
  exact List.filter_append ..

theorem andThen_done (first : Printing) : first.andThen done = first := by
  obtain ⟨events, registers, fault⟩ := first
  cases fault with
  | some fault => rfl
  | none => exact congrArg (Printing.mk · registers none) (List.append_nil events)

/-- The notes are among the answers. -/
theorem diagnostics_eq (printing : Printing) :
    printing.diagnostics = printing.answers.filterMap (·.diagnostic?) := by
  unfold diagnostics answers
  induction printing.events with
  | nil => rfl
  | cons event events ih =>
    cases event with
    | noted diagnostic => exact congrArg (diagnostic :: ·) ih
    | sent command =>
      rw [List.filter_cons]
      split
      · exact ih
      · exact ih

/-- Pictures, symbols and notes are the answers. -/
theorem length_answers (printing : Printing) :
    printing.commands.countP (·.isRaster) + printing.commands.countP (·.isSymbol) +
      printing.diagnostics.length = printing.answers.length := by
  unfold commands diagnostics answers
  induction printing.events with
  | nil => rfl
  | cons event events ih =>
    cases event with
    | noted diagnostic =>
      show _ + (_ + 1) = _ + 1
      rw [← ih]
      rfl
    | sent command =>
      have own : (command :: events.filterMap (·.command?)).countP (·.isRaster) +
          (command :: events.filterMap (·.command?)).countP (·.isSymbol) =
          (events.filterMap (·.command?)).countP (·.isRaster) +
            (events.filterMap (·.command?)).countP (·.isSymbol) +
            (if (command.isRaster || command.isSymbol) = true then 1 else 0) := by
        rw [List.countP_cons, List.countP_cons]
        cases command with
        | raster _ _ _ => simp [Command.isRaster, Command.isSymbol]; omega
        | symbol _ _ => simp [Command.isRaster, Command.isSymbol]; omega
        | init | align _ | characterSize _ _ | emphasis _ | lineSpacing _ | text _ | lineFeed _
        | feed _ | cut _ _ => rfl
      show (command :: events.filterMap (·.command?)).countP (·.isRaster) +
          (command :: events.filterMap (·.command?)).countP (·.isSymbol) +
          (events.filterMap (·.diagnostic?)).length = _
      rw [own, List.filter_cons]
      by_cases answer : (command.isRaster || command.isSymbol) = true
      · rw [if_pos answer, if_pos (show (PrintEvent.sent command).isAnswer = true from answer),
          List.length_cons]
        omega
      · rw [if_neg answer, if_neg (show ¬ (PrintEvent.sent command).isAnswer = true from answer)]
        omega

/-- Printing without an answer. -/
def Silent (printing : Printing) : Prop := printing.answers = []

namespace Silent

variable {registers : Registers}

theorem done (registers : Registers) : Silent (.done registers) := rfl

theorem failed (registers : Registers) (fault : PrintFault) : Silent (.failed registers fault) := rfl

theorem send {commands : List Command}
    (plain : ∀ command ∈ commands, (command.isRaster || command.isSymbol) = false) :
    Silent (.send registers commands) := by
  unfold Silent answers Printing.send
  rw [List.filter_eq_nil_iff]
  intro event member answers
  obtain ⟨command, inside, rfl⟩ := List.mem_map.1 member
  have silent := plain command inside
  unfold PrintEvent.isAnswer at answers
  simp only at answers
  rw [silent] at answers
  cases answers

theorem andThen {first : Printing} {next : Registers → Printing} (former : Silent first)
    (latter : ∀ registers, Silent (next registers)) : Silent (first.andThen next) := by
  cases ended : first.fault with
  | some fault =>
    rw [andThen_of_fault ended]
    exact former
  | none =>
    unfold Silent
    rw [answers_andThen ended, former, latter first.registers]
    rfl

theorem withNumber {number : Except NumberFault Int} {next : Int → Printing}
    (later : ∀ n, Silent (next n)) : Silent (.withNumber registers number next) := by
  cases number with
  | error fault => exact failed registers _
  | ok n => exact later n

theorem set (registers : Registers) (align : Alignment) (size : CharSize) (bold : Option Bool) :
    Silent (.set registers align size bold) := by
  apply send
  intro command member
  rcases registers.cases_of_mem_settings member with rfl | ⟨weight, rfl⟩ | ⟨weight, rfl⟩
  · rfl
  · rfl
  · rfl

theorem lines (registers : Registers) (lines : List String) :
    Silent (.send registers (lines.flatMap Printer.lineCommands)) := by
  apply send
  intro command member
  rcases Printer.cases_of_mem_lines member with ⟨line, rfl⟩ | rfl
  · rfl
  · rfl

theorem line (registers : Registers) (line : String) :
    Silent (.send registers (Printer.lineCommands line)) := by
  have one := lines registers [line]
  rwa [List.flatMap_singleton] at one

theorem printSegments (registers : Registers) (segments : List Segment) :
    Silent (Printer.printSegments registers segments) := by
  have part (registers : Registers) (part : String) :
      Silent (.send registers (if part.isEmpty then [] else [.text part])) := by
    split
    · exact done registers
    · exact send fun command member => by
        rw [List.mem_singleton.1 member]
        rfl
  induction segments generalizing registers with
  | nil => exact done registers
  | cons segment segments ih =>
    refine andThen ?_ fun registers => ih registers
    unfold Printer.printSegment
    simp only
    split
    · exact part registers segment.text
    · exact (set registers .left .normal _).andThen fun registers => part registers segment.text

end Silent

end Printing

/-! ## What a step answers -/

open Printing

variable {σ α : Type} [Scalar α]

/-- Only a step that stands for an image element has an answer. -/
theorem silent_perform (printer : Printer α) (registers : Registers) {step : Step α}
    (other : step.isPicture = false) : Silent (printer.perform registers step) := by
  have lineFeed (registers : Registers) (lines : Int) :
      Silent (.send registers [.lineFeed lines]) :=
    Silent.send fun command member => by
      rw [List.mem_singleton.1 member]
      rfl
  cases step with
  | reset =>
    apply Silent.send
    intro command member
    rcases List.mem_cons.1 member with rfl | spacing
    · rfl
    · obtain ⟨dots, _, rfl⟩ := List.mem_map.1 spacing
      rfl
  | page height wraps => exact Silent.done registers
  | text content look extent =>
    show Silent (Printer.printText registers content look extent)
    unfold Printer.printText
    split
    · exact Silent.line registers ""
    · cases Printer.columns extent look.size with
      | error fault => exact Silent.failed registers fault
      | ok columns =>
        exact (Silent.set registers _ _ _).andThen fun registers => Silent.lines registers _
  | row cells justify extent =>
    show Silent (printer.printRow registers cells justify extent)
    unfold Printer.printRow
    refine Silent.withNumber fun width => ?_
    cases Row.segments printer.resolver cells width justify with
    | error fault => exact Silent.failed registers _
    | ok segments =>
      refine (Silent.set registers _ _ _).andThen fun registers => ?_
      exact (Silent.printSegments registers segments).andThen fun registers => lineFeed registers 1
  | divider border extent =>
    refine (Silent.set registers .left .normal none).andThen fun registers => ?_
    exact Silent.withNumber fun width => Silent.line registers _
  | space amount =>
    refine Silent.withNumber fun lines => ?_
    split
    · exact lineFeed registers lines
    · exact Silent.done registers
  | picture source align path framed extent => cases other
  | symbol data size align path extent => cases other
  | sourceless path => cases other

/-- The answer to an image element at a path that is found in some printing. -/
inductive Answered (before : Registers) (path : String) (printing : Printing) : Prop where
  | raster (bytes : List UInt8) (width height : Int)
      (only : printing.answers = [.sent (.raster bytes width height)])
  | symbol (data : String) (size : Int) (only : printing.answers = [.sent (.symbol data size)])
  /-- Nothing else happens: no command is sent, and the registers are those before. -/
  | skipped (message : String) (only : printing = .note before path message)

namespace Answered

variable {before : Registers} {path : String}

/-- A command behind settings is the only answer, when it is one. -/
theorem answers_set_andThen (registers : Registers) (align : Alignment) (size : CharSize)
    (bold : Option Bool) {command : Command}
    (answer : (command.isRaster || command.isSymbol) = true) :
    ((Printing.set registers align size bold).andThen fun registers =>
      Printing.send registers [command]).answers = [.sent command] := by
  have silent : (Printing.set registers align size bold).answers = [] :=
    Silent.set registers align size bold
  rw [answers_andThen rfl, silent]
  exact List.filter_cons_of_pos answer

theorem printPicture (printer : Printer α) {source : Value} {align : Alignment}
    {extent : Extent α}
    (ended : (printer.printPicture before source align path extent).fault = none) :
    Answered before path (printer.printPicture before source align path extent) := by
  unfold Printer.printPicture at ended ⊢
  cases known : Scalar.truncate extent.width with
  | error fault =>
    rw [known] at ended
    cases ended
  | ok width =>
    simp only [known, Printing.withNumber] at ended ⊢
    cases made : rasterize source (width * printer.dotsPerCharacter) true with
    | error fault =>
      rw [made] at ended
      cases fault with
      | badHeader | tooLarge => cases ended
      | undecodable | badText | badSamples | unknown _ | empty => exact skipped _ rfl
    | ok bitmap =>
      simp only [made] at ended ⊢
      cases accepted : printer.protocol.encode (.raster bitmap.pack bitmap.width bitmap.height) with
      | error fault =>
        rw [fault_andThen rfl, accepted] at ended
        cases ended
      | ok bytes => exact raster _ _ _ (answers_set_andThen before align _ none rfl)

omit [Scalar α] in
theorem printSymbol (printer : Printer α) (before : Registers) (path data : String) (size : Int)
    (align : Alignment) :
    Answered before path (printer.printSymbol before data size align path) := by
  unfold Printer.printSymbol
  cases printer.protocol.encode (.symbol data size) with
  | error fault =>
    cases fault with
    | unsupported _ _ _ => exact skipped _ rfl
    | bitmapSize _ _ _ _ | field | payload _ => exact skipped _ rfl
  | ok bytes => exact symbol _ _ (answers_set_andThen before align _ none rfl)

/-- A step that stands for an image element and ends without a fault answers it. -/
theorem perform (printer : Printer α) {step : Step α} (own : step.path? = some path)
    (ended : (printer.perform before step).fault = none) :
    Answered before path (printer.perform before step) := by
  cases step with
  | picture source align place framed extent =>
    obtain rfl := Option.some.inj own
    exact printPicture printer ended
  | symbol data size align place extent =>
    obtain rfl := Option.some.inj own
    exact printSymbol printer before place data size align
  | sourceless place =>
    obtain rfl := Option.some.inj own
    exact skipped _ rfl
  | reset | page _ _ | text _ _ _ | row _ _ _ | divider _ _ | space _ => cases own

end Answered

/-! ## Turns -/

/-- A step that is carried out, its mark, and the registers that are known before it. -/
structure Turn (σ α : Type) where
  mark : σ
  step : Step α
  before : Registers

namespace Turn

/-- What happens in a turn. -/
def printing (printer : Printer α) (turn : Turn σ α) : Printing :=
  printer.perform turn.before turn.step

end Turn

namespace Printer

/-- Carries out marked steps up to the first fault. -/
def turns (printer : Printer α) (registers : Registers) : List (σ × Step α) → List (Turn σ α)
  | [] => []
  | (mark, step) :: steps =>
    let printing := printer.perform registers step
    ⟨mark, step, registers⟩ ::
      match printing.fault with
      | some _ => []
      | none => printer.turns printing.registers steps

/-- Turns follow one another without a fault, each with the registers that the one before it
leaves. -/
def Follow (printer : Printer α) (before behind : Registers) : List (Turn σ α) → Prop
  | [] => before = behind
  | turn :: turns =>
    turn.before = before ∧ (turn.printing printer).fault = none ∧
      printer.Follow (turn.printing printer).registers behind turns

/-- The turns of a run that comes to its end are those of its steps, and they make up the run. -/
theorem turns_of_ended (printer : Printer α) {registers : Registers} {steps : List (σ × Step α)}
    (ended : (printer.performAll registers (steps.map (·.2))).fault = none) :
    (printer.turns registers steps).map (fun turn => (turn.mark, turn.step)) = steps ∧
      printer.Follow registers (printer.performAll registers (steps.map (·.2))).registers
        (printer.turns registers steps) ∧
      (printer.performAll registers (steps.map (·.2))).events =
        (printer.turns registers steps).flatMap fun turn => (turn.printing printer).events := by
  induction steps generalizing registers with
  | nil => exact ⟨rfl, rfl, rfl⟩
  | cons marked steps ih =>
    obtain ⟨mark, step⟩ := marked
    obtain ⟨goesOn, later⟩ := Printer.fault_performAll_cons ended
    obtain ⟨marks, follow, events⟩ := ih later
    rw [turns]
    simp only [goesOn]
    refine ⟨?_, ?_, ?_⟩
    · rw [List.map_cons, marks]
    · refine ⟨rfl, goesOn, ?_⟩
      rw [List.map_cons, performAll, registers_andThen goesOn]
      exact follow
    · rw [List.map_cons, performAll, List.flatMap_cons, ← events]
      unfold Printing.andThen
      rw [goesOn]
      rfl

/-- Each turn that follows another ends without a fault. -/
theorem Follow.ended {printer : Printer α} {before behind : Registers} {turns : List (Turn σ α)}
    (follow : printer.Follow before behind turns) :
    ∀ turn ∈ turns, (turn.printing printer).fault = none := by
  induction turns generalizing before with
  | nil => exact fun _ member => absurd member List.not_mem_nil
  | cons first turns ih =>
    obtain ⟨_, goesOn, later⟩ := follow
    intro turn member
    rcases List.mem_cons.1 member with rfl | inside
    · exact goesOn
    · exact ih later turn inside

end Printer

namespace Options

/-- The turns of a tree that is printed, each marked with the site that asked for it. -/
def turns (options : Options) (protocol : Protocol) (pageWidth : α) (root : Node) :
    List (Turn Site α) :=
  (options.printer protocol).turns .unknown (options.cellScheme.trace (.start pageWidth) root).steps

end Options

/-- A turn was asked for by an image element at a path, and answers it. -/
structure Turn.Accounts (printer : Printer α) (image : String × Node) (turn : Turn Site α) :
    Prop where
  node : turn.mark.node = image.2
  answered : Answered turn.before image.1 (turn.printing printer)

/-- A receipt accounts for the image elements that are reached. -/
structure AccountsForImages (printer : Printer α) (images : List (String × Node))
    (turns : List (Turn Site α)) (receipt : Printing) : Prop where
  /-- Each of them has a turn, in document order, with exactly one answer. -/
  each : List.Forall₂ (Turn.Accounts printer) images (turns.filter (·.step.isPicture))
  others : ∀ turn ∈ turns, turn.step.isPicture = false → (turn.printing printer).answers = []
  /-- There is no other answer. -/
  answers : List.Forall₂ (fun image event => event.AnswersFor image.1) images receipt.answers
  inOrder : (receipt.diagnostics.map (·.path)).Sublist (images.map (·.1))
  count : receipt.commands.countP (·.isRaster) + receipt.commands.countP (·.isSymbol) +
    receipt.diagnostics.length = images.length

/-! ## The account of a receipt -/

/-- There is one answer where an image element is answered. -/
theorem Answered.exists_only {before : Registers} {path : String} {printing : Printing}
    (answered : Answered before path printing) :
    ∃ event, printing.answers = [event] ∧ event.AnswersFor path := by
  cases answered with
  | raster bytes width height only => exact ⟨_, only, rfl⟩
  | symbol data size only => exact ⟨_, only, rfl⟩
  | skipped message only => exact ⟨.noted ⟨path, message⟩, by rw [only]; rfl, rfl⟩

/-- The answers of turns that account for image elements are one for each. -/
theorem answers_of_accounts {printer : Printer α} {images : List (String × Node)}
    {turns : List (Turn Site α)} (each : List.Forall₂ (Turn.Accounts printer) images turns) :
    List.Forall₂ (fun image event => PrintEvent.AnswersFor image.1 event) images
      (turns.flatMap fun turn => (turn.printing printer).answers) := by
  induction each with
  | nil => exact List.Forall₂.nil
  | cons accounts _ ih =>
    obtain ⟨event, only, answers⟩ := accounts.answered.exists_only
    rw [List.flatMap_cons, only]
    exact List.Forall₂.cons answers ih

/-- Turns without an answer may be left out. -/
theorem flatMap_answers_filter {printer : Printer α} {turns : List (Turn σ α)}
    (others : ∀ turn ∈ turns, turn.step.isPicture = false → (turn.printing printer).answers = []) :
    (turns.flatMap fun turn => (turn.printing printer).answers) =
      (turns.filter (·.step.isPicture)).flatMap fun turn => (turn.printing printer).answers := by
  induction turns with
  | nil => rfl
  | cons turn turns ih =>
    have rest := ih fun other member => others other (List.mem_cons_of_mem _ member)
    rw [List.flatMap_cons, List.filter_cons, rest]
    split
    · rfl
    · rename_i plain
      rw [others turn (List.mem_cons_self ..) (Bool.eq_false_iff.2 plain), List.nil_append]

/-- The notes among answers come in the order of the elements. -/
theorem sublist_of_answers {images : List (String × Node)} {events : List PrintEvent}
    (answers : List.Forall₂ (fun image event => PrintEvent.AnswersFor image.1 event) images
      events) :
    ((events.filterMap (·.diagnostic?)).map (·.path)).Sublist (images.map (·.1)) := by
  induction answers with
  | nil => exact List.Sublist.refl _
  | @cons image event images events own _ ih =>
    cases event with
    | sent command => exact ih.cons _
    | noted diagnostic =>
      have same : diagnostic.path = image.1 := own
      show (diagnostic.path :: _).Sublist (image.1 :: _)
      rw [same]
      exact ih.cons_cons _

/-- The turns of pictures account for the image elements that their steps stand for. -/
theorem accounts_of_standsFor {printer : Printer α} {naming : Naming}
    {images : List (String × Node)} {turns : List (Turn Site α)}
    (stand : List.Forall₂ (fun image turn => Traced.StandsFor naming image (turn.mark, turn.step))
      images turns)
    (pictures : ∀ turn ∈ turns, turn.step.isPicture)
    (ended : ∀ turn ∈ turns, (turn.printing printer).fault = none) :
    List.Forall₂ (Turn.Accounts printer) images turns := by
  induction stand with
  | nil => exact List.Forall₂.nil
  | @cons image turn images turns own _ ih =>
    obtain ⟨path, known⟩ := Option.isSome_iff_exists.1 (pictures turn (List.mem_cons_self ..))
    have answered := Answered.perform printer known (ended turn (List.mem_cons_self ..))
    rw [own.path path known] at answered
    refine List.Forall₂.cons ⟨own.node, answered⟩ (ih ?_ ?_)
    · exact fun other member => pictures other (List.mem_cons_of_mem _ member)
    · exact fun other member => ended other (List.mem_cons_of_mem _ member)

/-- The picture steps of a tree that is laid out to its end stand for the image elements that the
walk reaches. -/
theorem Scheme.standsFor_images (scheme : Scheme α) {anchors : Anchors α} {root : Node}
    (ended : (scheme.trace anchors root).fault = none) :
    List.Forall₂ (Traced.StandsFor scheme.naming) (root.images scheme.naming)
      ((scheme.trace anchors root).steps.filter fun marked => marked.2.isPicture) := by
  have reaches := scheme.reaches_trace anchors root ended
  have images := List.rel_filter
    (p := fun place => decide (place.2.kind? scheme.naming = some .image))
    (q := fun marked => marked.2.isPicture) (fun place marked stands => by
      show _ = true ↔ _ = true
      rw [stands.picture]) reaches
  have chosen : (scheme.trace anchors root).shown.filter (fun marked => marked.2.isPicture) =
      (scheme.trace anchors root).steps.filter fun marked => marked.2.isPicture := by
    unfold Traced.shown
    rw [List.filter_filter]
    refine List.filter_congr fun marked _ => ?_
    cases marked.2.isPicture with
    | false => rfl
    | true => exact Bool.or_true _
  rw [chosen] at images
  exact images

/-- Printing a layout that comes to its end is carrying out its steps. -/
theorem Printer.print_of_ended (printer : Printer α) (registers : Registers) {layout : Layout α}
    (ended : layout.fault = none) :
    printer.print registers layout = printer.performAll registers layout.steps := by
  unfold print
  rw [ended]
  exact andThen_done _

/-- A receipt that is printed to its end is the turns of its plan, and then the cut. -/
theorem turns_of_printReceipt {options : Options} {protocol : Protocol} {pageWidth : α}
    {root : Node} (ended : (printReceipt options protocol pageWidth root).fault = none) :
    let printer : Printer α := options.printer protocol
    let turns := options.turns protocol pageWidth root
    let traced := options.cellScheme.trace (.start pageWidth) root
    let receipt := printReceipt options protocol pageWidth root
    traced.fault = none ∧ turns.map (fun turn => (turn.mark, turn.step)) = traced.steps ∧
      printer.Follow .unknown receipt.registers turns ∧
      receipt.events = (turns.flatMap fun turn => (turn.printing printer).events) ++
        options.cutCommands.map .sent := by
  intro printer turns traced receipt
  have printed : (printTree options protocol pageWidth root).fault = none := by
    cases goesOn : (printTree options protocol pageWidth root).fault with
    | none => rfl
    | some fault =>
      unfold printReceipt at ended
      rw [andThen_of_fault goesOn, goesOn] at ended
      cases ended
  have whole : receipt = Printing.andThen (printTree options protocol pageWidth root) _ := rfl
  have events : receipt.events = (printTree options protocol pageWidth root).events ++
      options.cutCommands.map .sent := by
    rw [whole]
    unfold Printing.andThen
    rw [printed]
    rfl
  have registers : receipt.registers = (printTree options protocol pageWidth root).registers := by
    rw [whole, registers_andThen printed]
    rfl
  rw [events, registers]
  rw [printTree_eq] at printed ⊢
  have laidOut : traced.fault = none := Printer.fault_layout_of_print printed
  have carriedOut := Printer.fault_performAll_of_print printed
  obtain ⟨marks, follow, all⟩ := printer.turns_of_ended carriedOut
  have last : printer.print .unknown traced.plain = _ := printer.print_of_ended .unknown laidOut
  exact ⟨laidOut, marks, by rw [last]; exact follow, by rw [last]; exact congrArg (· ++ _) all⟩

/-- A receipt that is printed to its end accounts for every image element that the walk reaches,
exactly once and in document order. Its turns follow one another, so the registers behind an element
that is left out are those before it. -/
theorem accountsForImages_printReceipt {options : Options} {protocol : Protocol} {pageWidth : α}
    {root : Node} (ended : (printReceipt options protocol pageWidth root).fault = none) :
    let printer : Printer α := options.printer protocol
    let turns := options.turns protocol pageWidth root
    let receipt := printReceipt options protocol pageWidth root
    printer.Follow .unknown receipt.registers turns ∧
      receipt.events = (turns.flatMap fun turn => (turn.printing printer).events) ++
        options.cutCommands.map .sent ∧
      AccountsForImages printer (root.images options.naming) turns receipt := by
  intro printer turns receipt
  obtain ⟨laidOut, marks, follow, events⟩ := turns_of_printReceipt ended
  refine ⟨follow, events, ?_⟩
  have others (turn : Turn Site α) (plain : turn.step.isPicture = false) :
      (turn.printing printer).answers = [] := silent_perform printer turn.before plain
  have stand := options.cellScheme.standsFor_images laidOut
  rw [← marks, List.filter_map, List.forall₂_map_right_iff] at stand
  have each : List.Forall₂ (Turn.Accounts printer) (root.images options.naming)
      (turns.filter (·.step.isPicture)) := by
    apply accounts_of_standsFor stand
    · exact fun turn member => (List.mem_filter.1 member).2
    · exact fun turn member => follow.ended turn (List.mem_filter.1 member).1
  have cut : (options.cutCommands.map PrintEvent.sent).filter (·.isAnswer) = [] := by
    unfold Options.cutCommands
    cases options.cut with
    | none => rfl
    | some kind => rfl
  have all : receipt.answers =
      turns.flatMap fun turn => (turn.printing printer).answers := by
    unfold Printing.answers
    rw [show receipt.events = _ from events, List.filter_append, cut, List.append_nil,
      List.filter_flatMap]
  have answers := answers_of_accounts each
  rw [← flatMap_answers_filter fun turn _ => others turn, ← all] at answers
  exact {
    each
    others := fun turn _ => others turn
    answers
    inOrder := by
      rw [diagnostics_eq]
      exact sublist_of_answers answers
    count := by
      rw [length_answers]
      exact answers.length_eq.symm }

/-- A receipt with an image element without a source, a symbol, a source that is no picture, and a
picture in a view of its own. -/
def imageReceipt : Node :=
  ⟨"Document", [], none,
    [⟨"Page", [], none,
      [⟨"Image", [], none, []⟩,
        ⟨"Image", [("qrData", .text "42")], none, []⟩,
        ⟨"Text", [("children", .text "Total")], none, []⟩,
        ⟨"Image", [("source", .text "logo.png")], none, []⟩,
        ⟨"View", [], some [("width", .int 1)],
          [⟨"Image", [("source", .picture (.gray (Grid.ofFn 1 1 fun _ _ => 0)))], none, []⟩]⟩]⟩]⟩

theorem accountsForImages_printReceipt_imageReceipt :
    let options : Options := ⟨.standard, none⟩
    let printer : Printer Rat := options.printer .escBematech
    let turns := options.turns .escBematech (10 : Rat) imageReceipt
    let receipt := printReceipt options .escBematech (10 : Rat) imageReceipt
    receipt.fault = none ∧ (imageReceipt.images options.naming).length = 4 ∧
      receipt.diagnostics.length = 3 ∧
      printer.Follow .unknown receipt.registers turns ∧
      receipt.events = (turns.flatMap fun turn => (turn.printing printer).events) ++
        options.cutCommands.map .sent ∧
      AccountsForImages printer (imageReceipt.images options.naming) turns receipt :=
  ⟨by decide +kernel, by decide +kernel, by decide +kernel,
    accountsForImages_printReceipt (by decide +kernel)⟩

end Receipt
