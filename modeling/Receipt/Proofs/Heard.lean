import Receipt.Convert
import Receipt.Proofs.Perform

/-!
# What is heard of the printing

Somebody who hears the commands and nothing else knows two things of the printer: the settings made
since its last reset, and whether a line has been begun that is not ended yet. `Heard` holds the two,
and `Heard.Admits` says which command is in order behind what was heard: one that needs the start of
a line finds no line open, and one that sets a register changes it.

`inOrder_printReceipt` says that a receipt is printed in order from its first command to the last
one, whatever the tree, the printer and the arithmetic. It rests on an invariant of the run that
holds between any two steps of the plan: the registers of the printing are the ones heard, and no
line is open. Inside a row a line may be open; there the registers are those that a row prints with,
so that none of its parts asks for another alignment.
-/

namespace Receipt

namespace Command

/-- Whether a command takes effect only at the start of a line. -/
def needsLineStart : Command → Bool
  | init | align _ | lineSpacing _ | raster .. | symbol .. | cut .. => true
  | characterSize .. | emphasis _ | text _ | lineFeed _ | feed _ => false

/-- Whether a line is open behind a command: a text that is not empty opens one, a line feed ends
it. -/
def leavesOpen (isOpen : Bool) : Command → Bool
  | text content => isOpen || !content.isEmpty
  | lineFeed lines => isOpen && decide (lines ≤ 0)
  | _ => isOpen

/-- What is known of the registers behind a command. -/
def registersBehind (registers : Registers) : Command → Registers
  | init => .unknown
  | align side => { registers with align := some side }
  | characterSize size _ => { registers with size := some size }
  | emphasis bold => { registers with bold := some bold }
  | _ => registers

/-- A command that sets a register gives it another value than the known one. -/
def Changes (registers : Registers) : Command → Prop
  | align side => registers.align ≠ some side
  | characterSize size _ => registers.size ≠ some size
  | emphasis bold => registers.bold ≠ some bold
  | _ => True

end Command

/-- What is known to somebody who hears the commands. -/
structure Heard where
  registers : Registers
  /-- A line has been begun that is not ended. -/
  isOpen : Bool

namespace Heard

/-- What is known behind a command. -/
def next (heard : Heard) (command : Command) : Heard :=
  ⟨command.registersBehind heard.registers, command.leavesOpen heard.isOpen⟩

/-- What is known behind commands. -/
def after (heard : Heard) (commands : List Command) : Heard := commands.foldl next heard

/-- A command is in order behind what was heard. -/
structure Admits (heard : Heard) (command : Command) : Prop where
  atLineStart : command.needsLineStart → heard.isOpen = false
  changes : command.Changes heard.registers

/-- Every command is in order where it stands. -/
def AdmitsAll (heard : Heard) : List Command → Prop
  | [] => True
  | command :: commands => heard.Admits command ∧ (heard.next command).AdmitsAll commands

variable {heard : Heard}

@[simp] theorem after_nil (heard : Heard) : heard.after [] = heard := rfl

@[simp] theorem after_cons (heard : Heard) (command : Command) (commands : List Command) :
    heard.after (command :: commands) = (heard.next command).after commands := rfl

@[simp] theorem after_append (heard : Heard) (first second : List Command) :
    heard.after (first ++ second) = (heard.after first).after second := by
  unfold after
  rw [List.foldl_append]

theorem admitsAll_append {first second : List Command} :
    heard.AdmitsAll (first ++ second) ↔
      heard.AdmitsAll first ∧ (heard.after first).AdmitsAll second := by
  induction first generalizing heard with
  | nil => exact (iff_of_eq (true_and _)).symm
  | cons command first ih =>
    rw [List.cons_append, AdmitsAll, AdmitsAll, ih, and_assoc]
    rfl

/-- What is in order as a whole is in order at every place. -/
theorem AdmitsAll.at {commands before behind : List Command} {command : Command}
    (all : heard.AdmitsAll commands) (place : commands = before ++ command :: behind) :
    (heard.after before).Admits command := by
  subst place
  exact (admitsAll_append.1 all).2.1

end Heard

/-! ## The laws of printing in order -/

/-- Some printing goes on in order behind what was heard. Behind it the registers are the ones
heard, and a line is open or not. -/
structure InOrder (heard : Heard) (printing : Printing) (isOpen : Bool) : Prop where
  admits : heard.AdmitsAll printing.commands
  behind : heard.after printing.commands = ⟨printing.registers, isOpen⟩

namespace InOrder

variable {registers : Registers} {isOpen : Bool} {heard : Heard}

theorem silent {printing : Printing} (sends : printing.commands = [])
    (keeps : printing.registers = registers) : InOrder ⟨registers, isOpen⟩ printing isOpen := by
  constructor
  · rw [sends]
    trivial
  · rw [sends, keeps]
    rfl

theorem done (registers : Registers) (isOpen : Bool) :
    InOrder ⟨registers, isOpen⟩ (.done registers) isOpen := silent rfl rfl

theorem failed (registers : Registers) (isOpen : Bool) (fault : PrintFault) :
    InOrder ⟨registers, isOpen⟩ (.failed registers fault) isOpen := silent rfl rfl

theorem note (registers : Registers) (isOpen : Bool) (path message : String) :
    InOrder ⟨registers, isOpen⟩ (.note registers path message) isOpen := silent rfl rfl

theorem send {behind : Registers} {commands : List Command} (admits : heard.AdmitsAll commands)
    (known : heard.after commands = ⟨behind, isOpen⟩) :
    InOrder heard (.send behind commands) isOpen := by
  constructor
  · rw [Printing.commands_send]
    exact admits
  · rw [Printing.commands_send]
    exact known

/-- Commands sent in turn. -/
theorem send_append {first second : List Command} {between behind : Registers} {wasOpen : Bool}
    (former : InOrder heard (.send between first) wasOpen)
    (latter : InOrder ⟨between, wasOpen⟩ (.send behind second) isOpen) :
    InOrder heard (.send behind (first ++ second)) isOpen := by
  obtain ⟨admits, known⟩ := former
  obtain ⟨admitsRest, knownRest⟩ := latter
  rw [Printing.commands_send] at admits known admitsRest knownRest
  refine send (Heard.admitsAll_append.2 ⟨admits, ?_⟩) ?_
  · rw [known]
    exact admitsRest
  · rw [Heard.after_append, known]
    exact knownRest

/-- Order goes on from one part of the printing to the next. -/
theorem andThen {first : Printing} {next : Registers → Printing} {between : Bool}
    (former : InOrder heard first between) (goesOn : first.fault = none)
    (latter : InOrder ⟨first.registers, between⟩ (next first.registers) isOpen) :
    InOrder heard (first.andThen next) isOpen := by
  constructor
  · rw [Printing.commands_andThen goesOn, Heard.admitsAll_append]
    refine ⟨former.admits, ?_⟩
    rw [former.behind]
    exact latter.admits
  · rw [Printing.commands_andThen goesOn, Printing.registers_andThen goesOn, Heard.after_append,
      former.behind]
    exact latter.behind

/-- Where the line is open in the same way before and behind each part, a fault between them does
no harm. -/
theorem andThen_level {first : Printing} {next : Registers → Printing}
    (former : InOrder heard first isOpen)
    (latter : ∀ registers, InOrder ⟨registers, isOpen⟩ (next registers) isOpen) :
    InOrder heard (first.andThen next) isOpen := by
  cases ended : first.fault with
  | none => exact former.andThen ended (latter first.registers)
  | some fault =>
    rw [Printing.andThen_of_fault ended]
    exact former

theorem withNumber {number : Except NumberFault Int} {next : Int → Printing}
    (later : ∀ n, InOrder ⟨registers, isOpen⟩ (next n) isOpen) :
    InOrder ⟨registers, isOpen⟩ (.withNumber registers number next) isOpen := by
  cases number with
  | error fault => exact failed registers isOpen _
  | ok n => exact later n

/-- The alignment is set in order when no line is open, or when it is the one in force. -/
theorem alignSetting (registers : Registers) {align : Alignment}
    (level : isOpen = false ∨ registers.align = some align) :
    InOrder ⟨registers, isOpen⟩
      (.send { registers with align := some align }
        (if registers.align = some align then [] else [.align align])) isOpen := by
  by_cases known : registers.align = some align
  · rw [if_pos known, ← known]
    exact done registers isOpen
  · rw [if_neg known]
    have atLineStart := level.resolve_right known
    exact send ⟨⟨fun _ => atLineStart, known⟩, trivial⟩ rfl

theorem sizeSetting (registers : Registers) (isOpen : Bool) (size : CharSize) (bold : Bool) :
    InOrder ⟨registers, isOpen⟩
      (.send { registers with size := some size }
        (if registers.size = some size then [] else [.characterSize size bold])) isOpen := by
  by_cases known : registers.size = some size
  · rw [if_pos known, ← known]
    exact done registers isOpen
  · rw [if_neg known]
    exact send ⟨⟨nofun, known⟩, trivial⟩ rfl

theorem weightSetting (registers : Registers) (isOpen : Bool) (bold : Option Bool) :
    InOrder ⟨registers, isOpen⟩
      (.send { registers with bold := bold.or registers.bold }
        (match bold with
          | some weight => if registers.bold = some weight then [] else [.emphasis weight]
          | none => [])) isOpen := by
  cases bold with
  | none => exact done registers isOpen
  | some weight =>
    simp only [Option.some_or]
    by_cases known : registers.bold = some weight
    · rw [if_pos known, ← known]
      exact done registers isOpen
    · rw [if_neg known]
      exact send ⟨⟨nofun, known⟩, trivial⟩ rfl

/-- Settings are in order when no line is open, or when the alignment is the one in force. -/
theorem set (registers : Registers) (align : Alignment) (size : CharSize) (bold : Option Bool)
    (level : isOpen = false ∨ registers.align = some align) :
    InOrder ⟨registers, isOpen⟩ (.set registers align size bold) isOpen := by
  have aligned := alignSetting registers level
  have sized := sizeSetting { registers with align := some align } isOpen size
    (bold.getD (registers.bold.getD false))
  have weighed := weightSetting { registers with align := some align, size := some size } isOpen bold
  exact (aligned.send_append sized).send_append weighed

theorem setAtStart (registers : Registers) (align : Alignment) (size : CharSize)
    (bold : Option Bool) : InOrder ⟨registers, false⟩ (.set registers align size bold) false :=
  set registers align size bold (Or.inl rfl)

/-! ### Lines -/

/-- A part of a line opens the line, or is empty. -/
theorem part (registers : Registers) (wasOpen : Bool) (part : String) :
    ∃ isOpen, InOrder ⟨registers, wasOpen⟩
      (.send registers (if part.isEmpty then [] else [.text part])) isOpen := by
  split
  · exact ⟨wasOpen, done registers wasOpen⟩
  · exact ⟨_, send ⟨⟨nofun, trivial⟩, trivial⟩ rfl⟩

/-- Lines fed end the line that is open. -/
theorem lineFeed (registers : Registers) (wasOpen : Bool) {lines : Int} (some : 0 < lines) :
    InOrder ⟨registers, wasOpen⟩ (.send registers [.lineFeed lines]) false := by
  refine send ⟨⟨nofun, trivial⟩, trivial⟩ ?_
  have ended : (wasOpen && decide (lines ≤ 0)) = false := by
    rw [decide_eq_false (by omega), Bool.and_false]
  exact congrArg (Heard.mk registers) ended

/-- A line, with its end. -/
theorem line (registers : Registers) (line : String) :
    InOrder ⟨registers, false⟩ (.send registers (Printer.lineCommands line)) false := by
  unfold Printer.lineCommands
  have ended (wasOpen : Bool) := lineFeed registers wasOpen Int.zero_lt_one
  split
  · exact ended false
  · have opened : InOrder ⟨registers, false⟩ (.send registers [.text line]) _ :=
      send ⟨⟨nofun, trivial⟩, trivial⟩ rfl
    exact opened.send_append (ended _)

theorem lines (registers : Registers) (lines : List String) :
    InOrder ⟨registers, false⟩ (.send registers (lines.flatMap Printer.lineCommands)) false := by
  induction lines with
  | nil => exact done registers false
  | cons first lines ih =>
    rw [List.flatMap_cons]
    exact (line registers first).send_append ih

/-! ### Steps -/

variable {α : Type} [Scalar α]

theorem printText (registers : Registers) (content : String) (look : TextLook α)
    (extent : Extent α) :
    InOrder ⟨registers, false⟩ (Printer.printText registers content look extent) false := by
  unfold Printer.printText
  split
  · exact line registers ""
  · cases Printer.columns extent look.size with
    | error fault => exact failed registers false fault
    | ok columns =>
      have settings := setAtStart registers look.align look.size (some look.bold)
      exact settings.andThen_level fun registers => lines registers _

/-- A part of a row may find the line open: it asks for the alignment in force. -/
theorem printSegment {registers : Registers} (inRow : registers.InRow) (wasOpen : Bool)
    (segment : Segment) :
    ∃ isOpen, InOrder ⟨registers, wasOpen⟩ (Printer.printSegment registers segment) isOpen := by
  unfold Printer.printSegment
  simp only
  split
  · exact part registers wasOpen segment.text
  · have settings : InOrder ⟨registers, wasOpen⟩ _ wasOpen :=
      set registers .left .normal (some segment.bold) (Or.inr inRow.1)
    obtain ⟨isOpen, shown⟩ := part (registers.after .left .normal (some segment.bold)) wasOpen
      segment.text
    exact ⟨isOpen, settings.andThen rfl shown⟩

theorem printSegments {registers : Registers} (inRow : registers.InRow) (wasOpen : Bool)
    (segments : List Segment) :
    ∃ isOpen, InOrder ⟨registers, wasOpen⟩ (Printer.printSegments registers segments) isOpen := by
  induction segments generalizing registers wasOpen with
  | nil => exact ⟨wasOpen, done registers wasOpen⟩
  | cons segment segments ih =>
    obtain ⟨between, first⟩ := printSegment inRow wasOpen segment
    obtain ⟨isOpen, rest⟩ := ih (Prints.inRow_printSegment inRow segment) between
    exact ⟨isOpen, first.andThen (Prints.fault_printSegment registers segment) rest⟩

theorem printRow (printer : Printer α) (registers : Registers) (cells : List (Cell α))
    (justify : Value) (extent : Extent α) :
    InOrder ⟨registers, false⟩ (printer.printRow registers cells justify extent) false := by
  unfold Printer.printRow
  refine withNumber fun width => ?_
  cases Row.segments printer.resolver cells width justify with
  | error fault => exact failed registers false _
  | ok segments =>
    have settings := setAtStart registers .left .normal none
    obtain ⟨isOpen, parts⟩ := printSegments (registers.inRow_after none) false segments
    refine settings.andThen rfl ?_
    exact parts.andThen (Prints.fault_printSegments _ segments)
      (lineFeed _ isOpen Int.zero_lt_one)

theorem printDivider (registers : Registers) (border : Border) (extent : Extent α) :
    InOrder ⟨registers, false⟩ (Printer.printDivider registers border extent) false := by
  unfold Printer.printDivider
  have settings := setAtStart registers .left .normal none
  exact settings.andThen_level fun registers => withNumber fun width => line registers _

theorem printSpace (registers : Registers) (amount : α) :
    InOrder ⟨registers, false⟩ (Printer.printSpace registers amount) false := by
  unfold Printer.printSpace
  refine withNumber fun lines => ?_
  split
  · rename_i some
    exact lineFeed registers false some
  · exact done registers false

/-- A command that only needs the start of a line. -/
theorem atLineStart (registers : Registers) {command : Command}
    (changes : command.Changes registers) (kept : (⟨registers, false⟩ : Heard).next command =
      ⟨registers, false⟩) :
    InOrder ⟨registers, false⟩ (.send registers [command]) false :=
  send ⟨⟨fun _ => rfl, changes⟩, trivial⟩ kept

theorem printPicture (printer : Printer α) (registers : Registers) (source : Value)
    (align : Alignment) (path : String) (extent : Extent α) :
    InOrder ⟨registers, false⟩ (printer.printPicture registers source align path extent) false := by
  unfold Printer.printPicture
  refine withNumber fun width => ?_
  cases rasterize source (width * printer.dotsPerCharacter) true with
  | error fault =>
    cases fault with
    | badHeader | tooLarge => exact failed registers false _
    | undecodable | badText | badSamples | unknown _ | empty => exact note registers false path _
  | ok bitmap =>
    have settings := setAtStart registers align registers.sizeOrNormal none
    refine settings.andThen_level fun registers => ?_
    simp only
    cases printer.protocol.encode (.raster bitmap.pack bitmap.width bitmap.height) with
    | error fault => exact failed registers false _
    | ok bytes => exact atLineStart registers trivial rfl

omit [Scalar α] in
theorem printSymbol (printer : Printer α) (registers : Registers) (data : String) (size : Int)
    (align : Alignment) (path : String) :
    InOrder ⟨registers, false⟩ (printer.printSymbol registers data size align path) false := by
  unfold Printer.printSymbol
  cases printer.protocol.encode (.symbol data size) with
  | error fault =>
    cases fault with
    | unsupported _ _ _ => exact note registers false path _
    | bitmapSize _ _ _ _ | field | payload _ => exact note registers false path _
  | ok bytes =>
    have settings := setAtStart registers align registers.sizeOrNormal none
    exact settings.andThen_level fun registers => atLineStart registers trivial rfl

theorem reset (printer : Printer α) (registers : Registers) :
    InOrder ⟨registers, false⟩ (printer.perform registers .reset) false := by
  have begun : InOrder ⟨registers, false⟩ (.send .unknown [.init]) false :=
    send ⟨⟨fun _ => rfl, trivial⟩, trivial⟩ rfl
  unfold Printer.perform
  cases printer.lineSpacing with
  | none => exact begun
  | some dots => exact begun.send_append (atLineStart .unknown trivial rfl)

/-! ### The run -/

/-- A step begins and ends with no line open, and the registers behind it are the ones heard. -/
theorem perform (printer : Printer α) (registers : Registers) (step : Step α) :
    InOrder ⟨registers, false⟩ (printer.perform registers step) false := by
  cases step with
  | reset => exact reset printer registers
  | page height wraps => exact done registers false
  | text content look extent => exact printText registers content look extent
  | row cells justify extent => exact printRow printer registers cells justify extent
  | divider border extent => exact printDivider registers border extent
  | space amount => exact printSpace registers amount
  | picture source align path framed extent =>
    exact printPicture printer registers source align path extent
  | symbol data size align path extent =>
    exact printSymbol printer registers data size align path
  | sourceless path => exact note registers false path _

theorem performAll (printer : Printer α) (registers : Registers) (steps : List (Step α)) :
    InOrder ⟨registers, false⟩ (printer.performAll registers steps) false := by
  induction steps generalizing registers with
  | nil => exact done registers false
  | cons step steps ih => exact (perform printer registers step).andThen_level ih

theorem print (printer : Printer α) (registers : Registers) (layout : Layout α) :
    InOrder ⟨registers, false⟩ (printer.print registers layout) false := by
  refine (performAll printer registers layout.steps).andThen_level fun registers => ?_
  cases layout.fault with
  | some fault => exact failed registers false _
  | none => exact done registers false

end InOrder

/-- Before the first command nothing is known, and no line is open. -/
def Heard.nothing : Heard := ⟨.unknown, false⟩

/-- A receipt is printed in order, up to its cut or to the fault that ends it. -/
theorem inOrder_printReceipt {α : Type} [Scalar α] (options : Options) (protocol : Protocol)
    (pageWidth : α) (root : Node) :
    InOrder .nothing (printReceipt options protocol pageWidth root) false := by
  have printed : InOrder .nothing (printTree options protocol pageWidth root) false :=
    InOrder.print _ .unknown _
  refine printed.andThen_level fun registers => ?_
  unfold Options.cutCommands
  cases options.cut with
  | none => exact InOrder.done registers false
  | some kind => exact InOrder.atLineStart registers trivial rfl

end Receipt
