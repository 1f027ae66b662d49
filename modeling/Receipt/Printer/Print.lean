import Receipt.Diagnostic
import Receipt.Layout.Plan
import Receipt.Picture.Source
import Receipt.Printer.Command
import Receipt.Text.Wrap

/-!
# Printing a plan

`Printer.perform` carries out one step of a plan: it gives the commands that are sent and the notes
about what was left out, in order, and the registers after them. The registers are what the printer
is known to be set to; a register is set only when it is unknown or has another value. A fault ends
the printing where it is met, and what was sent before it has been sent.
-/

namespace Receipt

/-- What the printer is known to be set to; none is unknown. -/
structure Registers where
  align : Option Alignment
  bold : Option Bool
  size : Option CharSize
deriving DecidableEq, Repr

namespace Registers

/-- The registers of a printer that has just been reset. -/
def unknown : Registers := ⟨none, none, none⟩

/-- The size that is set, or else the plain one. -/
def sizeOrNormal (registers : Registers) : CharSize := registers.size.getD .normal

/-- The commands that set alignment, size and weight, each only when it changes; no weight leaves
that register alone. The size command carries a bold bit: the weight asked for, or else the one that
is set. -/
def settings (registers : Registers) (align : Alignment) (size : CharSize) (bold : Option Bool) :
    List Command :=
  (if registers.align = some align then [] else [Command.align align]) ++
  (if registers.size = some size then []
    else [Command.characterSize size (bold.getD (registers.bold.getD false))]) ++
  (match bold with
    | some weight => if registers.bold = some weight then [] else [Command.emphasis weight]
    | none => [])

/-- The registers behind those commands. -/
def after (registers : Registers) (align : Alignment) (size : CharSize) (bold : Option Bool) :
    Registers :=
  ⟨some align, bold.or registers.bold, some size⟩

end Registers

/-- Why printing ended early. -/
inductive PrintFault where
  /-- A width or an amount is no number, or not a finite one. -/
  | number (fault : NumberFault)
  /-- Characters of no width do not fill a line. -/
  | noColumns
  /-- A command has no bytes. -/
  | command (fault : CommandFault)
  /-- A source cannot be read at all. -/
  | source (fault : SourceFault)
deriving DecidableEq, Repr

/-- What happens while a plan is printed. -/
inductive PrintEvent where
  | sent (command : Command)
  | noted (diagnostic : Diagnostic)
deriving DecidableEq, Repr

/-- The course of printing: the events, the registers after them, and the fault that ended it. -/
structure Printing where
  events : List PrintEvent
  registers : Registers
  fault : Option PrintFault
deriving Repr

namespace Printing

/-- Nothing happens. -/
def done (registers : Registers) : Printing := ⟨[], registers, none⟩

/-- Commands are sent. -/
def send (registers : Registers) (commands : List Command) : Printing :=
  ⟨commands.map .sent, registers, none⟩

/-- An element is left out. -/
def note (registers : Registers) (path message : String) : Printing :=
  ⟨[.noted ⟨path, message⟩], registers, none⟩

/-- Printing ends. -/
def failed (registers : Registers) (fault : PrintFault) : Printing := ⟨[], registers, some fault⟩

/-- Goes on behind some printing, unless it ended at a fault. -/
def andThen (first : Printing) (next : Registers → Printing) : Printing :=
  match first.fault with
  | some _ => first
  | none =>
    let second := next first.registers
    { second with events := first.events ++ second.events }

/-- Sets registers. -/
def set (registers : Registers) (align : Alignment) (size : CharSize) (bold : Option Bool) :
    Printing :=
  send (registers.after align size bold) (registers.settings align size bold)

/-- Goes on with a whole number, or ends at its fault. -/
def withNumber (registers : Registers) (number : Except NumberFault Int)
    (next : Int → Printing) : Printing :=
  match number with
  | .ok n => next n
  | .error fault => failed registers (.number fault)

end Printing

/-- A receipt printer: its protocol, how styles are resolved for it, the line spacing to set, and the
dots in the width of a character. -/
structure Printer (α : Type) where
  protocol : Protocol
  resolver : Resolver α
  lineSpacing : Option Int
  dotsPerCharacter : Int

namespace Printer

variable {α : Type} [Scalar α]

/-- The commands for one line of text; an empty line is only ended. -/
def lineCommands (line : String) : List Command :=
  if line.isEmpty then [.lineFeed 1] else [.text line, .lineFeed 1]

/-- How many characters of a size fill the content box; at least one. -/
def columns (extent : Extent α) (size : CharSize) : Except PrintFault Int :=
  match Scalar.truncate extent.width with
  | .error fault => .error (.number fault)
  | .ok width => if size.width = 0 then .error .noColumns else .ok (max 1 (width.fdiv size.width))

/-- Prints a text, wrapped to the content box. -/
def printText (registers : Registers) (content : String) (look : TextLook α)
    (extent : Extent α) : Printing :=
  if content.isEmpty then Printing.send registers (lineCommands "")
  else
    match columns extent look.size with
    | .error fault => Printing.failed registers fault
    | .ok columns =>
      (Printing.set registers look.align look.size (some look.bold)).andThen fun registers =>
        Printing.send registers ((Text.wrapText content columns).flatMap lineCommands)

/-- Prints one part of a row; only a part that shows something sets the weight. -/
def printSegment (registers : Registers) (segment : Segment) : Printing :=
  let text := if segment.text.isEmpty then [] else [Command.text segment.text]
  if Text.isBlankText segment.text.toList then Printing.send registers text
  else
    (Printing.set registers .left .normal (some segment.bold)).andThen fun registers =>
      Printing.send registers text

/-- Prints the parts of a row. -/
def printSegments (registers : Registers) : List Segment → Printing
  | [] => Printing.done registers
  | segment :: segments =>
    (printSegment registers segment).andThen fun registers => printSegments registers segments

/-- Prints a row on one line. -/
def printRow (printer : Printer α) (registers : Registers) (cells : List (Cell α))
    (justify : Value) (extent : Extent α) : Printing :=
  Printing.withNumber registers (Scalar.truncate extent.width) fun width =>
    match Row.segments printer.resolver cells width justify with
    | .error fault => Printing.failed registers (.number fault)
    | .ok segments =>
      (Printing.set registers .left .normal none).andThen fun registers =>
      (printSegments registers segments).andThen fun registers =>
        Printing.send registers [.lineFeed 1]

/-- Prints a divider across the content box. -/
def printDivider (registers : Registers) (border : Border) (extent : Extent α) : Printing :=
  (Printing.set registers .left .normal none).andThen fun registers =>
    Printing.withNumber registers (Scalar.truncate extent.width) fun width =>
      Printing.send registers (lineCommands (dividerText border width))

/-- Feeds whole lines. -/
def printSpace (registers : Registers) (amount : α) : Printing :=
  Printing.withNumber registers (Scalar.truncate amount) fun lines =>
    if 0 < lines then Printing.send registers [.lineFeed lines] else Printing.done registers

/-- Prints a picture as wide as the content box, or leaves it out. -/
def printPicture (printer : Printer α) (registers : Registers) (source : Value)
    (align : Alignment) (path : String) (extent : Extent α) : Printing :=
  Printing.withNumber registers (Scalar.truncate extent.width) fun width =>
    match rasterize source (width * printer.dotsPerCharacter) true with
    | .error fault =>
      if fault.isSkipped then Printing.note registers path ("skipping image: " ++ fault.message)
      else Printing.failed registers (.source fault)
    | .ok bitmap =>
      (Printing.set registers align registers.sizeOrNormal none).andThen fun registers =>
        let command := Command.raster bitmap.pack bitmap.width bitmap.height
        match printer.protocol.encode command with
        | .error fault => Printing.failed registers (.command fault)
        | .ok _ => Printing.send registers [command]

/-- Prints a symbol, or leaves it out when the protocol has no bytes for it. -/
def printSymbol (printer : Printer α) (registers : Registers) (data : String) (size : Int)
    (align : Alignment) (path : String) : Printing :=
  match printer.protocol.encode (.symbol data size) with
  | .error (.unsupported protocol command hint) =>
    Printing.note registers path (unsupportedMessage protocol command hint)
  | .error fault =>
    Printing.note registers path ("skipping QR code: " ++ (fault.message?).getD "")
  | .ok _ =>
    (Printing.set registers align registers.sizeOrNormal none).andThen fun registers =>
      Printing.send registers [.symbol data size]

/-- Carries out one step. -/
def perform (printer : Printer α) (registers : Registers) : Step α → Printing
  | .reset =>
    Printing.send .unknown (.init :: (printer.lineSpacing.toList.map fun dots =>
      .lineSpacing (some dots)))
  | .page _ _ => Printing.done registers
  | .text content look extent => printText registers content look extent
  | .row cells justify extent => printer.printRow registers cells justify extent
  | .divider border extent => printDivider registers border extent
  | .space amount => printSpace registers amount
  | .picture source align path _ extent =>
    printer.printPicture registers source align path extent
  | .symbol data size align path _ => printer.printSymbol registers data size align path
  | .sourceless path => Printing.note registers path "image has no source"

/-- Carries out steps in order. -/
def performAll (printer : Printer α) (registers : Registers) : List (Step α) → Printing
  | [] => Printing.done registers
  | step :: steps =>
    (printer.perform registers step).andThen fun registers => printer.performAll registers steps

/-- Prints a layout: its steps, and then the fault that ended it. -/
def print (printer : Printer α) (registers : Registers) (layout : Layout α) : Printing :=
  (printer.performAll registers layout.steps).andThen fun registers =>
    match layout.fault with
    | some fault => Printing.failed registers (.number fault)
    | none => Printing.done registers

/-- The bytes of a command, none where it has none. -/
def bytesOf (protocol : Protocol) (command : Command) : List UInt8 :=
  match protocol.encode command with
  | .ok bytes => bytes
  | .error _ => []

end Printer

namespace PrintEvent

/-- The command of an event that sends one. -/
def command? : PrintEvent → Option Command
  | sent command => some command
  | noted _ => none

/-- The note of an event that leaves an element out. -/
def diagnostic? : PrintEvent → Option Diagnostic
  | sent _ => none
  | noted diagnostic => some diagnostic

end PrintEvent

namespace Printing

/-- The commands that are sent, in order. -/
def commands (printing : Printing) : List Command := printing.events.filterMap (·.command?)

/-- The notes, in order. -/
def diagnostics (printing : Printing) : List Diagnostic :=
  printing.events.filterMap (·.diagnostic?)

/-- The bytes that are sent. -/
def bytes (protocol : Protocol) (printing : Printing) : List UInt8 :=
  printing.commands.flatMap (Printer.bytesOf protocol)

end Printing

end Receipt
