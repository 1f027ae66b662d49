import Receipt.Page.Trace
import Receipt.Printer.Print
import Receipt.Settings.Options
import Receipt.Tree.Check

/-!
# Converting a tree

`convert` checks a tree, lays it out for the backend that the options name, and prints or draws the
plan. Nothing is emitted for a tree that is malformed. A conversion keeps the notes about what was
left out, and a log of what it did.
-/

namespace Receipt

/-- Why there is no conversion. -/
inductive ConversionFault where
  /-- The options are not accepted. -/
  | options (issues : List Issue)
  /-- The settings that the options start from are not accepted. -/
  | settings (issues : List Issue)
  | tree (fault : TreeFault)
  | printing (fault : PrintFault)
  | drawing (fault : DrawFault)
  | content (fault : Page.ContentFault)
deriving Repr

/-- A page as it was drawn and as it is written. -/
structure DrawnPage where
  pageWidth : Float
  fixedHeight : Option Float
  lowest : Float
  marks : List (Mark Float)
  content : Page.Content

/-- What a conversion makes. -/
inductive Output where
  | printed (bytes : List UInt8)
  | drawn (page : DrawnPage)

/-- How much a line of the log matters. -/
inductive LogLevel where
  | debug
  | info
  | warning
deriving DecidableEq, Repr

namespace LogLevel

/-- The name of a level. -/
def name : LogLevel → String
  | debug => "DEBUG"
  | info => "INFO"
  | warning => "WARNING"

end LogLevel

/-- A line of the log. -/
structure LogLine where
  level : LogLevel
  message : String
deriving DecidableEq, Repr

namespace LogLine

/-- A line with its level in front. -/
def text (line : LogLine) : String := line.level.name ++ " " ++ line.message

end LogLine

/-- A finished conversion. -/
structure Conversion where
  backend : Backend
  diagnostics : List Diagnostic
  output : Output
  log : List LogLine

namespace Conversion

/-- Whether an element was left out. -/
def isDegraded (conversion : Conversion) : Bool := !conversion.diagnostics.isEmpty

/-- Two hexadecimal digits for each byte. -/
def hexPairs (bytes : List UInt8) : List String :=
  bytes.map fun byte => String.ofList (hexText 2 byte.toNat)

/-- The line of a command in the trace: its name and its first bytes. -/
def traceLine (protocol : Protocol) (command : Command) : String :=
  let bytes := Printer.bytesOf protocol command
  command.name ++ ": " ++ String.intercalate " " (hexPairs (bytes.take 32)) ++
    (if 32 < bytes.length then " ..." else "")

/-- The lines of the log about printing. The commands are traced only on demand. -/
def printingLog (protocol : Protocol) (trace : Bool) (events : List PrintEvent) : List LogLine :=
  events.flatMap fun
    | .sent command => if trace then [⟨.debug, traceLine protocol command⟩] else []
    | .noted diagnostic => [⟨.warning, diagnostic.line⟩]

/-- The lines of the log about drawing. The parts are traced only on demand. -/
def drawingLog (trace : Bool) (events : List (DrawEvent Float)) : List LogLine :=
  events.flatMap fun
    | .drawn part marks => if trace then [⟨.debug, Page.traceLine part marks⟩] else []
    | .noted diagnostic => [⟨.warning, diagnostic.line⟩]

/-- The first line of the log. -/
def startLine (root : Node) (options : Options) : LogLine :=
  ⟨.info, "Converting " ++ root.type ++ " tree with " ++ options.backend.optionName ++ " backend"⟩

/-- The last line of the log; `size` is the number of bytes made. -/
def endLine (diagnostics : List Diagnostic) (size : String) : LogLine :=
  ⟨.info,
    if diagnostics.isEmpty then "Conversion finished, " ++ size ++ " bytes"
    else
      "Conversion finished with " ++ toString diagnostics.length ++ " diagnostic(s), " ++ size ++
        " bytes"⟩

/-- The line about content below a fixed page height. -/
def overflowLines (pen : Pen Float) (fixed : Option Float) : List LogLine :=
  match fixed with
  | none => []
  | some height =>
    if Page.overflows pen fixed then
      [⟨.warning, "Content (" ++ fixedText 1 pen.lowest ++ "pt) overflows fixed page height " ++
        fixedText 1 height ++ "pt"⟩]
    else []

end Conversion

namespace Options

/-- How styles are resolved for a receipt printer. -/
def cellResolver {α : Type} [Scalar α] : Resolver α := ⟨.cells, .largest, Scalar.ofNat 10⟩

/-- How styles are resolved for a page. -/
def pointResolver {α : Type} [Scalar α] : Resolver α := ⟨.points, .largest, Scalar.ofNat 10⟩

/-- The printer of a protocol that options describe. -/
def printer {α : Type} [Scalar α] (options : Options) (protocol : Protocol) : Printer α :=
  ⟨protocol, cellResolver, options.lineSpacing, options.dotsPerCharacter⟩

/-- The command that ends a receipt, when it is cut. -/
def cutCommands (options : Options) : List Command :=
  match options.cut with
  | some kind => [.cut kind options.feedBeforeCut]
  | none => []

end Options

/-- The printing of a whole tree, without the cut. -/
def printTree {α : Type} [Scalar α] (options : Options) (protocol : Protocol) (pageWidth : α)
    (root : Node) : Printing :=
  let printer : Printer α := options.printer protocol
  printer.print .unknown
    ((⟨options.naming, printer.resolver⟩ : Scheme α).tree [] (.start pageWidth) root)

/-- The printing of a whole tree with the cut behind it. -/
def printReceipt {α : Type} [Scalar α] (options : Options) (protocol : Protocol) (pageWidth : α)
    (root : Node) : Printing :=
  (printTree options protocol pageWidth root).andThen fun registers =>
    Printing.send registers options.cutCommands

/-- The drawing of a whole tree, and the page width at its end. -/
def drawTree {α : Type} [Scalar α] (options : Options) (pageWidth : α) (root : Node) :
    Drawing α × α :=
  let resolver : Resolver α := Options.pointResolver
  let layout := (⟨options.naming, resolver⟩ : Scheme α).tree [] (.start pageWidth) root
  (Page.drawLayout .usual resolver .atTop layout, layout.anchors.pageWidth)

/-- Prints a tree with a protocol, and cuts. -/
def convertToPrint (options : Options) (protocol : Protocol) (root : Node) :
    Except ConversionFault Conversion :=
  let printing := printReceipt options protocol (Float.ofInt options.paperWidth) root
  match printing.fault with
  | some fault => .error (.printing fault)
  | none =>
    let bytes := printing.bytes protocol
    .ok {
      backend := .printer protocol
      diagnostics := printing.diagnostics
      output := .printed bytes
      log := Conversion.startLine root options ::
        Conversion.printingLog protocol options.debug printing.events ++
        [Conversion.endLine printing.diagnostics (toString bytes.length)] }

/-- Draws a tree on a page and writes the page. -/
def convertToPage (options : Options) (root : Node) : Except ConversionFault Conversion :=
  let (drawing, pageWidth) := drawTree options options.pointWidth root
  match drawing.fault with
  | some fault => .error (.drawing fault)
  | none =>
    let fixed := Page.fixedHeight drawing.pen options.pointHeight
    match Page.content pageWidth (Page.height drawing.pen fixed) drawing.marks with
    | .error fault => .error (.content fault)
    | .ok content =>
      .ok {
        backend := .page
        diagnostics := drawing.diagnostics
        output := .drawn ⟨pageWidth, fixed, drawing.pen.lowest, drawing.marks, content⟩
        log := Conversion.startLine root options ::
          Conversion.drawingLog options.debug drawing.events ++
          Conversion.overflowLines drawing.pen fixed ++
          [Conversion.endLine drawing.diagnostics "N"] }

/-- Converts a checked tree for the backend that the options name. -/
def convertRoot (options : Options) (root : Node) : Except ConversionFault Conversion :=
  match options.backend with
  | .printer protocol => convertToPrint options protocol root
  | .page => convertToPage options root

/-- Converts a tree with options. -/
def convert (options : Options) (tree : Value) : Except ConversionFault Conversion :=
  match tree.toTree with
  | .error fault => .error (.tree fault)
  | .ok root => convertRoot options root

/-- Converts a tree with overrides over the settings of an environment and an environment file. -/
def convertOver (environment : List (String × String)) (file : List EnvFile.Variable)
    (overrides : Fields) (tree : Value) : Except ConversionFault Conversion :=
  match Settings.layered [] environment file with
  | .error issues => .error (.settings issues)
  | .ok settings =>
    match Options.ofSettings settings overrides with
    | .error issues => .error (.options issues)
    | .ok options => convert options tree

/-- Converts a tree with option values as given, or with the settings alone when there are none. -/
def convertWith (environment : List (String × String)) (file : List EnvFile.Variable)
    (options : Option Fields) (tree : Value) : Except ConversionFault Conversion :=
  match options with
  | none => convertOver environment file [] tree
  | some values =>
    match Options.ofFields values with
    | .error issues => .error (.options issues)
    | .ok options => convert options tree

/-- Converts a tree for a receipt printer, unless the overrides name another backend. -/
def convertToPrinter (environment : List (String × String)) (file : List EnvFile.Variable)
    (overrides : Fields) (tree : Value) : Except ConversionFault Conversion :=
  let named := (overrides.get? "backend").isSome
  convertOver environment file
    (if named then overrides else Fields.set "backend" (.text "escpos") overrides) tree

/-- Converts a tree to a page, whatever backend the overrides name. -/
def convertToPageOver (environment : List (String × String)) (file : List EnvFile.Variable)
    (overrides : Fields) (tree : Value) : Except ConversionFault Conversion :=
  convertOver environment file (Fields.set "backend" (.text "pdf") overrides) tree

end Receipt
