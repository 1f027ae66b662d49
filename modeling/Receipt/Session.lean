import Receipt.Page.Device
import Receipt.Printer.Print
import Receipt.Settings.Options
import Receipt.Tree.Check

/-!
# Step by step

A `Session` is a printer or a page that is driven by single actions: text, rows, pictures, whole
elements, and entering and leaving content boxes. Its state is what a conversion carries along: the
anchors, the insets in force and the boxes that were entered, the registers and the pen. Every
action answers with what was sent or drawn, the notes, and a result or the fault that it met.
-/

namespace Receipt

/-- A printer or a page driven by single actions. -/
structure Session where
  backend : Backend
  naming : Naming
  lineSpacing : Option Int
  dotsPerCharacter : Int
  setting : Page.Setting Float
  askedHeight : Option Float
  anchors : Anchors Float
  insets : List (Float × Float)
  /-- The insets to go back to, innermost box first. -/
  entered : List (List (Float × Float))
  registers : Registers
  pen : Pen Float

/-- A single action. -/
inductive Action where
  | beginDocument
  | beginPage (node : Value)
  | text (content : String) (look : TextLook Float)
  | row (cells : List (Cell Float)) (justify : Value)
  | divider (border : Border)
  | space (amount : Float)
  | emptyView (style : Fields)
  | picture (source : Value) (align : Alignment) (path : String)
  | symbol (data : String) (size : Int) (align : Alignment) (path : String)
  | setRegisters (align : Alignment) (size : CharSize) (bold : Option Bool)
  | writeLine (line : String)
  | visit (node : Value) (inherited : Option Alignment)
  | run (node : Value)
  | push (left right : Float)
  | narrow (width : Option Float)
  | frame (left width : Float)
  | leave
  | forget
  | advance (amount : Float)
  | setAlign (align : Option Alignment)
  | note (path message : String)
  | finalHeight
  | wrap (text : String) (bold : Bool) (size width : Float)
  | order (command : Command)

/-- Why an action did not come to its end. -/
inductive ActionFault where
  | number (fault : NumberFault)
  | tree (fault : TreeFault)
  | printing (fault : PrintFault)
  | drawing (fault : DrawFault)
  /-- The bytes of a bitmap are not as many as its size asks for. -/
  | bitmap
  /-- No box is left to leave. -/
  | nothingEntered
  /-- The backend has no such action, or what it is given is no element. -/
  | unknownAction
deriving Repr

/-- What an action answers besides what is sent or drawn. -/
inductive Answer where
  | line (text : String)
  | height (height : Option Float)
  | lines (lines : List String)
  | bytes (bytes : List UInt8)
  | marks (marks : List (Mark Float))

/-- The course of one action. -/
structure Reaction where
  session : Session
  bytes : List UInt8
  marks : List (Mark Float)
  diagnostics : List Diagnostic
  answer : Option Answer
  fault : Option ActionFault

namespace Session

/-- The protocol of a session with a printer. -/
def protocol? (session : Session) : Option Protocol :=
  match session.backend with
  | .printer protocol => some protocol
  | .page => none

/-- How styles are resolved in a session. -/
def resolver (session : Session) : Resolver Float :=
  match session.backend with
  | .printer _ => ⟨.cells, .largest, 10.0⟩
  | .page => ⟨.points, .largest, session.setting.fontSize⟩

/-- What layouts rest on in a session. -/
def scheme (session : Session) : Scheme Float := ⟨session.naming, session.resolver⟩

/-- The content box in force. -/
def extent (session : Session) : Extent Float := ⟨session.anchors.pageWidth, session.insets⟩

/-- The answer of an action that sends and draws nothing. -/
def quiet (session : Session) : Reaction := ⟨session, [], [], [], none, none⟩

/-- The answer of an action that fails before anything is sent or drawn. -/
def failed (session : Session) (fault : ActionFault) : Reaction :=
  ⟨session, [], [], [], none, some fault⟩

/-- Carries out printing. -/
def printed (session : Session) (protocol : Protocol) (printing : Printing) : Reaction :=
  { session := { session with registers := printing.registers }
    bytes := printing.bytes protocol
    marks := []
    diagnostics := printing.diagnostics
    answer := none
    fault := printing.fault.map .printing }

/-- Carries out drawing. The page shares its alignment with the registers. -/
def drawn (session : Session) (drawing : Drawing Float) : Reaction :=
  { session :=
      { session with
        pen := drawing.pen
        registers := { session.registers with align := drawing.pen.align } }
    bytes := []
    marks := drawing.marks
    diagnostics := drawing.diagnostics
    answer := none
    fault := drawing.fault.map .drawing }

/-- The pen of a session, with the alignment of the registers. -/
def currentPen (session : Session) : Pen Float :=
  { session.pen with align := session.registers.align }

/-- Prints or draws a layout. -/
def carryOut (session : Session) (layout : Layout Float) : Reaction :=
  let session := { session with anchors := layout.anchors }
  match session.backend with
  | .printer protocol =>
    let printer : Printer Float :=
      ⟨protocol, session.resolver, session.lineSpacing, session.dotsPerCharacter⟩
    session.printed protocol (printer.print session.registers layout)
  | .page =>
    session.drawn
      (Page.drawLayout session.setting session.resolver session.currentPen layout)

/-- Prints or draws one step. -/
def step (session : Session) (step : Step Float) : Reaction :=
  session.carryOut (Layout.step session.anchors step)

/-- Lays out an element and carries it out. -/
def withNode (session : Session) (node : Value) (lay : Node → Layout Float) : Reaction :=
  match node.toTree with
  | .error fault => session.failed (.tree fault)
  | .ok node => session.carryOut (lay node)

/-- Enters a content box. -/
def enter (session : Session) (inner : Extent Float) : Reaction :=
  quiet { session with insets := inner.insets, entered := session.insets :: session.entered }

/-- The beginning of a page. A page that is drawn takes its props from an element. -/
def beginPage (session : Session) (node : Value) : Reaction :=
  match session.backend, node with
  | .printer _, _ => session.quiet
  | .page, .element _ (.mapping props) _ _ =>
    session.carryOut (session.scheme.beginPage props session.anchors)
  | .page, _ => session.failed .unknownAction

/-- Gives an order to the printer or the page; what it answers is not sent or drawn. -/
def order (session : Session) (command : Command) : Reaction :=
  match session.backend with
  | .printer protocol =>
    match protocol.encode command with
    | .error fault => session.failed (.printing (.command fault))
    | .ok bytes => { session.quiet with answer := some (.bytes bytes) }
  | .page =>
    match Page.obey? session.setting session.extent session.currentPen command with
    | none => session.failed .bitmap
    | some drawing =>
      let reaction := session.drawn drawing
      { reaction with marks := [], answer := some (.marks reaction.marks) }

/-- Does something that only a printer can. -/
def onPrinter (session : Session) (act : Registers → Printing) : Reaction :=
  match session.protocol? with
  | some protocol => session.printed protocol (act session.registers)
  | none => session.failed .unknownAction

/-- Does something that only a page can. -/
def onPage (session : Session) (answer : Answer) : Reaction :=
  match session.backend with
  | .page => { session.quiet with answer := some answer }
  | .printer _ => session.failed .unknownAction

/-- Carries out an action. -/
def act (session : Session) : Action → Reaction
  | .beginDocument => session.step .reset
  | .beginPage node => session.beginPage node
  | .text content look => session.step (.text content look session.extent)
  | .row cells justify => session.step (.row cells justify session.extent)
  | .divider border => session.step (.divider border session.extent)
  | .space amount => session.step (.space amount)
  | .emptyView style =>
    match (ViewStyle.ofFields style : Except NumberFault (ViewStyle Float)) with
    | .error fault => session.failed (.number fault)
    | .ok view => session.carryOut (session.scheme.emptyView view.height session.anchors)
  | .picture source align path =>
    session.step
      (.picture source align path session.anchors.frame.width.isSome session.extent)
  | .symbol data size align path => session.step (.symbol data size align path session.extent)
  | .setRegisters align size bold =>
    session.onPrinter fun registers => Printing.set registers align size bold
  | .writeLine line =>
    session.onPrinter fun registers => Printing.send registers (Printer.lineCommands line)
  | .visit node inherited =>
    session.withNode node fun node =>
      session.scheme.node session.insets node.type inherited session.anchors node
  | .run node =>
    session.withNode node fun node => session.scheme.tree session.insets session.anchors node
  | .push left right => session.enter (session.extent.inset left right)
  | .narrow width => session.enter (session.extent.narrowed width)
  | .frame left width => session.enter (session.extent.framed left width)
  | .leave =>
    match session.entered with
    | [] => session.failed .nothingEntered
    | insets :: entered => quiet { session with insets := insets, entered := entered }
  | .forget => quiet { session with registers := .unknown }
  | .advance amount => quiet { session with pen := session.pen.advance amount }
  | .setAlign align =>
    quiet { session with registers := { session.registers with align := align } }
  | .note path message =>
    { session.quiet with
      diagnostics := [⟨path, message⟩]
      answer := some (.line (Diagnostic.line ⟨path, message⟩)) }
  | .finalHeight =>
    session.onPage (.height (Page.fixedHeight session.pen session.askedHeight))
  | .wrap text bold size width => session.onPage (.lines (Page.wrapText text bold size width))
  | .order command => session.order command

end Session

end Receipt
