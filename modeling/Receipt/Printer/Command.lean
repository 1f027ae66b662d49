import Receipt.Printer.Codepage
import Receipt.Printer.Symbol
import Receipt.Style.Resolved
import Receipt.Value.Printed

/-!
# Printer commands

A `Command` is what a receipt printer is told; `Protocol.encode` gives its bytes in one of the two
protocols. They share the bytes for alignment, character size and pictures, and differ in the number
of the code table, the bold register, line spacing, feeding, cutting and symbols, which only one of
them prints.
-/

namespace Receipt

/-- How the paper is cut. -/
inductive Cut where
  | full
  | part
deriving DecidableEq, Repr

namespace Cut

/-- The cut with a name. -/
def ofName? (name : String) : Option Cut :=
  if name = "full" then some full else if name = "partial" then some part else none

end Cut

/-- A command for a receipt printer. -/
inductive Command where
  /-- Back to the initial state, with the code table selected. -/
  | init
  | align (align : Alignment)
  /-- The character size, which carries a bold bit. -/
  | characterSize (size : CharSize) (bold : Bool)
  | emphasis (bold : Bool)
  /-- The line spacing in dots, or the printer's own. -/
  | lineSpacing (dots : Option Int)
  | text (content : String)
  /-- The end of the line, as often as given. -/
  | lineFeed (lines : Int)
  | feed (lines : Int)
  /-- A packed bitmap of the given size in dots. -/
  | raster (bytes : List UInt8) (width height : Int)
  | symbol (data : String) (size : Int)
  /-- A feed and a cut. -/
  | cut (kind : Cut) (feed : Int)
deriving DecidableEq, Repr

namespace Command

/-- The name of a command in the trace of what is sent. -/
def name : Command → String
  | init => "init"
  | align _ => "align"
  | characterSize .. => "character_size"
  | emphasis _ => "emphasis"
  | lineSpacing _ => "line_spacing"
  | text _ => "text"
  | lineFeed _ => "line_feed"
  | feed _ => "feed_lines"
  | raster .. => "raster_image"
  | symbol .. => "barcode_2d"
  | cut .. => "cut"

end Command

/-- Why a command has no bytes. -/
inductive CommandFault where
  /-- The bitmap has another number of bytes than its size asks for. -/
  | bitmapSize (bytes : Nat) (expected width height : Int)
  /-- A number does not fit the two bytes of its field. -/
  | field
  /-- The payload of a symbol has too many bytes. -/
  | payload (length : Nat)
  /-- The protocol does not know the command. -/
  | unsupported (protocol command hint : String)
deriving DecidableEq, Repr

/-- The text about a command that a protocol does not know. -/
def unsupportedMessage (protocol command hint : String) : String :=
  let message := command ++ " is not supported by " ++ protocol
  if hint.isEmpty then message else message ++ ". " ++ hint

namespace CommandFault

/-- The text of a fault, where it has one. -/
def message? : CommandFault → Option String
  | bitmapSize bytes expected width height =>
    some ("Bitmap is " ++ toString bytes ++ " bytes, expected " ++ toString expected ++ " for " ++
      toString width ++ "x" ++ toString height)
  | field => none
  | payload length => some (Symbol.tooLongMessage length)
  | unsupported protocol command hint => some (unsupportedMessage protocol command hint)

end CommandFault

/-- The protocols of receipt printers. -/
inductive Protocol where
  | escPos
  | escBematech
deriving DecidableEq, Repr

namespace Protocol

/-- The name of a protocol. -/
def name : Protocol → String
  | escPos => "ESC/POS"
  | escBematech => "ESC/Bematech"

/-- The name of a protocol among the options. -/
def optionName : Protocol → String
  | escPos => "escpos"
  | escBematech => "escbematech"

/-- All protocols, by option name. -/
def all : List Protocol := [escBematech, escPos]

/-- The protocol with an option name. -/
def ofOptionName? (name : String) : Option Protocol :=
  all.find? fun protocol => protocol.optionName == name

/-- The text about a name that no protocol has. -/
def unknownNameMessage (name : String) : String :=
  "Unknown thermal backend " ++ String.ofList (quoted name.toList) ++ " (expected one of [" ++
    String.intercalate ", " (all.map fun protocol => "\x27" ++ protocol.optionName ++ "\x27") ++
    "])"

/-- The number of the code table. -/
def codeTable : Protocol → UInt8
  | escPos => 3
  | escBematech => 4

/-- The operand of an alignment. -/
def alignByte : Alignment → UInt8
  | .left => 0
  | .center => 1
  | .right => 2

/-- The print mode: bold, double height and double width bits. -/
def modeByte (size : CharSize) (bold : Bool) : UInt8 :=
  (if bold then 0x08 else 0) + (if 2 ≤ size.height then 0x10 else 0) +
    (if 2 ≤ size.width then 0x20 else 0)

/-- The line spacing within the limits of a protocol. -/
def spacingByte (protocol : Protocol) (dots : Int) : UInt8 :=
  let least : Int :=
    match protocol with
    | escPos => 0
    | escBematech => 18
  UInt8.ofNat (max least (min 255 dots)).toNat

/-- So many line feeds. -/
def lineFeeds (lines : Int) : List UInt8 := List.replicate lines.toNat 0x0A

/-- The bytes that feed paper: a feed command, or plain line feeds where that command means
something else. -/
def feedBytes (protocol : Protocol) (lines : Int) : List UInt8 :=
  match protocol with
  | escPos => if lines ≤ 0 then [] else [0x1B, 0x64, UInt8.ofNat (min lines 255).toNat]
  | escBematech => lineFeeds lines

/-- The bytes that cut. -/
def cutBytes (protocol : Protocol) (kind : Cut) : List UInt8 :=
  match protocol, kind with
  | escPos, .part => [0x1B, 0x6D]
  | escPos, .full | escBematech, _ => [0x1B, 0x69]

/-- The two bytes of a header field, lower one first. Numbers that do not fit are cut to sixteen bits
by one protocol and refused by the other. -/
def headerField (protocol : Protocol) (n : Int) : Except CommandFault (List UInt8) :=
  if protocol = escBematech ∧ (n < 0 ∨ 65536 ≤ n) then .error .field
  else .ok [UInt8.ofNat (n % 256).toNat, UInt8.ofNat (n / 256 % 256).toNat]

/-- The bytes of a bitmap behind its header, refused when their number is not the one that the
header tells. -/
def rasterBytes (protocol : Protocol) (bytes : List UInt8) (width height : Int) :
    Except CommandFault (List UInt8) :=
  let rowBytes := (width + 7) / 8
  if (bytes.length : Int) ≠ rowBytes * height then
    .error (.bitmapSize bytes.length (rowBytes * height) width height)
  else do
    let across ← protocol.headerField rowBytes
    let down ← protocol.headerField height
    return [0x1D, 0x76, 0x30, 0x00] ++ across ++ down ++ bytes

/-- The bytes of a command. -/
def encode (protocol : Protocol) : Command → Except CommandFault (List UInt8)
  | .init => .ok [0x1B, 0x40, 0x1B, 0x74, protocol.codeTable]
  | .align align => .ok [0x1B, 0x61, alignByte align]
  | .characterSize size bold => .ok [0x1B, 0x21, modeByte size bold]
  | .emphasis bold =>
    match protocol with
    | escPos => .ok [0x1B, 0x45, if bold then 1 else 0]
    | escBematech => .ok [0x1B, if bold then 0x45 else 0x46]
  | .lineSpacing none => .ok [0x1B, 0x32]
  | .lineSpacing (some dots) => .ok [0x1B, 0x33, protocol.spacingByte dots]
  | .text content => .ok (Codepage.encode content.toList)
  | .lineFeed lines => .ok (lineFeeds lines)
  | .feed lines => .ok (protocol.feedBytes lines)
  | .raster bytes width height => protocol.rasterBytes bytes width height
  | .symbol data size =>
    match protocol with
    | escPos =>
      match Symbol.encode data size with
      | .ok bytes => .ok bytes
      | .error length => .error (.payload length)
    | escBematech =>
      .error (.unsupported protocol.name "QR code"
        "Switch the printer to ESC/POS mode to print QR codes")
  | .cut kind lines => .ok (protocol.feedBytes lines ++ protocol.cutBytes kind)

end Protocol

end Receipt
