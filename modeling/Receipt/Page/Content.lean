import Receipt.Number.Fixed
import Receipt.Page.Draw

/-!
# The content of a page

`Page.content` writes marks as the content stream of a page: the fonts are numbered in the order of
their first use, the pictures by their samples, and heights are turned round so that they grow
upwards. A symbol needs a payload that fits the largest symbol and a side that is not zero, and every
number on the page has to be finite (`markFault?`).
-/

namespace Receipt.Page

/-- Why a page cannot be written. -/
inductive ContentFault where
  /-- The payload of a symbol is too long for the largest symbol. -/
  | capacity
  /-- A symbol without a side cannot be scaled. -/
  | noSide
  /-- A number has no form on a page. -/
  | number (fault : NumberFault)
deriving DecidableEq, Repr

/-- The fonts in the order of their first use, and the samples of the pictures. -/
structure Resources where
  fonts : List String
  pictures : List (List UInt8)

namespace Resources

/-- The regular font comes first on every page. -/
def start : Resources := ⟨["Helvetica"], []⟩

/-- The place of an entry in a list, and the list with the entry added when it is new. -/
def place {β : Type} [BEq β] (entry : β) (entries : List β) : Nat × List β :=
  match entries.findIdx? (· == entry) with
  | some i => (i, entries)
  | none => (entries.length, entries ++ [entry])

/-- The resource name of a font. -/
def font (resources : Resources) (name : String) : String × Resources :=
  let (i, fonts) := place name resources.fonts
  ("/F" ++ toString (i + 1), { resources with fonts := fonts })

/-- The resource name of a picture; pictures with the same samples share one. -/
def picture (resources : Resources) (samples : List UInt8) : String × Resources :=
  let (i, pictures) := place samples resources.pictures
  ("/Im" ++ toString (i + 1), { resources with pictures := pictures })

end Resources

/-- The name of a text font. -/
def fontName (bold : Bool) : String := if bold then "Helvetica-Bold" else "Helvetica"

/-- The name of the font of the square. -/
def symbolFont : String := "ZapfDingbats"

/-- The octal digits of a byte. -/
def octal (n : Nat) : List Char :=
  [n / 64, n / 8 % 8, n % 8].map fun d => Char.ofNat (48 + d)

/-- A byte in the string of a content stream. -/
def stringByte (n : Nat) : List Char :=
  if n = 0x28 ∨ n = 0x29 ∨ n = 0x5C then ['\\', Char.ofNat n]
  else if 0x20 ≤ n ∧ n < 0x7F then [Char.ofNat n]
  else '\\' :: octal n

/-- The order to show a string. -/
def showString (bytes : List Nat) : String :=
  "(" ++ String.ofList (bytes.flatMap stringByte) ++ ") Tj"

/-- The longest runs of characters with a byte and of others, in order. A run of others has a byte
for the square in place of each. -/
def glyphRuns : List Char → List (Bool × List Nat)
  | [] => []
  | c :: rest =>
    let (encoded, byte) :=
      match glyph? c with
      | some (byte, _) => (true, byte)
      | none => (false, 0x6E)
    match glyphRuns rest with
    | (same, bytes) :: runs =>
      if same == encoded then (encoded, byte :: bytes) :: runs
      else (encoded, [byte]) :: (same, bytes) :: runs
    | [] => [(encoded, [byte])]

/-- The order to set a font in a size. -/
def setFont (name : String) (size : Float) : String :=
  name ++ " " ++ compactText size ++ " Tf " ++ compactText (size * 1.2) ++ " TL"

/-- The orders that show runs: `main` says whether the text font is set before them, and it is set
again behind them. -/
def showRuns (textFont squareFont : String) (main : Bool) : List (Bool × List Nat) → List String
  | [] => if main then [] else [textFont]
  | (encoded, bytes) :: runs =>
    (if encoded == main then [] else [if encoded then textFont else squareFont]) ++
      showString bytes :: showRuns textFont squareFont encoded runs

/-- The lines that draw a text at its left end. -/
def textLines (resources : Resources) (content : String) (x y : Float) (bold : Bool)
    (size : Float) : List String × Resources :=
  let (name, resources) := resources.font (fontName bold)
  let runs := glyphRuns content.toList
  let (square, resources) :=
    if runs.any (!·.1) then resources.font symbolFont else ("", resources)
  let shown := showRuns (setFont name size) (setFont square size) true runs
  (["BT " ++ setFont name size ++ " ET",
    "BT 1 0 0 1 " ++ compactText x ++ " " ++ compactText y ++ " Tm " ++
      String.intercalate " " (shown ++ ["T* ET"])], resources)

/-- The side of the symbol in its own units: 32 millimetres in points. -/
def symbolUnits : Float := 90.70866141732284

/-- The lines that draw the frame of a symbol with its lower left corner at a point. -/
def symbolLines (x y side : Float) : List String :=
  let scale := compactText (side / symbolUnits)
  ["q", "1 0 0 1 " ++ compactText x ++ " " ++ compactText y ++ " cm", "0 0 0 RG", "1 w", "0 J",
    "0 j", "[] 0 d", "0 0 0 rg", "BT /F1 10 Tf 12 TL ET", "BT /F1 10 Tf 12 TL ET", "q",
    scale ++ " 0 0 " ++ scale ++ " 0 0 cm", "q", "1 0 0 1 0 0 cm", "q", "0 w", "0 J", "0 j",
    "[] 0 d", "n 0 0 90.70866 90.70866 re n", "Q", "Q", "Q", "Q"]

/-- Whether a byte is a decimal digit. -/
def isDigitByte (byte : UInt8) : Bool := 0x30 ≤ byte && byte ≤ 0x39

/-- Whether a byte is one of the 45 that symbols write in pairs. -/
def isPairedByte (byte : UInt8) : Bool :=
  isDigitByte byte || (0x41 ≤ byte && byte ≤ 0x5A) ||
    [0x20, 0x24, 0x25, 0x2A, 0x2B, 0x2D, 0x2E, 0x2F, 0x3A].contains byte

/-- The most bytes the largest symbol of error correction level M holds, by the kind of payload. -/
def symbolCapacity (payload : List UInt8) : Nat :=
  if payload.all isDigitByte then 5596 else if payload.all isPairedByte then 3391 else 2331

/-- The left end of a text with its anchor at a place. -/
def leftEnd (content : String) (x : Float) (bold : Bool) (size : Float) :
    Alignment → Float
  | .left => x
  | .center => x - 0.5 * textWidth content bold size
  | .right => x - textWidth content bold size

/-- The numbers that are written for a mark on a page of a height, in order. -/
def markNumbers (height : Float) : Mark Float → List Float
  | .text content x y bold size anchor =>
    [size, size * 1.2, leftEnd content x bold size anchor, height - y]
  | .line x1 x2 y _ => [x1, height - y, x2]
  | .picture _ x y width extent => [width, extent, x, height - y - extent]
  | .symbol _ x y side => [x, height - y - side, side / symbolUnits]

/-- Why a mark is no symbol that can be drawn; none when it is one, or no symbol at all. -/
def symbolFault? : Mark Float → Option ContentFault
  | .symbol data _ _ side =>
    let payload := data.toUTF8.toList
    if symbolCapacity payload < payload.length then some .capacity
    else if side == 0.0 then some .noSide
    else none
  | .text .. | .line .. | .picture .. => none

/-- The first of several numbers that has no form on a page, if there is one. -/
def numbersFault? (numbers : List Float) : Option ContentFault :=
  (numbers.findSome? compactFault?).map .number

/-- Why a mark cannot be drawn on a page of a height; none when it can. -/
def markFault? (height : Float) (mark : Mark Float) : Option ContentFault :=
  (symbolFault? mark).or (numbersFault? (markNumbers height mark))

/-- The lines that draw a mark on a page of a height. -/
def markLines (height : Float) (resources : Resources) :
    Mark Float → List String × Resources
  | .text content x y bold size anchor =>
    textLines resources content (leftEnd content x bold size anchor) (height - y) bold size
  | .line x1 x2 y dashed =>
    let level := compactText (height - y)
    ([if dashed then "[2 2] 0 d" else "[] 0 d",
      "n " ++ compactText x1 ++ " " ++ level ++ " m " ++ compactText x2 ++ " " ++ level ++ " l S",
      "[] 0 d"], resources)
  | .picture picture x y width extent =>
    let (name, resources) := resources.picture picture.storedSamples
    (["q",
      compactText width ++ " 0 0 " ++ compactText extent ++ " " ++ compactText x ++ " " ++
        compactText (height - y - extent) ++ " cm",
      name ++ " Do", "Q"], resources)
  | .symbol _ x y side => (symbolLines x (height - y - side) side, resources)

/-- The lines that draw marks in order. -/
def marksLines (height : Float) (resources : Resources) :
    List (Mark Float) → Except ContentFault (List String × Resources)
  | [] => .ok ([], resources)
  | mark :: marks =>
    match markFault? height mark with
    | some fault => .error fault
    | none =>
      let (lines, resources) := markLines height resources mark
      match marksLines height resources marks with
      | .error fault => .error fault
      | .ok (more, resources) => .ok (lines ++ more, resources)

/-- A page as it is written: its box, its fonts by resource name, and the lines of its content. -/
structure Content where
  media : List String
  fonts : List (String × String)
  lines : List String

/-- Writes marks on a page of a size. -/
def content (width height : Float) (marks : List (Mark Float)) : Except ContentFault Content :=
  match marksLines height .start marks with
  | .error fault => .error fault
  | .ok (lines, resources) =>
    match numbersFault? [width, height] with
    | some fault => .error fault
    | none =>
      .ok {
        media := ["0", "0", compactText width, compactText height]
        fonts := resources.fonts.zipIdx.map fun (name, i) => ("F" ++ toString (i + 1), name)
        lines := ["1 0 0 1 0 0 cm  BT /F1 12 Tf 14.4 TL ET", "1 w"] ++ lines }

end Receipt.Page
