import Receipt.Layout.Row
import Receipt.Text.Lines

/-!
# Glyphs of a page

A page is set in a regular and a bold font of one family with a western encoding: the table gives
the byte of a character and the widths of its two glyphs in thousandths of the font size. A
character outside the encoding is shown as a small square of a symbol font. `textWidth` measures a
text, and `wrapWords` breaks it between words so that each line fits a width when it can.
-/

namespace Receipt.Page

/-- Code point, byte, regular width and bold width of the characters of the encoding. -/
def glyphTable : List (Nat × Nat × Nat × Nat) :=
  [(0x0020, 32, 278, 278), (0x0021, 33, 278, 333), (0x0022, 34, 355, 474), (0x0023, 35, 556, 556),
    (0x0024, 36, 556, 556), (0x0025, 37, 889, 889), (0x0026, 38, 667, 722), (0x0027, 39, 191, 238),
    (0x0028, 40, 333, 333), (0x0029, 41, 333, 333), (0x002A, 42, 389, 389), (0x002B, 43, 584, 584),
    (0x002C, 44, 278, 278), (0x002D, 45, 333, 333), (0x002E, 46, 278, 278), (0x002F, 47, 278, 278),
    (0x0030, 48, 556, 556), (0x0031, 49, 556, 556), (0x0032, 50, 556, 556), (0x0033, 51, 556, 556),
    (0x0034, 52, 556, 556), (0x0035, 53, 556, 556), (0x0036, 54, 556, 556), (0x0037, 55, 556, 556),
    (0x0038, 56, 556, 556), (0x0039, 57, 556, 556), (0x003A, 58, 278, 333), (0x003B, 59, 278, 333),
    (0x003C, 60, 584, 584), (0x003D, 61, 584, 584), (0x003E, 62, 584, 584), (0x003F, 63, 556, 611),
    (0x0040, 64, 1015, 975), (0x0041, 65, 667, 722), (0x0042, 66, 667, 722),
    (0x0043, 67, 722, 722), (0x0044, 68, 722, 722), (0x0045, 69, 667, 667), (0x0046, 70, 611, 611),
    (0x0047, 71, 778, 778), (0x0048, 72, 722, 722), (0x0049, 73, 278, 278), (0x004A, 74, 500, 556),
    (0x004B, 75, 667, 722), (0x004C, 76, 556, 611), (0x004D, 77, 833, 833), (0x004E, 78, 722, 722),
    (0x004F, 79, 778, 778), (0x0050, 80, 667, 667), (0x0051, 81, 778, 778), (0x0052, 82, 722, 722),
    (0x0053, 83, 667, 667), (0x0054, 84, 611, 611), (0x0055, 85, 722, 722), (0x0056, 86, 667, 667),
    (0x0057, 87, 944, 944), (0x0058, 88, 667, 667), (0x0059, 89, 667, 667), (0x005A, 90, 611, 611),
    (0x005B, 91, 278, 333), (0x005C, 92, 278, 278), (0x005D, 93, 278, 333), (0x005E, 94, 469, 584),
    (0x005F, 95, 556, 556), (0x0060, 96, 333, 333), (0x0061, 97, 556, 556), (0x0062, 98, 556, 611),
    (0x0063, 99, 500, 556), (0x0064, 100, 556, 611), (0x0065, 101, 556, 556),
    (0x0066, 102, 278, 333), (0x0067, 103, 556, 611), (0x0068, 104, 556, 611),
    (0x0069, 105, 222, 278), (0x006A, 106, 222, 278), (0x006B, 107, 500, 556),
    (0x006C, 108, 222, 278), (0x006D, 109, 833, 889), (0x006E, 110, 556, 611),
    (0x006F, 111, 556, 611), (0x0070, 112, 556, 611), (0x0071, 113, 556, 611),
    (0x0072, 114, 333, 389), (0x0073, 115, 500, 556), (0x0074, 116, 278, 333),
    (0x0075, 117, 556, 611), (0x0076, 118, 500, 556), (0x0077, 119, 722, 778),
    (0x0078, 120, 500, 556), (0x0079, 121, 500, 556), (0x007A, 122, 500, 500),
    (0x007B, 123, 334, 389), (0x007C, 124, 260, 280), (0x007D, 125, 334, 389),
    (0x007E, 126, 584, 584), (0x00A0, 32, 278, 278), (0x00A1, 161, 333, 333),
    (0x00A2, 162, 556, 556), (0x00A3, 163, 556, 556), (0x00A4, 164, 556, 556),
    (0x00A5, 165, 556, 556), (0x00A6, 166, 260, 280), (0x00A7, 167, 556, 556),
    (0x00A8, 168, 333, 333), (0x00A9, 169, 737, 737), (0x00AA, 170, 370, 370),
    (0x00AB, 171, 556, 556), (0x00AC, 172, 584, 584), (0x00AD, 173, 333, 333),
    (0x00AE, 174, 737, 737), (0x00AF, 175, 333, 333), (0x00B0, 176, 400, 400),
    (0x00B1, 177, 584, 584), (0x00B2, 178, 333, 333), (0x00B3, 179, 333, 333),
    (0x00B4, 180, 333, 333), (0x00B5, 181, 556, 611), (0x00B6, 182, 537, 556),
    (0x00B7, 183, 278, 278), (0x00B8, 184, 333, 333), (0x00B9, 185, 333, 333),
    (0x00BA, 186, 365, 365), (0x00BB, 187, 556, 556), (0x00BC, 188, 834, 834),
    (0x00BD, 189, 834, 834), (0x00BE, 190, 834, 834), (0x00BF, 191, 611, 611),
    (0x00C0, 192, 667, 722), (0x00C1, 193, 667, 722), (0x00C2, 194, 667, 722),
    (0x00C3, 195, 667, 722), (0x00C4, 196, 667, 722), (0x00C5, 197, 667, 722),
    (0x00C6, 198, 1000, 1000), (0x00C7, 199, 722, 722), (0x00C8, 200, 667, 667),
    (0x00C9, 201, 667, 667), (0x00CA, 202, 667, 667), (0x00CB, 203, 667, 667),
    (0x00CC, 204, 278, 278), (0x00CD, 205, 278, 278), (0x00CE, 206, 278, 278),
    (0x00CF, 207, 278, 278), (0x00D0, 208, 722, 722), (0x00D1, 209, 722, 722),
    (0x00D2, 210, 778, 778), (0x00D3, 211, 778, 778), (0x00D4, 212, 778, 778),
    (0x00D5, 213, 778, 778), (0x00D6, 214, 778, 778), (0x00D7, 215, 584, 584),
    (0x00D8, 216, 778, 778), (0x00D9, 217, 722, 722), (0x00DA, 218, 722, 722),
    (0x00DB, 219, 722, 722), (0x00DC, 220, 722, 722), (0x00DD, 221, 667, 667),
    (0x00DE, 222, 667, 667), (0x00DF, 223, 611, 611), (0x00E0, 224, 556, 556),
    (0x00E1, 225, 556, 556), (0x00E2, 226, 556, 556), (0x00E3, 227, 556, 556),
    (0x00E4, 228, 556, 556), (0x00E5, 229, 556, 556), (0x00E6, 230, 889, 889),
    (0x00E7, 231, 500, 556), (0x00E8, 232, 556, 556), (0x00E9, 233, 556, 556),
    (0x00EA, 234, 556, 556), (0x00EB, 235, 556, 556), (0x00EC, 236, 278, 278),
    (0x00ED, 237, 278, 278), (0x00EE, 238, 278, 278), (0x00EF, 239, 278, 278),
    (0x00F0, 240, 556, 611), (0x00F1, 241, 556, 611), (0x00F2, 242, 556, 611),
    (0x00F3, 243, 556, 611), (0x00F4, 244, 556, 611), (0x00F5, 245, 556, 611),
    (0x00F6, 246, 556, 611), (0x00F7, 247, 584, 584), (0x00F8, 248, 611, 611),
    (0x00F9, 249, 556, 611), (0x00FA, 250, 556, 611), (0x00FB, 251, 556, 611),
    (0x00FC, 252, 556, 611), (0x00FD, 253, 500, 556), (0x00FE, 254, 556, 611),
    (0x00FF, 255, 500, 556), (0x0152, 140, 1000, 1000), (0x0153, 156, 944, 944),
    (0x0160, 138, 667, 667), (0x0161, 154, 500, 556), (0x0178, 159, 667, 667),
    (0x017D, 142, 611, 611), (0x017E, 158, 500, 500), (0x0192, 131, 556, 556),
    (0x02C6, 136, 333, 333), (0x02DC, 152, 333, 333), (0x2013, 150, 556, 556),
    (0x2014, 151, 1000, 1000), (0x2018, 145, 222, 278), (0x2019, 146, 222, 278),
    (0x201A, 130, 222, 278), (0x201C, 147, 333, 500), (0x201D, 148, 333, 500),
    (0x201E, 132, 333, 500), (0x2020, 134, 556, 556), (0x2021, 135, 556, 556),
    (0x2022, 127, 350, 350), (0x2026, 133, 1000, 1000), (0x2030, 137, 1000, 1000),
    (0x2039, 139, 333, 333), (0x203A, 155, 333, 333), (0x20AC, 128, 556, 556),
    (0x2122, 153, 1000, 1000)]

/-- The table by code point below 256, where most characters of a text are. -/
def lowGlyphs : Array (Option (Nat × Nat × Nat)) :=
  glyphTable.foldl
    (fun low entry => if entry.1 < 256 then low.set! entry.1 (some entry.2) else low)
    (Array.replicate 256 none)

/-- Byte and widths of a character of the encoding. -/
def glyph? (c : Char) : Option (Nat × Nat × Nat) :=
  if c.toNat < 256 then (lowGlyphs[c.toNat]?).join else glyphTable.lookup c.toNat

/-- The width of the square that is shown for other characters. -/
def squareWidth : Nat := 761

/-- The width of a character in thousandths of the font size. -/
def glyphWidth (bold : Bool) (c : Char) : Nat :=
  match glyph? c with
  | some (_, regular, heavy) => if bold then heavy else regular
  | none => squareWidth

variable {α : Type} [Scalar α]

/-- The width of a text in thousandths of the font size. -/
def glyphSum (bold : Bool) : List Char → Nat
  | [] => 0
  | c :: text => glyphWidth bold c + glyphSum bold text

/-- The width of a text in points. -/
def charsWidth (bold : Bool) (size : α) (text : List Char) : α :=
  Scalar.ofNat (glyphSum bold text) * Scalar.ofRatio 1 1000 * size

/-- The width of a text in points. -/
def textWidth : Measure α := fun text bold size => charsWidth bold size text.toList

/-- Puts words on lines: `line` holds the words of the line being filled, `used` is its width. A
word that does not fit starts a new line, and a line has at least one word. -/
def fillLines (measure : List Char → α) (space width used : α) (line : List (List Char)) :
    List (List Char) → List (List (List Char))
  | [] => if line.isEmpty then [] else [line]
  | word :: words =>
    let extended := used + space + measure word
    if line.isEmpty || decide (extended ≤ width) then
      fillLines measure space width extended (line ++ [word]) words
    else line :: fillLines measure space width (measure word) [word] words

/-- Breaks a text between words. A width of zero means that it is not broken at all. -/
def wrapWords (measure : List Char → α) (width : α) (text : List Char) : List (List Char) :=
  if width ≤ Scalar.zero ∧ Scalar.zero ≤ width then [text]
  else
    let space := measure [' ']
    (fillLines measure space width (Scalar.zero - space) [] (Text.words text)).map
      Text.joinSpaced

/-- Cuts a text at line feeds and breaks each piece between words; a piece without words gives one
empty line. -/
def wrapText (text : String) (bold : Bool) (size width : α) : List String :=
  ((Text.splitFeeds text.toList).flatMap fun piece =>
    match wrapWords (charsWidth bold size) width piece with
    | [] => [[]]
    | lines => lines).map String.ofList

end Receipt.Page
