/-!
# The printer's code page

Receipt printers take one byte per character, from the Portuguese code page 860: ASCII as it is, and
128 further characters from 0x80 on. `Codepage.encode` never fails: a character that has no byte is
printed as a question mark, and the no-break space, which printers show in varying widths, as a
space.
-/

namespace Receipt.Codepage

/-- The code points of the bytes from 0x80 on, in order. -/
def upperHalf : List Nat :=
  [0x00C7, 0x00FC, 0x00E9, 0x00E2, 0x00E3, 0x00E0, 0x00C1, 0x00E7, 0x00EA, 0x00CA, 0x00E8, 0x00CD,
    0x00D4, 0x00EC, 0x00C3, 0x00C2, 0x00C9, 0x00C0, 0x00C8, 0x00F4, 0x00F5, 0x00F2, 0x00DA, 0x00F9,
    0x00CC, 0x00D5, 0x00DC, 0x00A2, 0x00A3, 0x00D9, 0x20A7, 0x00D3, 0x00E1, 0x00ED, 0x00F3, 0x00FA,
    0x00F1, 0x00D1, 0x00AA, 0x00BA, 0x00BF, 0x00D2, 0x00AC, 0x00BD, 0x00BC, 0x00A1, 0x00AB, 0x00BB,
    0x2591, 0x2592, 0x2593, 0x2502, 0x2524, 0x2561, 0x2562, 0x2556, 0x2555, 0x2563, 0x2551, 0x2557,
    0x255D, 0x255C, 0x255B, 0x2510, 0x2514, 0x2534, 0x252C, 0x251C, 0x2500, 0x253C, 0x255E, 0x255F,
    0x255A, 0x2554, 0x2569, 0x2566, 0x2560, 0x2550, 0x256C, 0x2567, 0x2568, 0x2564, 0x2565, 0x2559,
    0x2558, 0x2552, 0x2553, 0x256B, 0x256A, 0x2518, 0x250C, 0x2588, 0x2584, 0x258C, 0x2590, 0x2580,
    0x03B1, 0x00DF, 0x0393, 0x03C0, 0x03A3, 0x03C3, 0x00B5, 0x03C4, 0x03A6, 0x0398, 0x03A9, 0x03B4,
    0x221E, 0x03C6, 0x03B5, 0x2229, 0x2261, 0x00B1, 0x2265, 0x2264, 0x2320, 0x2321, 0x00F7, 0x2248,
    0x00B0, 0x2219, 0x00B7, 0x221A, 0x207F, 0x00B2, 0x25A0, 0x00A0]

/-- The byte of a character. -/
def byte? (c : Char) : Option UInt8 :=
  if c.toNat < 128 then some (UInt8.ofNat c.toNat)
  else (upperHalf.findIdx? (· == c.toNat)).map fun i => UInt8.ofNat (128 + i)

/-- The character of a byte. -/
def char (byte : UInt8) : Char :=
  if byte.toNat < 128 then Char.ofNat byte.toNat
  else Char.ofNat (upperHalf.getD (byte.toNat - 128) 0)

/-- The byte printed where a character has none: a question mark. -/
def fallback : UInt8 := 0x3F

/-- The byte a character is printed with. -/
def printedByte (c : Char) : UInt8 :=
  if c.toNat = 0xA0 then 0x20 else (byte? c).getD fallback

/-- The bytes a text is printed with, one for each character. -/
def encode (text : List Char) : List UInt8 := text.map printedByte

/-- Whether a text is a single character that has a byte of its own. -/
def isSupported (text : List Char) : Bool :=
  match text with
  | [c] => (byte? c).isSome
  | _ => false

end Receipt.Codepage
