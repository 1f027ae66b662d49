import Receipt.Picture.Basic
import Receipt.Text.Numeral

/-!
# Graymap files

A graymap is three numbers in text behind the signature `P5`, the width, the height and the level of
white, and then one byte for each pixel; only files with the level 255 are read. `Unreadable` says why
bytes give no picture: they are no picture file with pixels, their header cannot be read as numbers, or
it promises more pixels than any picture may have.
-/

namespace Receipt

/-- Why a picture file gives no picture. -/
inductive Unreadable where
  /-- The bytes are of no known kind, damaged, or too few. -/
  | noPicture
  /-- The fields of the header are missing or are no numbers. -/
  | badHeader
  /-- The header promises more pixels than a picture may have. -/
  | tooLarge
deriving DecidableEq, Repr

/-- The most pixels a picture file may promise; more are not even looked for. -/
def maxPixels : Nat := 178956970

namespace Graymap

/-- The bytes that separate the fields of the header. -/
def isSeparator (byte : UInt8) : Bool := byte == 32 || (9 ≤ byte && byte ≤ 13)

/-- Leaves out the rest of a comment, with the byte that ends its line. -/
def skipComment : List UInt8 → List UInt8
  | [] => []
  | byte :: rest => if byte == 10 || byte == 13 then rest else skipComment rest

theorem length_skipComment_le (bytes : List UInt8) :
    (skipComment bytes).length ≤ bytes.length := by
  induction bytes with
  | nil => simp [skipComment]
  | cons byte rest ih =>
    rw [skipComment]
    split
    · simp
    · simp only [List.length_cons]
      omega

/-- Reads one field: separators before it and comments are left out, and the separator behind it is
taken away. A field has at most ten bytes. -/
def readField (field : List UInt8) (bytes : List UInt8) : Option (List UInt8 × List UInt8) :=
  if 10 < field.length then none
  else
    match bytes with
    | [] => if field.isEmpty then none else some (field, [])
    | byte :: rest =>
      if isSeparator byte then
        if field.isEmpty then readField [] rest else some (field, rest)
      else if byte == 35 then readField field (skipComment rest)
      else readField (field ++ [byte]) rest
termination_by bytes.length
decreasing_by
  · simp
  · exact Nat.lt_succ_of_le (length_skipComment_le rest)
  · simp

/-- Reads one number of the header. -/
def readNumber (bytes : List UInt8) : Option (Int × List UInt8) :=
  (readField [] bytes).bind fun (field, rest) =>
    (Text.readWhole Character.asciiDigit? (field.map fun byte => Char.ofNat byte.toNat)).map
      fun number => (number, rest)

/-- Reads the picture behind the signature. -/
def readBody (bytes : List UInt8) : Except Unreadable Picture :=
  match (readNumber bytes).bind fun (width, rest) =>
      (readNumber rest).bind fun (height, rest) =>
        (readNumber rest).map fun (white, rest) => (width, height, white, rest) with
  | none => .error .badHeader
  | some (width, height, white, rest) =>
    if white ≤ 0 ∨ 65536 ≤ white then .error .badHeader
    else if width ≤ 0 ∨ height ≤ 0 then .error .noPicture
    else if maxPixels < width.toNat * height.toNat then .error .tooLarge
    else if white ≠ 255 then .error .noPicture
    else
      match Grid.ofList? width.toNat height.toNat (rest.take (width.toNat * height.toNat)) with
      | some pixels => .ok (.gray pixels)
      | none => .error .noPicture

end Graymap

end Receipt
