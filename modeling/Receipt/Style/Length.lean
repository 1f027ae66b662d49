import Receipt.Number.Scalar
import Receipt.Text.Numeral
import Receipt.Value.Basic

/-!
# Lengths

A length is a number of pixels, given as a number or as a text: blanks, a decimal numeral without an
exponent, blanks, an optional unit and blanks. The unit is `px`, or `pt` for points, of which three
make four pixels. Digits and blanks of every script count. `Percentage.ofValue?` reads a share of
the width around it: a numeral in front of a percent sign.
-/

namespace Receipt

namespace Length

open Receipt.Character (isBlank digit?)

/-- A length as written: its numeral, and whether it counts points. -/
structure Written where
  numeral : Decimal
  points : Bool
deriving DecidableEq, Repr

/-- The unit at the end of a length: whether it is the point. -/
def readUnit? (text : List Char) : Option Bool :=
  match text with
  | 'p' :: 'x' :: rest => if rest.all isBlank then some false else none
  | 'p' :: 't' :: rest => if rest.all isBlank then some true else none
  | rest => if rest.isEmpty then some false else none

/-- The numeral at the front of a text and what follows it: an optional minus sign, digits, and a
point with digits behind it. -/
def readNumeral? (text : List Char) : Option (Decimal × List Char) :=
  let (negative, text) :=
    match text with
    | '-' :: rest => (true, rest)
    | rest => (false, rest)
  let (whole, rest) := Text.takeDigits digit? text
  if whole.isEmpty then none
  else
    match rest with
    | '.' :: behind =>
      let (fraction, rest) := Text.takeDigits digit? behind
      if fraction.isEmpty then none
      else some (⟨negative, Text.digitsValue (whole ++ fraction), -fraction.length⟩, rest)
    | rest => some (⟨negative, Text.digitsValue whole, 0⟩, rest)

/-- The length a text writes. -/
def ofText? (text : List Char) : Option Written :=
  (readNumeral? (text.dropWhile isBlank)).bind fun (numeral, rest) =>
    (readUnit? (rest.dropWhile isBlank)).map fun points => ⟨numeral, points⟩

variable {α : Type} [Scalar α]

/-- A written length in pixels. -/
def Written.pixels (written : Written) : Option α :=
  (Scalar.ofNumeral (.finite written.numeral)).map fun number =>
    if written.points then number / Scalar.ofRatio 3 4 else number

/-- The length in pixels that a value gives. -/
def ofValue : Value → Except NumberFault (Option α)
  | .int number => (Scalar.ofInt number).map some
  | .float number => .ok (Scalar.ofBinary number)
  | .text content => .ok ((ofText? content.toList).bind Written.pixels)
  | .null | .bool _ | .bytes _ | .picture _ | .samples _ | .member _ | .list _ | .mapping _
  | .element .. | .shared _ => .ok none

end Length

namespace Percentage

/-- The share that a text writes as a percentage. -/
def ofText? {α : Type} [Scalar α] (text : List Char) : Option α :=
  let text := Text.strip text
  if text.getLast? = some '%' then
    ((Text.readNumeral Character.digit? text.dropLast).bind Scalar.ofNumeral).map
      fun number => number / Scalar.ofNat 100
  else none

/-- The share that a value gives. -/
def ofValue? {α : Type} [Scalar α] : Value → Option α
  | .text content => ofText? content.toList
  | _ => none

end Percentage

end Receipt
