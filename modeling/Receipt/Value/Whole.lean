import Receipt.Number.Binary
import Receipt.Text.Numeral
import Receipt.Value.Basic

/-!
# Values read as whole numbers

A module size and the like may be given as a number or as a numeral. `Value.whole` cuts a number
toward zero and reads a numeral, and says for everything else why it is no whole number.
-/

namespace Receipt

/-- Why a value is no whole number. -/
inductive WholeFault where
  /-- The value is of a kind that holds no number. -/
  | noNumber
  /-- The text is no numeral. -/
  | noNumeral
  /-- The number has no whole number near it. -/
  | number (fault : NumberFault)
deriving DecidableEq, Repr

/-- The whole number a text of at most 4300 digits denotes. -/
def readShortWhole (digit? : Char → Option Nat) (text : List Char) : Option Int :=
  if 4300 < (text.filter fun c => (digit? c).isSome).length then none
  else Text.readWhole digit? text

namespace Value

/-- The whole number a value stands for. -/
def whole : Value → Except WholeFault Int
  | int number => .ok number
  | bool holds => .ok (if holds then 1 else 0)
  | float number =>
    match (Binary.ofFloat number).truncate with
    | .ok n => .ok n
    | .error fault => .error (.number fault)
  | text content =>
    match readShortWhole Character.digit? content.toList with
    | some n => .ok n
    | none => .error .noNumeral
  | bytes content =>
    if content.any (128 ≤ ·) then .error .noNumeral
    else
      match readShortWhole Character.asciiDigit? (content.map fun byte => Char.ofNat byte.toNat) with
      | some n => .ok n
      | none => .error .noNumeral
  | null | picture _ | samples _ | member _ | list _ | mapping _ | element .. | shared _ => .error .noNumber

end Value

end Receipt
