import Receipt.Number.Decimal
import Receipt.Number.Binary

/-!
# Numbers to measure with

Lengths, widths and positions are computed over any type that is a `Scalar`: it has the four
operations, an order that may be undecided on data that are no numbers, and ways in from whole
numbers, decimals and binary numbers. The program runs on `Float`; `Rat` is the same arithmetic
without rounding, in which every way in from a finite datum is exact and the others have no value.

`Scalar.min` and `Scalar.max` keep their left operand unless the right one is strictly better, so a
datum that compares with nothing on the right is never taken.
-/

namespace Receipt

/-- A number type that layout can be computed in. -/
class Scalar (α : Type) extends Add α, Sub α, Mul α, Div α, LT α, LE α where
  decidableLT : DecidableLT α
  decidableLE : DecidableLE α
  /-- The nearest number to the quotient of a whole number and a natural number. -/
  ofRatio : Int → Nat → α
  /-- A whole number, refused when it lies beyond the type. -/
  ofInt : Int → Except NumberFault α
  /-- What a numeral denotes, when the type has it. -/
  ofNumeral : Numeral → Option α
  /-- The number a binary datum stands for, when the type has it. -/
  ofBinary : Float → Option α
  /-- The whole part, cut toward zero. -/
  truncate : α → Except NumberFault Int
  /-- The nearest whole number, a half to the even one. -/
  roundEven : α → Except NumberFault Int
  /-- How often a natural number fits into the number. -/
  floorQuotient : α → Nat → Except NumberFault Int

attribute [reducible, instance] Scalar.decidableLT Scalar.decidableLE

namespace Scalar

variable {α : Type} [Scalar α]

/-- The natural number `n`. -/
def ofNat (n : Nat) : α := ofRatio n 1

/-- Zero. -/
def zero : α := ofNat 0

/-- One. -/
def one : α := ofNat 1

/-- The smaller of two numbers, the left one unless the right one is strictly smaller. -/
def min (a b : α) : α := if b < a then b else a

/-- The larger of two numbers, the left one unless the right one is strictly larger. -/
def max (a b : α) : α := if a < b then b else a

/-- The sum of a list, added up from the left. -/
def sum (xs : List α) : α := xs.foldl (· + ·) zero

/-- Whether the datum is a number: one that compares with itself. -/
def isNumber (a : α) : Bool := decide (a ≤ a)

end Scalar

instance : Scalar Float where
  decidableLT := inferInstance
  decidableLE := inferInstance
  ofRatio num den := Float.ofInt num / Float.ofNat den
  ofInt := floatOfInt
  ofNumeral n := some n.toFloat
  ofBinary x := some x
  truncate x := (Binary.ofFloat x).truncate
  roundEven x := (Binary.ofFloat x).roundEven
  floorQuotient := floatFloorQuotient

/-- A rational rounded to the nearest whole number, a half to the even one. -/
def ratRoundEven (x : Rat) : Int :=
  let whole := x.floor
  if x - whole < 1 / 2 then whole
  else if 1 / 2 < x - whole then whole + 1
  else whole + whole % 2

instance : Scalar Rat where
  decidableLT := inferInstance
  decidableLE := inferInstance
  ofRatio num den := mkRat num den
  ofInt i := .ok i
  ofNumeral
    | .finite d => some d.toRat
    | .infinite _ | .notANumber => none
  ofBinary x := (Binary.ofFloat x).toRat?
  truncate x := .ok (if 0 ≤ x then x.floor else -((-x).floor))
  roundEven x := .ok (ratRoundEven x)
  floorQuotient x n := .ok (x / (n : Rat)).floor

end Receipt
