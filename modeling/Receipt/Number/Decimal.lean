import Receipt.Number.Power

/-!
# Decimal numbers

A `Decimal` is a finite decimal numeral as written: a sign, the digits read as one natural number
and a power of ten. A `Numeral` is what a numeral text can denote: a decimal, an infinity or the
"not a number" datum. `Decimal.toFloat` is the nearest binary number; exponents far outside the
binary range are answered without building the power of ten, because a short text such as
`1e999999999` must not cost its value.
-/

namespace Receipt

/-- The number `digits · 10 ^ exponent`, negated when `negative` is set. -/
structure Decimal where
  negative : Bool
  digits : Nat
  exponent : Int
deriving DecidableEq, Repr

/-- What a numeral text denotes. -/
inductive Numeral where
  | finite (value : Decimal)
  | infinite (negative : Bool)
  | notANumber
deriving DecidableEq, Repr

/-- The number of decimal digits of a natural number; zero has one. -/
def decimalLength (n : Nat) : Nat := (Nat.toDigits 10 n).length

/-- Whether a whole number has at most 4300 digits. A longer one is never written out. -/
def isShort (n : Int) : Bool := decide (decimalLength n.natAbs ≤ 4300)

namespace Decimal

/-- The whole number `n`. -/
def ofNat (n : Nat) : Decimal := ⟨false, n, 0⟩

/-- The exact value. -/
def toRat (d : Decimal) : Rat :=
  let magnitude : Rat :=
    if 0 ≤ d.exponent then (d.digits * pow10 d.exponent.toNat : Nat)
    else mkRat d.digits (pow10 (-d.exponent).toNat)
  if d.negative then -magnitude else magnitude

/-- The nearest binary number, ties to the even significand; beyond the largest one an infinity. -/
def toFloat (d : Decimal) : Float :=
  let lead : Int := decimalLength d.digits + d.exponent
  let magnitude : Float :=
    if d.digits = 0 ∨ lead < -400 then 0.0
    else if 400 < lead then 1.0 / 0.0
    else Float.ofScientific d.digits (decide (d.exponent < 0)) d.exponent.natAbs
  if d.negative then -magnitude else magnitude

end Decimal

namespace Numeral

/-- The binary number a numeral denotes. -/
def toFloat : Numeral → Float
  | .finite d => d.toFloat
  | .infinite negative => if negative then -1.0 / 0.0 else 1.0 / 0.0
  | .notANumber => 0.0 / 0.0

end Numeral

end Receipt
