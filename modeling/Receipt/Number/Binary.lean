import Receipt.Number.Power

/-!
# The exact value of a binary number

`Binary.ofFloat` takes a `Float` apart into a sign, a whole significand and a power of two, so that
rounding, truncation and printing are exact arithmetic on whole numbers. The rounding functions
`Binary.truncate`, `Binary.roundEven` and `Binary.roundHalfDown` refuse the data that have no whole
number near them and say why (`NumberFault`).
-/

namespace Receipt

/-- Why a number has no whole number to stand for it, no place among the binary numbers, or no text. -/
inductive NumberFault where
  /-- A whole number was asked of the "not a number" datum. -/
  | notANumber
  /-- A whole number was asked of an infinity. -/
  | infinite
  /-- A whole number is larger than every binary number. -/
  | outOfRange
  /-- A whole number has too many digits to be written out. -/
  | tooLong
deriving DecidableEq, Repr

/-- The datum a `Float` stands for: `significand · 2 ^ exponent` with its sign, an infinity, or
"not a number". -/
inductive Binary where
  | finite (negative : Bool) (significand : Nat) (exponent : Int)
  | infinite (negative : Bool)
  | notANumber
deriving DecidableEq, Repr

/-- `num / den` rounded to the nearest whole number, a half to the even one. -/
def roundQuotient (num den : Nat) : Nat :=
  let quotient := num / den
  let rest := num % den
  if 2 * rest < den then quotient
  else if den < 2 * rest then quotient + 1
  else quotient + quotient % 2

namespace Binary

/-- The significand and the exponent are read off the bits; a zero exponent field marks the numbers
without the hidden bit. -/
def ofFloat (x : Float) : Binary :=
  let bits := x.toBits.toNat
  let negative := decide (pow2 63 ≤ bits)
  let field : Nat := bits / pow2 52 % pow2 11
  let fraction : Nat := bits % pow2 52
  if field = 2047 then
    if fraction = 0 then .infinite negative else .notANumber
  else if field = 0 then .finite negative fraction (-1074)
  else .finite negative (pow2 52 + fraction) ((field : Int) - 1075)

/-- A sign put before a natural number. -/
def signed (negative : Bool) (n : Nat) : Int := if negative then -(n : Int) else n

/-- The magnitude as a quotient of natural numbers. -/
def ratio (significand : Nat) (exponent : Int) : Nat × Nat :=
  if 0 ≤ exponent then (significand * pow2 exponent.toNat, 1)
  else (significand, pow2 (-exponent).toNat)

/-- The whole part, cut toward zero. -/
def truncate : Binary → Except NumberFault Int
  | .finite negative significand exponent =>
    let (num, den) := ratio significand exponent
    .ok (signed negative (num / den))
  | .infinite _ => .error .infinite
  | .notANumber => .error .notANumber

/-- The nearest whole number, a half to the even one. -/
def roundEven : Binary → Except NumberFault Int
  | .finite negative significand exponent =>
    let (num, den) := ratio significand exponent
    .ok (signed negative (roundQuotient num den))
  | .infinite _ => .error .infinite
  | .notANumber => .error .notANumber

/-- The nearest whole number, a half toward zero. -/
def roundHalfDown : Binary → Except NumberFault Int
  | .finite negative significand exponent =>
    let (num, den) := ratio significand exponent
    .ok (signed negative (num / den + if den < 2 * (num % den) then 1 else 0))
  | .infinite _ => .error .infinite
  | .notANumber => .error .notANumber

/-- The exact value of a finite datum. -/
def toRat? : Binary → Option Rat
  | .finite negative significand exponent =>
    let (num, den) := ratio significand exponent
    some (mkRat (signed negative num) den)
  | .infinite _ | .notANumber => none

end Binary

/-- How often `n` fits into a magnitude `x`. The largest multiple of `n` in `x` is exact; it is rounded
to a binary number and again by the division, and the whole number nearest to the quotient is the
answer. -/
def floatFloorQuotient (x : Float) (n : Nat) : Except NumberFault Int :=
  match Binary.ofFloat x with
  | .finite _ significand exponent =>
    let (num, den) := Binary.ratio significand exponent
    let multiple := num / (den * n) * n
    (Binary.ofFloat (Float.ofNat multiple / Float.ofNat n)).roundHalfDown
  | .infinite _ | .notANumber => .error .notANumber

/-- The nearest binary number to a whole number, refused when even the largest is too small. -/
def floatOfInt (i : Int) : Except NumberFault Float :=
  let x := Float.ofInt i
  if x.isFinite then .ok x else .error .outOfRange

end Receipt
