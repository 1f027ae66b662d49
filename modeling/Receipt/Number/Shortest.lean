import Receipt.Number.Decimal
import Receipt.Number.Binary

/-!
# The fewest digits that read back

Every binary number stands for an interval of reals that round to it. `shortest` gives the decimal
with the fewest digits inside that interval, and of those the one nearest to the number itself. For
each count of digits only the two neighbours of the number on the grid of that count have to be
looked at: when any point of the grid lies in the interval, one of the two does. Seventeen digits
always suffice, so the search is over a fixed list of counts.

The written form (`numberText`) is positional for magnitudes from `10 ^ -4` up to `10 ^ 16` and
scientific with a signed exponent of at least two digits outside.
-/

namespace Receipt

/-- An interval of reals around a value, all over one denominator. -/
structure RoundingInterval where
  low : Nat
  value : Nat
  high : Nat
  den : Nat
  /-- Whether the ends belong to it: ties go to the even significand. -/
  closed : Bool

namespace RoundingInterval

/-- The reals that round to `significand · 2 ^ exponent`. Below a power of two the gap is half as
wide as above it. -/
def around (significand : Nat) (exponent : Int) : RoundingInterval :=
  let below := if significand = pow2 52 ∧ -1074 < exponent then 1 else 2
  let num := if 0 ≤ exponent then pow2 exponent.toNat else 1
  let den := if 0 ≤ exponent then 1 else pow2 (-exponent).toNat
  ⟨(4 * significand - below) * num, 4 * significand * num, (4 * significand + 2) * num, 4 * den,
    significand % 2 == 0⟩

/-- Whether the rational `num / den` lies in the interval. -/
def contains (i : RoundingInterval) (num den : Nat) : Bool :=
  if i.closed then i.low * den ≤ num * i.den && num * i.den ≤ i.high * den
  else i.low * den < num * i.den && num * i.den < i.high * den

end RoundingInterval

/-- The exponent `e` with `10 ^ e ≤ num / den < 10 ^ (e + 1)`, for positive `num` and `den`. -/
def decimalExponent (num den : Nat) : Int :=
  let guess : Int := (decimalLength num : Int) - decimalLength den
  let reached :=
    if 0 ≤ guess then decide (den * pow10 guess.toNat ≤ num)
    else decide (den ≤ num * pow10 (-guess).toNat)
  if reached then guess else guess - 1

/-- The decimal on the grid of `count` digits nearest to the value among the two neighbours that lie
in the interval, when there is one; of two equally near the even one. -/
def gridHit? (interval : RoundingInterval) (lead : Int) (count : Nat) : Option (Nat × Int) :=
  let exponent := lead + 1 - count
  let up := if 0 ≤ exponent then pow10 exponent.toNat else 1
  let down := if 0 ≤ exponent then 1 else pow10 (-exponent).toNat
  let lower := interval.value * down / (interval.den * up)
  let rest := interval.value * down % (interval.den * up)
  let hit (digits : Nat) := interval.contains (digits * up) down
  let lowerNearer := 2 * rest < interval.den * up ∨
    (2 * rest = interval.den * up ∧ lower % 2 = 0)
  if hit lower ∧ (lowerNearer ∨ ¬ hit (lower + 1)) then some (lower, exponent)
  else if hit (lower + 1) then some (lower + 1, exponent)
  else none

/-- The shortest decimal, as digits and exponent, of a positive binary number. -/
def shortest (significand : Nat) (exponent : Int) : Nat × Int :=
  let interval := RoundingInterval.around significand exponent
  let lead := decimalExponent interval.value interval.den
  ((List.range' 1 17).findSome? (gridHit? interval lead)).getD (0, 0)

/-- Drops the trailing zeros of the digits into the exponent; the fuel is the number of digits. -/
def dropTrailingZeros : Nat → Nat → Int → Nat × Int
  | 0, digits, exponent => (digits, exponent)
  | fuel + 1, digits, exponent =>
    if digits ≠ 0 ∧ digits % 10 = 0 then dropTrailingZeros fuel (digits / 10) (exponent + 1)
    else (digits, exponent)

/-- `n` characters `0`. -/
def zeros (n : Nat) : List Char := List.replicate n '0'

/-- The digits of a magnitude placed before and after the point. -/
def positional (digits : List Char) (exponent : Int) : List Char :=
  if 0 ≤ exponent then digits ++ zeros exponent.toNat ++ ".0".toList
  else
    let places := (-exponent).toNat
    if places < digits.length then
      digits.take (digits.length - places) ++ '.' :: digits.drop (digits.length - places)
    else "0.".toList ++ zeros (places - digits.length) ++ digits

/-- The digits of a magnitude with one digit before the point and a power of ten; the exponent has a
sign and at least two digits. -/
def scientific (digits : List Char) (lead : Int) : List Char :=
  let fraction := digits.drop 1
  let point := if fraction.isEmpty then [] else '.' :: fraction
  let power := Nat.toDigits 10 lead.natAbs
  let padded := if power.length < 2 then '0' :: power else power
  digits.take 1 ++ point ++ 'e' :: (if lead < 0 then '-' else '+') :: padded

/-- The magnitude `significand · 2 ^ exponent` in its shortest written form. -/
def magnitudeText (significand : Nat) (exponent : Int) : List Char :=
  if significand = 0 then "0.0".toList
  else
    let (digits, power) := shortest significand exponent
    let (digits, power) := dropTrailingZeros 17 digits power
    let text := Nat.toDigits 10 digits
    let lead : Int := (text.length : Int) - 1 + power
    if -4 ≤ lead ∧ lead < 16 then positional text power else scientific text lead

/-- The written form of a binary number: the fewest digits that read back. -/
def numberText (x : Float) : String :=
  match Binary.ofFloat x with
  | .notANumber => "nan"
  | .infinite negative => if negative then "-inf" else "inf"
  | .finite negative significand exponent =>
    String.ofList ((if negative then ['-'] else []) ++ magnitudeText significand exponent)

end Receipt
