import Receipt.Number.Binary

/-!
# Fixed places

`fixedText places x` writes the exact value of a binary number with a fixed number of decimal
places, a half going to the even digit. `compactText` is the number format of page content streams:
at most six significant digits after the first, no trailing zeros and no zero before the point. Only
finite numbers have it (`compactFault?`).
-/

namespace Receipt

/-- A natural number of `10 ^ -places` written with that many places. -/
def placesText (places scaled : Nat) : List Char :=
  let digits := Nat.toDigits 10 scaled
  let padded := List.replicate (places + 1 - digits.length) '0' ++ digits
  let whole := padded.take (padded.length - places)
  if places = 0 then whole else whole ++ '.' :: padded.drop (padded.length - places)

/-- The value with `places` decimal places, or the name of the datum that has none. -/
def fixedText (places : Nat) (x : Float) : String :=
  match Binary.ofFloat x with
  | .notANumber => "nan"
  | .infinite negative => if negative then "-inf" else "inf"
  | .finite negative significand exponent =>
    let (num, den) := Binary.ratio significand exponent
    let scaled := roundQuotient (num * pow10 places) den
    String.ofList ((if negative then ['-'] else []) ++ placesText places scaled)

/-- How many places the compact format gives a magnitude: six for a magnitude up to one, and one
less for each digit before the point after the first. -/
def compactPlaces (magnitude : Float) : Nat :=
  if magnitude ≤ 1.0 then 6
  else
    match (Binary.ofFloat (magnitude.log / (10.0 : Float).log)).truncate with
    | .ok digits => min (6 - digits).toNat 6
    | .error _ => 0

/-- Removes the zeros after the last significant decimal place, and the point when none is left. -/
def trimPlaces (text : List Char) : List Char :=
  if text.contains '.' then
    let kept := text.reverse.dropWhile (· == '0')
    (if kept.head? == some '.' then kept.drop 1 else kept).reverse
  else text

/-- Why a number has no form in page content; none for finite numbers. -/
def compactFault? (x : Float) : Option NumberFault :=
  match Binary.ofFloat x with
  | .finite .. => none
  | .infinite _ => some .infinite
  | .notANumber => some .notANumber

/-- The number format of page content: `0` for magnitudes up to `10 ^ -7`, else the compact places
without trailing zeros; a positive number below one starts with its point. -/
def compactText (x : Float) : String :=
  let magnitude := x.abs
  if magnitude ≤ 1.0e-7 then "0"
  else
    match trimPlaces (fixedText (compactPlaces magnitude) x).toList with
    | '0' :: '.' :: rest => String.ofList ('.' :: rest)
    | text => String.ofList text

end Receipt
