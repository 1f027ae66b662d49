import Receipt.Number.Decimal
import Receipt.Text.Lines

/-!
# Numerals in a text

`readNumeral` reads a decimal numeral: a sign, digits with at most one point among them, a power of
ten, or one of the words `inf`, `infinity` and `nan` in any case. `readWhole` reads a whole number.
Both allow white space around the numeral and single underscores between digits, and both take the digits
that count as such as a parameter, so that the same grammar serves one script or all of them.
-/

namespace Receipt.Text

open Receipt.Character (isWhite lower)

/-- Removes the white space at both ends. -/
def trim (text : List Char) : List Char :=
  ((text.dropWhile isWhite).reverse.dropWhile isWhite).reverse

/-- The digits at the front of a text, and what follows them. -/
def takeDigits (digit? : Char → Option Nat) : List Char → List Nat × List Char
  | [] => ([], [])
  | c :: rest =>
    match digit? c with
    | some d =>
      let (digits, after) := takeDigits digit? rest
      (d :: digits, after)
    | none => ([], c :: rest)

/-- The number that digits denote, most significant first. -/
def digitsValue (digits : List Nat) : Nat := digits.foldl (fun n d => 10 * n + d) 0

/-- Removes underscores, each of which has to stand between two digits. -/
def dropUnderscores (digit? : Char → Option Nat) (afterDigit : Bool) :
    List Char → Option (List Char)
  | [] => some []
  | '_' :: c :: rest =>
    if afterDigit && (digit? c).isSome then
      (dropUnderscores digit? true rest).map (c :: ·)
    else none
  | c :: rest =>
    if c = '_' then none
    else (dropUnderscores digit? (digit? c).isSome rest).map (c :: ·)

/-- A sign in front of a text: whether it is a minus, and what follows. -/
def takeSign : List Char → Bool × List Char
  | '-' :: rest => (true, rest)
  | '+' :: rest => (false, rest)
  | text => (false, text)

/-- The power of ten at the end of a numeral; nothing at all is the power zero. -/
def readPower (digit? : Char → Option Nat) : List Char → Option Int
  | [] => some 0
  | c :: rest =>
    if c = 'e' ∨ c = 'E' then
      let (negative, rest) := takeSign rest
      match takeDigits digit? rest with
      | ([], _) => none
      | (digits, []) =>
        let power : Int := digitsValue digits
        some (if negative then -power else power)
      | (_, _ :: _) => none
    else none

/-- The decimal a text without its sign denotes. -/
def readMagnitude (digit? : Char → Option Nat) (negative : Bool) (text : List Char) :
    Option Decimal :=
  let (whole, rest) := takeDigits digit? text
  let (fraction, rest) :=
    match rest with
    | '.' :: rest => takeDigits digit? rest
    | rest => ([], rest)
  if whole.isEmpty && fraction.isEmpty then none
  else
    (readPower digit? rest).map fun power =>
      ⟨negative, digitsValue (whole ++ fraction), power - fraction.length⟩

/-- The numeral a text denotes. -/
def readNumeral (digit? : Char → Option Nat) (text : List Char) : Option Numeral :=
  match dropUnderscores digit? false (trim text) with
  | none => none
  | some text =>
    let (negative, rest) := takeSign text
    let word := rest.map lower
    if word = "inf".toList ∨ word = "infinity".toList then some (.infinite negative)
    else if word = "nan".toList then some .notANumber
    else (readMagnitude digit? negative rest).map .finite

/-- The whole number a text denotes. -/
def readWhole (digit? : Char → Option Nat) (text : List Char) : Option Int :=
  match dropUnderscores digit? false (trim text) with
  | none => none
  | some text =>
    let (negative, rest) := takeSign text
    match takeDigits digit? rest with
    | ([], _) => none
    | (digits, []) =>
      let magnitude : Int := digitsValue digits
      some (if negative then -magnitude else magnitude)
    | (_, _ :: _) => none

end Receipt.Text
