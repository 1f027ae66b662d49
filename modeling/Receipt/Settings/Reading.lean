import Receipt.Number.Binary
import Receipt.Text.Numeral
import Receipt.Value.Basic

/-!
# Reading settings

Settings come as values of many kinds: numbers, numerals in a text, words for yes and no. Each
reading takes what plainly stands for a value of its type and says of everything else why it does
not (`IssueKind`). An `Issue` is such a fault with the field it is about.
-/

namespace Receipt

/-- Why a value is not accepted for a field. -/
inductive IssueKind where
  | notOneOf
  | noWhole
  | noWholeNumeral
  | fraction
  | oversized
  | notFinite
  | noNumber
  | noNumeral
  | noSwitch
  | noSwitchWord
  | tooSmall
  | tooLarge
  | notAbove
  | noMapping
  | noKind
  | noText
  | noUnicode
  | unknownField
deriving DecidableEq, Repr

namespace IssueKind

/-- The name of a fault. -/
def name : IssueKind → String
  | notOneOf => "literal_error"
  | noWhole => "int_type"
  | noWholeNumeral => "int_parsing"
  | fraction => "int_from_float"
  | oversized => "int_parsing_size"
  | notFinite => "finite_number"
  | noNumber => "float_type"
  | noNumeral => "float_parsing"
  | noSwitch => "bool_type"
  | noSwitchWord => "bool_parsing"
  | tooSmall => "greater_than_equal"
  | tooLarge => "less_than_equal"
  | notAbove => "greater_than"
  | noMapping => "dict_type"
  | noKind => "enum"
  | noText => "string_type"
  | noUnicode => "string_unicode"
  | unknownField => "extra_forbidden"

end IssueKind

/-- A field whose value is not accepted, and why. -/
structure Issue where
  field : String
  kind : IssueKind
deriving DecidableEq, Repr

namespace Issue

/-- Whether an issue is listed before another: by field, then by the name of the fault. -/
def before (a b : Issue) : Bool :=
  decide (a.field < b.field) || (a.field == b.field && decide (a.kind.name ≤ b.kind.name))

end Issue

namespace Reading

/-- Whether two underscores follow one another. -/
def hasDoubleUnderscore : List Char → Bool
  | '_' :: '_' :: _ => true
  | _ :: rest => hasDoubleUnderscore rest
  | [] => false

/-- Removes underscores that stand alone inside a text. -/
def withoutUnderscores (text : List Char) : List Char :=
  if text.head? = some '_' ∨ text.getLast? = some '_' ∨ hasDoubleUnderscore text then text
  else text.filter (· != '_')

/-- Removes zeros in front of a numeral, with the underscores among them; one zero is left before a
point or at the end. A text that starts with neither a digit nor a minus sign is no numeral. -/
def withoutLeadingZeros (text : List Char) : Option (List Char) :=
  match text with
  | '0' :: rest =>
    let last := ((text.take (text.length - rest.length +
      (rest.takeWhile fun c => c == '0' || c == '_').length)).getLast?).getD '0'
    match rest.dropWhile fun c => c == '0' || c == '_' with
    | [] => some [last]
    | '.' :: behind => some (last :: '.' :: behind)
    | c :: behind => if c.isDigit then some (c :: behind) else none
  | c :: _ => if c.isDigit || c == '-' then some text else none
  | [] => none

/-- Removes a point behind which there are only zeros. -/
def withoutZeroFraction (text : List Char) : List Char :=
  let behind := text.dropWhile (· != '.')
  if (behind.drop 1).all (· == '0') then text.takeWhile (· != '.') else text

/-- The whole number written plainly: a minus sign or none, and digits without a zero in front. -/
def plainWhole? (text : List Char) : Option Int :=
  let (negative, digits) :=
    match text with
    | '-' :: rest => (true, rest)
    | rest => (false, rest)
  if digits.isEmpty || !digits.all Char.isDigit || (digits.head? == some '0' && 1 < digits.length)
  then none
  else
    let magnitude : Int := Text.digitsValue (digits.map fun c => c.toNat - 48)
    some (if negative then -magnitude else magnitude)

/-- The whole number of a text: white space around it, a plus sign, zeros in front, single
underscores and a fraction of zeros do not matter. -/
def wholeOfText? (text : List Char) : Option Int :=
  match plainWhole? text with
  | some n => some n
  | none =>
    let trimmed := Text.trim text
    let unsigned :=
      match trimmed with
      | '+' :: rest => rest
      | rest => rest
    (withoutLeadingZeros unsigned).bind fun digits =>
      plainWhole? (withoutUnderscores (withoutZeroFraction digits))

/-- The number of a text. -/
def numberOfText? (text : List Char) : Option Float :=
  let plain := withoutUnderscores text
  if plain.contains '_' then none
  else (Text.readNumeral Character.asciiDigit? (Text.trim plain)).map Numeral.toFloat

/-- The text that a value brings. Bytes that are no text bring the empty one, which stands for
nothing. -/
def text? : Value → Option (List Char)
  | .text content => some content.toList
  | .bytes content => some ((String.fromUTF8? ⟨content.toArray⟩).elim [] String.toList)
  | _ => none

/-- Whether a whole number fits a signed word of 64 bits. -/
def fitsWord (n : Int) : Bool := -(pow2 63 : Int) ≤ n && n < pow2 63

/-- The whole number a binary number is; one with a fraction, or beyond a word, is refused. -/
def wholeOfFloat (x : Float) : Except IssueKind Int :=
  match (Binary.ofFloat x).truncate with
  | .error _ => .error .notFinite
  | .ok n =>
    if x != x.round then .error .fraction
    else if fitsWord n then .ok n
    else .error .oversized

/-- Reads a whole number. A numeral has at most 4300 digits. -/
def whole (value : Value) : Except IssueKind Int :=
  match value with
  | .int n => .ok n
  | .bool holds => .ok (if holds then 1 else 0)
  | .float x => wholeOfFloat x
  | value =>
    match text? value with
    | none => .error .noWhole
    | some text =>
      match wholeOfText? text with
      | some n => if n.natAbs < pow10 4300 then .ok n else .error .oversized
      | none => .error .noWholeNumeral

/-- Reads a number. -/
def number (value : Value) : Except IssueKind Float :=
  match value with
  | .int n =>
    match floatOfInt n with
    | .ok x => .ok x
    | .error _ => .error .noNumber
  | .bool holds => .ok (if holds then 1.0 else 0.0)
  | .float x => .ok x
  | value =>
    match text? value with
    | none => .error .noNumber
    | some text =>
      match numberOfText? text with
      | some x => .ok x
      | none => .error .noNumeral

/-- The words that switch off and on. -/
def switchWord? (word : String) : Option Bool :=
  if ["0", "off", "f", "false", "n", "no"].contains word then some false
  else if ["1", "on", "t", "true", "y", "yes"].contains word then some true
  else none

/-- The switch that the numbers zero and one stand for. -/
def switchNumber (n : Int) : Except IssueKind Bool :=
  if n = 0 then .ok false
  else if n = 1 then .ok true
  else if fitsWord n then .error .noSwitchWord
  else .error .noSwitch

/-- Reads a switch. -/
def switch (value : Value) : Except IssueKind Bool :=
  match value with
  | .bool holds => .ok holds
  | .int n => switchNumber n
  | .float x =>
    match wholeOfFloat x with
    | .error _ => .error .noSwitch
    | .ok n => switchNumber n
  | value =>
    match text? value with
    | none => .error .noSwitch
    | some text =>
      match switchWord? (String.ofList (text.map Char.toLower)) with
      | some holds => .ok holds
      | none => .error .noSwitchWord

/-- Reads one of several words. -/
def word {β : Type} (ofName? : String → Option β) (value : Value) : Except IssueKind β :=
  match value with
  | .text name =>
    match ofName? name with
    | some choice => .ok choice
    | none => .error .notOneOf
  | _ => .error .notOneOf

/-- Reads a value that may be null. -/
def optional {β : Type} (read : Value → Except IssueKind β) (value : Value) :
    Except IssueKind (Option β) :=
  if value.isNull then .ok none else (read value).map some

/-- Reads a whole number that is not below a bound. -/
def wholeFrom (least : Int) (value : Value) : Except IssueKind Int :=
  match whole value with
  | .error kind => .error kind
  | .ok n => if n < least then .error .tooSmall else .ok n

/-- Reads a whole number between two bounds. -/
def wholeBetween (least greatest : Int) (value : Value) : Except IssueKind Int :=
  match whole value with
  | .error kind => .error kind
  | .ok n =>
    if greatest < n then .error .tooLarge else if n < least then .error .tooSmall else .ok n

/-- Reads a number above zero. -/
def numberAboveZero (value : Value) : Except IssueKind Float :=
  match number value with
  | .error kind => .error kind
  | .ok x => if 0.0 < x then .ok x else .error .notAbove

end Reading

end Receipt
