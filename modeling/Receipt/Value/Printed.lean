import Receipt.Value.Basic
import Receipt.Text.Unprinted

/-!
# The printed form of values

`Value.printed` is what a value shows as on paper: a text as it is, a number with the fewest digits
that read back, and lists and mappings in brackets with their texts quoted. `Value.content?` is the
literal text that the value of an element's content gives; only texts and numbers give one.

A whole number of more than 4300 digits is not written out, alone or inside another value
(`Value.isWritten`), and a text that it should stand in is not made: `Value.written` is the printed form
short of that.
-/

namespace Receipt

/-- A hexadecimal number of at least `count` digits. -/
def hexText (count n : Nat) : List Char :=
  let digits := Nat.toDigits 16 n
  List.replicate (count - digits.length) '0' ++ digits

/-- A character inside quotes: the quote and the backslash behind a backslash, what is not printed as
an escape of the shortest kind. -/
def quotedChar (quote c : Char) : List Char :=
  let n := c.toNat
  if c = quote ∨ c = '\\' then ['\\', c]
  else if c = '\n' then ['\\', 'n']
  else if c = '\r' then ['\\', 'r']
  else if c = '\t' then ['\\', 't']
  else if Character.isPrinted c then [c]
  else if n < 256 then ['\\', 'x'] ++ hexText 2 n
  else if n < 65536 then ['\\', 'u'] ++ hexText 4 n
  else ['\\', 'U'] ++ hexText 8 n

/-- The quote for a text: the double one only when the text has single quotes and no double ones. -/
def quoteFor (text : List Char) : Char :=
  if text.contains '\x27' && !text.contains '"' then '"' else '\x27'

/-- A text in quotes. -/
def quoted (text : List Char) : List Char :=
  let quote := quoteFor text
  quote :: text.flatMap (quotedChar quote) ++ [quote]

/-- A byte inside quotes, with escapes for all but printed ASCII. -/
def quotedByte (quote : Char) (byte : UInt8) : List Char :=
  let n := byte.toNat
  if n < 127 then quotedChar quote (Char.ofNat n) else ['\\', 'x'] ++ hexText 2 n

/-- Bytes in quotes. -/
def quotedBytes (bytes : List UInt8) : List Char :=
  let quote := quoteFor (bytes.map fun byte => Char.ofNat byte.toNat)
  'b' :: quote :: bytes.flatMap (quotedByte quote) ++ [quote]

/-- Texts one after the other with a comma and a space between each two. -/
def commaSeparated : List (List Char) → List Char
  | [] => []
  | [text] => text
  | text :: texts => text ++ [',', ' '] ++ commaSeparated texts

/-- Texts in round brackets; a comma stands behind a single one. -/
def bracketed : List (List Char) → List Char
  | [text] => '(' :: text ++ [',', ')']
  | texts => '(' :: commaSeparated texts ++ [')']

/-- The name of a standard kind as a value of its own. -/
def Kind.label : Kind → String
  | document => "NodeType.DOCUMENT"
  | page => "NodeType.PAGE"
  | view => "NodeType.VIEW"
  | text => "NodeType.TEXT"
  | run => "NodeType.TEXT_RUN"
  | image => "NodeType.IMAGE"

namespace Value

/-- The printed form of the props or the style of an element: a mapping is shown as read-only. -/
def sealedText (value : Value) (text : List Char) : List Char :=
  match value with
  | mapping _ => "mappingproxy(".toList ++ text ++ [')']
  | _ => text

mutual

/-- The printed form of a value inside brackets, where texts are quoted. -/
def inner : Value → List Char
  | null => "None".toList
  | bool holds => (if holds then "True" else "False").toList
  | int number => (toString number).toList
  | float number => (numberText number).toList
  | text content => quoted content.toList
  | bytes content => quotedBytes content
  | picture content => "<Image mode=".toList ++ content.mode.toList ++ ['>']
  | samples content => "<ndarray ".toList ++ content.element.toList ++ ['>']
  | member kind => '<' :: kind.label.toList ++ [':', ' '] ++ quoted kind.name.toList ++ ['>']
  | list items => '[' :: commaSeparated (innerItems items) ++ [']']
  | mapping fields => '\x7b' :: commaSeparated (innerFields fields) ++ ['\x7d']
  | element type props style children =>
    "PrintNode(type=".toList ++ type.inner ++ ", props=".toList ++ sealedText props props.inner ++
      ", children=".toList ++ bracketed (innerItems children) ++ ", style=".toList ++
      sealedText style style.inner ++ [')']
  | shared index => "<shared ".toList ++ (toString index).toList ++ ['>']

/-- The printed forms of the items of a list. -/
def innerItems : List Value → List (List Char)
  | [] => []
  | item :: items => item.inner :: innerItems items

/-- The printed forms of the fields of a mapping. -/
def innerFields : List (String × Value) → List (List Char)
  | [] => []
  | (name, value) :: fields =>
    (quoted name.toList ++ [':', ' '] ++ value.inner) :: innerFields fields

end

/-- The printed form of a value. -/
def printed : Value → String
  | text content => content
  | member kind => kind.label
  | value => String.ofList value.inner

mutual

/-- Whether all whole numbers in a value can be written out. -/
def isWritten : Value → Bool
  | int number => isShort number
  | list items => areWritten items
  | mapping fields => fieldsAreWritten fields
  | element type props style children =>
    type.isWritten && props.isWritten && style.isWritten && areWritten children
  | null | bool _ | float _ | text _ | bytes _ | picture _ | samples _ | member _ | shared _ => true

/-- Whether this holds of several values. -/
def areWritten : List Value → Bool
  | [] => true
  | item :: items => item.isWritten && areWritten items

/-- Whether this holds of the fields of a mapping. -/
def fieldsAreWritten : List (String × Value) → Bool
  | [] => true
  | (_, value) :: fields => value.isWritten && fieldsAreWritten fields

end

/-- The printed form of a value whose whole numbers can be written out. -/
def written (value : Value) : Except NumberFault String :=
  if value.isWritten then .ok value.printed else .error .tooLong

theorem written_eq_ok_iff {value : Value} {text : String} :
    value.written = .ok text ↔ value.isWritten = true ∧ value.printed = text := by
  unfold written
  cases value.isWritten <;> simp

/-- The literal text of a value that is a text or a number, however long. -/
def content? : Value → Option String
  | text content => some content
  | int number => some (toString number)
  | float number => some (numberText number)
  | _ => none

end Value

end Receipt
