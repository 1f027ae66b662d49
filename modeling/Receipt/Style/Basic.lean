import Receipt.Number.Scalar
import Receipt.Style.Length

/-!
# Styles as written

`TextStyle` and `ViewStyle` are the fields of a loose style that have an effect. Lengths are in
pixels and may be missing; a length for one edge wins over the length for all of them. Fields that
are compared with a few words only are kept as they are.
-/

namespace Receipt

/-- Where a text stands in its box. -/
inductive Alignment where
  | left
  | center
  | right
deriving DecidableEq, Repr

namespace Alignment

/-- The name of an alignment. -/
def name : Alignment → String
  | left => "left"
  | center => "center"
  | right => "right"

/-- The alignment with a name. -/
def ofName? (name : String) : Option Alignment :=
  [left, center, right].find? fun align => align.name == name

/-- The alignment that a text style names. -/
def ofValue? : Value → Option Alignment
  | .text name => ofName? name
  | _ => none

/-- The alignment that the placement of items in a container implies. -/
def ofItems? (value : Value) : Option Alignment :=
  if value.isTextOf "center" then some center
  else if value.isTextOf "flex-end" then some right
  else none

end Alignment

/-- The line of a border. -/
inductive Border where
  | solid
  | dashed
deriving DecidableEq, Repr

namespace Border

/-- The name of a border. -/
def name : Border → String
  | solid => "solid"
  | dashed => "dashed"

/-- Whether a word occurs in a text. -/
def occurs (word : List Char) : List Char → Bool
  | [] => word.isEmpty
  | c :: rest => word.isPrefixOf (c :: rest) || occurs word rest

/-- The line a border description asks for; an empty one asks for none. -/
def ofText? (description : String) : Option Border :=
  if description.isEmpty then none
  else if occurs "dashed".toList description.toList then some dashed
  else some solid

/-- The border description of a style; a blank one is none. -/
def described? : Value → Option String
  | .text content => if Text.isBlankText content.toList then none else some content
  | _ => none

end Border

/-- The fields of a style that concern text. -/
structure TextStyle (α : Type) where
  fontSize : Option α
  weight : Value
  family : Value
  align : Value
  paddingLeft : Option α
  paddingRight : Option α

/-- The fields of a style that concern a container. -/
structure ViewStyle (α : Type) where
  isRow : Bool
  justify : Value
  items : Value
  paddingTop : Option α
  paddingRight : Option α
  paddingBottom : Option α
  paddingLeft : Option α
  marginTop : Option α
  marginRight : Option α
  marginBottom : Option α
  marginLeft : Option α
  borderTop : Option String
  borderBottom : Option String
  width : Value
  height : Option α

variable {α : Type} [Scalar α]

/-- The length of one edge, or else the one for all edges. -/
def edgeLength (style : Fields) (name : String) (all : Option α) :
    Except NumberFault (Option α) :=
  match Length.ofValue (style.get name) with
  | .error fault => .error fault
  | .ok own => .ok (own.or all)

/-- Reads the fields that concern text. -/
def TextStyle.ofFields (style : Fields) : Except NumberFault (TextStyle α) := do
  let padding ← Length.ofValue (style.get "padding")
  let fontSize ← Length.ofValue (style.get "fontSize")
  let left ← edgeLength style "paddingLeft" padding
  let right ← edgeLength style "paddingRight" padding
  return {
    fontSize := fontSize
    weight := style.get "fontWeight"
    family := style.get "fontFamily"
    align := style.get "textAlign"
    paddingLeft := left
    paddingRight := right }

/-- Reads the fields that concern a container. -/
def ViewStyle.ofFields (style : Fields) : Except NumberFault (ViewStyle α) := do
  let padding ← Length.ofValue (style.get "padding")
  let margin ← Length.ofValue (style.get "margin")
  return {
    isRow := (style.get "flexDirection").isTextOf "row"
    justify := style.get "justifyContent"
    items := style.get "alignItems"
    paddingTop := ← edgeLength style "paddingTop" padding
    paddingRight := ← edgeLength style "paddingRight" padding
    paddingBottom := ← edgeLength style "paddingBottom" padding
    paddingLeft := ← edgeLength style "paddingLeft" padding
    marginTop := ← edgeLength style "marginTop" margin
    marginRight := ← edgeLength style "marginRight" margin
    marginBottom := ← edgeLength style "marginBottom" margin
    marginLeft := ← edgeLength style "marginLeft" margin
    borderTop := Border.described? (style.get "borderTop")
    borderBottom := Border.described? (style.get "borderBottom")
    width := style.get "width"
    height := ← Length.ofValue (style.get "height") }

/-- Whether a width is given at all: it is neither null nor the empty text. -/
def isWidth (width : Value) : Bool := !(width.isNull || width.isTextOf "")

/-- Whether a weight is a bold one: the word, or a number of at least 700. -/
def isBoldWeight : Value → Bool
  | .text content =>
    content == "bold" ||
      (match Text.readNumeral Character.digit? content.toList with
        | some numeral => decide ((700.0 : Float) ≤ numeral.toFloat)
        | none => false)
  | .int number => decide (700 ≤ number)
  | .float number => decide ((700.0 : Float) ≤ number)
  | _ => false

namespace TextStyle

/-- Whether a text is to be bold, by its weight or by the one family that is bold. -/
def isBold (style : TextStyle α) : Bool :=
  isBoldWeight style.weight || style.family.isTextOf "Helvetica-Bold"

end TextStyle

end Receipt
