import Receipt.Picture.Basic
import Receipt.Number.Shortest
import Receipt.Tree.Kind

/-!
# Loose values

Trees, styles and sources arrive as loose values: the data a text format can hold, pictures and
arrays of samples handed over in memory, the standard kinds of elements, and elements that were built
by hand. A value may refer to an entry of a table of shared values, so that an element can have several
parents, or be its own ancestor. `Value.isVacant` holds of what counts as absent, and `Value.kindName`
is the name of a value's kind in messages.
-/

namespace Receipt

/-- An array of numbers; only arrays of bytes keep their cells. -/
structure Samples where
  element : String
  shape : List Nat
  cells : List UInt8

/-- How many cells an array has. -/
def Samples.count (samples : Samples) : Nat := samples.shape.foldl (· * ·) 1

/-- A loose value. -/
inductive Value where
  | null
  | bool (holds : Bool)
  | int (number : Int)
  | float (number : Float)
  | text (content : String)
  | bytes (content : List UInt8)
  | picture (content : Picture)
  | samples (content : Samples)
  /-- One of the standard kinds of elements, named without a text. -/
  | member (kind : Kind)
  | list (items : List Value)
  | mapping (fields : List (String × Value))
  /-- An element as it was built, its parts unchecked. -/
  | element (type props style : Value) (children : List Value)
  /-- The entry of the table of shared values with this number. -/
  | shared (index : Nat)

instance : Inhabited Value := ⟨.null⟩

/-- Named values in the order in which they were given. -/
abbrev Fields := List (String × Value)

namespace Fields

/-- The value of a name. -/
def get? (fields : Fields) (name : String) : Option Value := List.lookup name fields

/-- The value of a name; null when the name is missing. -/
def get (fields : Fields) (name : String) : Value := (fields.get? name).getD .null

/-- Gives a name a value, in its old place when it has one. -/
def set (name : String) (value : Value) : Fields → Fields
  | [] => [(name, value)]
  | (other, old) :: rest =>
    if other = name then (name, value) :: rest else (other, old) :: set name value rest

end Fields

namespace Value

/-- Whether a value is a text. -/
def isText : Value → Bool
  | text _ => true
  | _ => false

/-- Whether a value is this text. -/
def isTextOf (value : Value) (content : String) : Bool :=
  match value with
  | text s => s == content
  | _ => false

/-- Whether a value is missing. -/
def isNull : Value → Bool
  | null => true
  | _ => false

/-- Whether a value counts neither as absent nor as given: an array of more or fewer cells than one. -/
def isUndecided : Value → Bool
  | samples content => content.count != 1
  | _ => false

/-- Whether a value counts as absent: null, false, zero or empty, or an array of one zero. -/
def isVacant : Value → Bool
  | null => true
  | bool holds => !holds
  | int number => number == 0
  | float number => number == 0.0
  | text content => content.isEmpty
  | bytes content => content.isEmpty
  | list items => items.isEmpty
  | mapping fields => fields.isEmpty
  | samples content => content.cells == [0]
  | picture _ | member _ | element .. | shared _ => false

/-- The name of the kind of a value in messages. -/
def kindName : Value → String
  | null => "NoneType"
  | bool _ => "bool"
  | int _ => "int"
  | float _ => "float"
  | text _ => "str"
  | bytes _ => "bytes"
  | picture _ => "Image"
  | samples _ => "ndarray"
  | member _ => "NodeType"
  | list _ => "list"
  | mapping _ => "dict"
  | element .. | shared _ => "PrintNode"

end Value

end Receipt
