/-!
# Element kinds

The six standard kinds of elements and their names, which are matched without regard to the case of
ASCII letters. A `Naming` gives further names a kind, or lets them stand for another name; the name
it gives is looked up as it is written, and only then in lower case.
-/

namespace Receipt

/-- The standard kinds of elements. -/
inductive Kind where
  | document
  | page
  | view
  | text
  | run
  | image
deriving DecidableEq, Repr

namespace Kind

/-- The standard name of a kind. -/
def name : Kind → String
  | document => "document"
  | page => "page"
  | view => "view"
  | text => "text"
  | run => "textrun"
  | image => "image"

/-- All kinds. -/
def all : List Kind := [document, page, view, text, run, image]

/-- The kind with a standard name, spelled exactly. -/
def ofStandardName? (name : String) : Option Kind := all.find? fun kind => kind.name == name

/-- Other spellings of standard names. -/
def aliases : List (String × Kind) := [("textnode", run), ("text_run", run), ("img", image)]

/-- A name with its ASCII letters in lower case. -/
def lowerName (name : String) : String := String.ofList (name.toList.map Char.toLower)

/-- The kind a name stands for. -/
def ofName? (name : String) : Option Kind :=
  match ofStandardName? (lowerName name) with
  | some kind => some kind
  | none => aliases.lookup (lowerName name)

/-- Whether elements of a kind carry literal text. -/
def isTextual : Kind → Bool
  | text | run => true
  | document | page | view | image => false

end Kind

/-- What a custom name stands for. -/
inductive NameTarget where
  | kind (kind : Kind)
  | name (name : String)
deriving DecidableEq, Repr

/-- Custom names of elements. -/
abbrev Naming := List (String × NameTarget)

/-- The kind of the elements with this type name; none for unknown elements. -/
def Naming.kind? (naming : Naming) (type : String) : Option Kind :=
  match naming.lookup type with
  | some (.kind kind) => some kind
  | some (.name name) => Kind.ofName? name
  | none => Kind.ofName? type

end Receipt
