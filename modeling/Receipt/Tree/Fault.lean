/-!
# What can be wrong with a tree

A `Flaw` is one violation of the shape of a tree, found at a place that is given by a path.
`TreeFault` adds the ways in which a tree cannot be read at all: children that cannot be listed, a
number that cannot be written out, props that are neither absent nor given, and a null where no element
is open that it could close.
-/

namespace Receipt

/-- A violation of the shape of a tree. -/
inductive Flaw where
  /-- A mapping was expected, and a value of this kind was found. -/
  | noMapping (found : String)
  /-- An element was expected, and a value of this kind was found. -/
  | noElement (found : String)
  /-- An element has no type name. -/
  | noType
  /-- An element is its own ancestor. -/
  | cycle
  /-- The props of an element are no mapping. -/
  | looseProps
  /-- The style of an element is no mapping. -/
  | looseStyle
deriving DecidableEq, Repr

namespace Flaw

/-- The text of a violation. -/
def message : Flaw → String
  | noMapping found => "expected a node mapping, got " ++ found
  | noElement found => "expected PrintNode, got " ++ found
  | noType => "node has no type"
  | cycle => "cycle detected"
  | looseProps => "props must be a mapping"
  | looseStyle => "style must be a mapping"

end Flaw

/-- A text with the path it is about in front of it. -/
def located (path message : String) : String :=
  if path.isEmpty then message else path ++ ": " ++ message

/-- Why a value is no tree. -/
inductive TreeFault where
  /-- The element at this path violates the shape of a tree. -/
  | flawed (path : String) (flaw : Flaw)
  /-- The children of an element cannot be listed. -/
  | unlistable
  /-- A whole number that should become literal text has too many digits to be written out. -/
  | tooLong
  /-- The props of an element count neither as absent nor as given. -/
  | undecided
  /-- A null, or the end of an element, has no open element to close. -/
  | nothingOpen
deriving DecidableEq, Repr

/-- Where an entry stands: the path of its parent, empty for the root, and its number there. -/
structure Place where
  parent : String
  index : Nat
deriving DecidableEq, Repr

namespace Place

/-- The place of a root. -/
def root : Place := ⟨"", 0⟩

/-- The path of an entry that has no type name. -/
def unnamed (place : Place) : String :=
  if place.parent.isEmpty then "<root>"
  else place.parent ++ "[" ++ toString place.index ++ "]"

end Place

end Receipt
