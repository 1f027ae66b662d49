import Receipt.Tree.Fault
import Receipt.Tree.Node

/-!
# Elements from mappings

`Value.unfold` turns nested mappings into elements: a mapping with a type name becomes an element
with the unfolded entries of its children, a text or a number an element that carries it as literal
text. An element that was built by hand is taken as it is. The first fault is reported, looked for
in each mapping in this order: its type, a cycle, its children, its props, its style. Besides the flaws
of the shape there are two faults that end the reading with no place named: a number that is too long
to be written out, and an array of several cells where it matters whether there is anything.

A mapping may be shared; `active` are the numbers of the shared mappings that enclose the entry, and
`follow` unfolds a shared entry. Only `Value.unfoldShared` follows references: each time with one
more mapping among the active ones, so that it is done after as many steps as the table has entries
and one more.
-/

namespace Receipt

/-- The element that carries a literal text. -/
def textRun (content : String) : Value :=
  .element (.text "TextRun") (.mapping [("children", .text content)]) .null []

/-- The type name in a mapping: a text that is not empty. -/
def Fields.typeName? (fields : Fields) : Option String :=
  match fields.get "type" with
  | .text type => if type.isEmpty then none else some type
  | _ => none

/-- The element of a mapping whose children are unfolded. Props that count as absent are no props,
an empty style is none. -/
def Fields.toElement (fields : Fields) (type path : String) (children : List Value) :
    Except TreeFault Value :=
  let props := fields.get "props"
  if props.isUndecided then .error .undecided
  else
    match (if props.isVacant then .mapping [] else props) with
    | .mapping props =>
      match fields.get "style" with
      | .null => .ok (.element (.text type) (.mapping props) .null children)
      | .mapping style =>
        .ok (.element (.text type) (.mapping props)
          (if style.isEmpty then .null else .mapping style) children)
      | _ => .error (.flawed path .looseStyle)
    | _ => .error (.flawed path .looseProps)

namespace Value

/-- Unfolds a shared entry: the active mappings, the place, and the number of the entry. -/
abbrev Follow := List Nat → Place → Nat → Except TreeFault Value

mutual

/-- Unfolds an entry; `identity` is its number when it is shared. -/
def unfoldEntry (follow : Follow) (active : List Nat) (identity : Option Nat) (place : Place) :
    Value → Except TreeFault Value
  | element type props style children => .ok (element type props style children)
  | shared index => follow active place index
  | text content => .ok (textRun content)
  | int number =>
    if isShort number then .ok (textRun (toString number)) else .error .tooLong
  | float number => .ok (textRun (numberText number))
  | mapping fields =>
    match Fields.typeName? fields with
    | none => .error (.flawed place.unnamed .noType)
    | some type =>
      let path := childPath place.parent type place.index
      if identity.any (active.contains ·) then .error (.flawed path .cycle)
      else
        match unfoldField follow (identity.toList ++ active) path fields with
        | .error fault => .error fault
        | .ok children => Fields.toElement fields type path children
  | null => .error (.flawed place.unnamed (.noMapping null.kindName))
  | bool holds => .error (.flawed place.unnamed (.noMapping (bool holds).kindName))
  | bytes content => .error (.flawed place.unnamed (.noMapping (bytes content).kindName))
  | picture content => .error (.flawed place.unnamed (.noMapping (picture content).kindName))
  | samples content => .error (.flawed place.unnamed (.noMapping (samples content).kindName))
  | member kind => .error (.flawed place.unnamed (.noMapping (member kind).kindName))
  | list items => .error (.flawed place.unnamed (.noMapping (list items).kindName))

/-- Unfolds the entries of the children among the fields of a mapping. -/
def unfoldField (follow : Follow) (active : List Nat) (path : String) :
    List (String × Value) → Except TreeFault (List Value)
  | [] => .ok []
  | (name, value) :: fields =>
    if name == "children" then unfoldChildren follow active path value
    else unfoldField follow active path fields

/-- Unfolds the entries that a value lists: the items of a list, the characters of a text, the bytes
and the names of a mapping. -/
def unfoldChildren (follow : Follow) (active : List Nat) (path : String) :
    Value → Except TreeFault (List Value)
  | list items => unfoldItems follow active path 0 items
  | mapping fields => .ok (fields.map fun field => textRun field.1)
  | text content => .ok (content.toList.map fun c => textRun (String.singleton c))
  | bytes content => .ok (content.map fun byte => textRun (toString byte.toNat))
  | null => .ok []
  | bool holds => if holds then .error .unlistable else .ok []
  | int number => if number = 0 then .ok [] else .error .unlistable
  | float number => if number == 0.0 then .ok [] else .error .unlistable
  | samples content =>
    if (samples content).isUndecided then .error .undecided
    else if (samples content).isVacant then .ok []
    else
      match content.shape with
      | [] => .error .unlistable
      | [_] => .error (.flawed (Place.unnamed ⟨path, 0⟩) (.noMapping content.element))
      | _ => .error (.flawed (Place.unnamed ⟨path, 0⟩) (.noMapping (samples content).kindName))
  | picture _ | member _ | element .. | shared _ => .error .unlistable

/-- Unfolds entries from the one with this number on. -/
def unfoldItems (follow : Follow) (active : List Nat) (path : String) (index : Nat) :
    List Value → Except TreeFault (List Value)
  | [] => .ok []
  | item :: items =>
    match unfoldEntry follow active none ⟨path, index⟩ item with
    | .error fault => .error fault
    | .ok child =>
      match unfoldItems follow active path (index + 1) items with
      | .error fault => .error fault
      | .ok children => .ok (child :: children)

end

/-- Unfolds an entry of a table of shared values; elements in it are referred to. -/
def unfoldShared (table : List Value) : Nat → Follow
  | 0, _, place, _ => .error (.flawed place.unnamed .cycle)
  | fuel + 1, active, place, index =>
    match table[index]? with
    | none => .error (.flawed place.unnamed (.noMapping null.kindName))
    | some (element ..) => .ok (shared index)
    | some entry => unfoldEntry (unfoldShared table fuel) active (some index) place entry

/-- The element a value stands for. -/
def unfold (table : List Value) (value : Value) : Except TreeFault Value :=
  unfoldEntry (unfoldShared table (table.length + 1)) [] none Place.root value

end Value

end Receipt
