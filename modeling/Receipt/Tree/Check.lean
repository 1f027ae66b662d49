import Receipt.Tree.Reader

/-!
# Checking elements

`Value.toNode` checks an element and everything below it, and gives the tree that it unfolds to. The
first fault in document order is reported, looked for in each element in this order: that it is one,
its type, a cycle, its props, its style, its children.

The walk keeps the list of open elements, innermost first, each with its number when it is shared.
An element opens when it has been looked at and closes behind its last child. A null in place of an
element closes the innermost open element; whatever closes an element when none is open is a fault.
-/

namespace Receipt

/-- The open elements of a walk, innermost first; an element that is not shared has no number. -/
abbrev Opened := List (Option Nat)

namespace Opened

/-- Whether the element with this number is open. -/
def holds (opened : Opened) (identity : Option Nat) : Bool :=
  identity.isSome && opened.contains identity

/-- Closes the innermost open element. -/
def close : Opened → Except TreeFault Opened
  | [] => .error .nothingOpen
  | _ :: opened => .ok opened

end Opened

/-- The type, props and style of an element that has no flaw of its own, or its first flaw. -/
def checkParts (place : Place) (cyclic : Bool) (type props style : Value) :
    Except TreeFault (String × Fields × Option Fields) :=
  match type with
  | .text type =>
    if type.isEmpty then .error (.flawed place.unnamed .noType)
    else
      let path := childPath place.parent type place.index
      if cyclic then .error (.flawed path .cycle)
      else
        match props with
        | .mapping props =>
          match style with
          | .null => .ok (type, props, none)
          | .mapping style => .ok (type, props, some style)
          | _ => .error (.flawed path .looseStyle)
        | _ => .error (.flawed path .looseProps)
  | _ => .error (.flawed place.unnamed .noType)

namespace Value

/-- The outcome of walking an entry: the node, unless the entry is null, and what is open then. -/
abbrev Walked (α : Type) := Except TreeFault (α × Opened)

mutual

/-- Walks an entry; `identity` is its number when it is shared, and `follow` walks a shared entry. -/
def walk (follow : Opened → Place → Nat → Walked (Option Node)) (opened : Opened)
    (identity : Option Nat) (place : Place) : Value → Walked (Option Node)
  | null =>
    match opened.close with
    | .error fault => .error fault
    | .ok opened => .ok (none, opened)
  | shared index => follow opened place index
  | element type props style children =>
    match checkParts place (opened.holds identity) type props style with
    | .error fault => .error fault
    | .ok (type, props, style) =>
      match walkAll follow (identity :: opened) (childPath place.parent type place.index) 0 children
        with
      | .error fault => .error fault
      | .ok (children, opened) =>
        match opened.close with
        | .error fault => .error fault
        | .ok opened => .ok (some ⟨type, props, style, children⟩, opened)
  | bool holds => .error (.flawed place.unnamed (.noElement (bool holds).kindName))
  | int number => .error (.flawed place.unnamed (.noElement (int number).kindName))
  | float number => .error (.flawed place.unnamed (.noElement (float number).kindName))
  | text content => .error (.flawed place.unnamed (.noElement (text content).kindName))
  | bytes content => .error (.flawed place.unnamed (.noElement (bytes content).kindName))
  | picture content => .error (.flawed place.unnamed (.noElement (picture content).kindName))
  | samples content => .error (.flawed place.unnamed (.noElement (samples content).kindName))
  | member kind => .error (.flawed place.unnamed (.noElement (member kind).kindName))
  | list items => .error (.flawed place.unnamed (.noElement (list items).kindName))
  | mapping fields => .error (.flawed place.unnamed (.noElement (mapping fields).kindName))

/-- Walks the children of the element at a path, from the one with this number on. -/
def walkAll (follow : Opened → Place → Nat → Walked (Option Node)) (opened : Opened)
    (path : String) (index : Nat) : List Value → Walked (List Node)
  | [] => .ok ([], opened)
  | item :: items =>
    match walk follow opened none ⟨path, index⟩ item with
    | .error fault => .error fault
    | .ok (child, opened) =>
      match walkAll follow opened path (index + 1) items with
      | .error fault => .error fault
      | .ok (children, opened) => .ok (child.toList ++ children, opened)

end

/-- Walks an entry of a table of shared values. -/
def walkShared (table : List Value) : Nat → Opened → Place → Nat → Walked (Option Node)
  | 0, _, place, _ => .error (.flawed place.unnamed .cycle)
  | fuel + 1, opened, place, index =>
    match table[index]? with
    | none => .error (.flawed place.unnamed (.noElement null.kindName))
    | some entry => walk (walkShared table fuel) opened (some index) place entry

/-- The tree that an element unfolds to. -/
def toNode (table : List Value) (value : Value) : Except TreeFault Node :=
  match walk (walkShared table (table.length + 1)) [] none Place.root value with
  | .error fault => .error fault
  | .ok (some node, _) => .ok node
  | .ok (none, _) => .error .nothingOpen

/-- The checked tree of an element, or of what mappings unfold to. -/
def toTree (value : Value) : Except TreeFault Node :=
  match value.unfold [] with
  | .error fault => .error fault
  | .ok unfolded => unfolded.toNode []

end Value

end Receipt
