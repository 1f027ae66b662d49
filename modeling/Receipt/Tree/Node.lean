import Receipt.Tree.Kind
import Receipt.Value.Printed

/-!
# Trees of elements

A `Node` is an element whose parts have been checked: its type is a name, its props and its style
are mappings. `Node.texts` are the literal texts of the textual elements of a tree in document
order, and `Node.written` is what they come to together, when each can be written out. `Node.find?` is
the first element of a kind, and `childPath` names an element by the types and numbers on the way from
the root.
-/

namespace Receipt

/-- A checked element with its children. -/
structure Node where
  type : String
  props : Fields
  style : Option Fields
  children : List Node

/-- The path of the child with this number. The path of the root is its type. -/
def childPath (parent type : String) (index : Int) : String :=
  if parent.isEmpty then type else parent ++ "/" ++ type ++ "[" ++ toString index ++ "]"

namespace Fields

/-- The literal text that props carry. -/
def content (props : Fields) : String := ((props.get "children").content?).getD ""

/-- Whether the literal text that props carry can be written out. -/
def hasWrittenContent (props : Fields) : Bool :=
  match props.get "children" with
  | .int number => isShort number
  | _ => true

/-- The picture source that props name, null when there is none. -/
def source (props : Fields) : Value :=
  match props.get? "source" with
  | some source => source
  | none => props.get "src"

end Fields

namespace Node

/-- The kind of an element. -/
def kind? (naming : Naming) (node : Node) : Option Kind := naming.kind? node.type

/-- Whether an element carries literal text. -/
def isTextual (naming : Naming) (type : String) : Bool :=
  match naming.kind? type with
  | some kind => kind.isTextual
  | none => false

/-- The literal text of one element, when it is textual and has any. -/
def ownTexts (naming : Naming) (type : String) (props : Fields) : List String :=
  if isTextual naming type && !props.content.isEmpty then [props.content] else []

mutual

/-- The literal texts of the textual elements of a tree, in document order. -/
def texts (naming : Naming) : Node → List String
  | ⟨type, props, _, children⟩ => ownTexts naming type props ++ textsOfAll naming children

/-- The literal texts of several trees. -/
def textsOfAll (naming : Naming) : List Node → List String
  | [] => []
  | node :: nodes => texts naming node ++ textsOfAll naming nodes

end

mutual

/-- The first element of a kind, in document order. -/
def find? (naming : Naming) (kind : Kind) : Node → Option Node
  | ⟨type, props, style, children⟩ =>
    if naming.kind? type = some kind then some ⟨type, props, style, children⟩
    else findIn? naming kind children

/-- The first element of a kind in several trees. -/
def findIn? (naming : Naming) (kind : Kind) : List Node → Option Node
  | [] => none
  | node :: nodes =>
    match find? naming kind node with
    | some found => some found
    | none => findIn? naming kind nodes

end

/-- The whole literal text of a tree. -/
def fullText (naming : Naming) (node : Node) : String := String.join (texts naming node)

mutual

/-- Whether the literal texts of the textual elements of a tree can be written out. -/
def isWritten (naming : Naming) : Node → Bool
  | ⟨type, props, _, children⟩ =>
    (!isTextual naming type || props.hasWrittenContent) && areWritten naming children

/-- Whether this holds of several trees. -/
def areWritten (naming : Naming) : List Node → Bool
  | [] => true
  | node :: nodes => isWritten naming node && areWritten naming nodes

end

/-- The whole literal text of a tree whose texts can be written out. -/
def written (naming : Naming) (node : Node) : Except NumberFault String :=
  if node.isWritten naming then .ok (node.fullText naming) else .error .tooLong

theorem written_eq_ok_iff {naming : Naming} {node : Node} {text : String} :
    node.written naming = .ok text ↔
      node.isWritten naming = true ∧ node.fullText naming = text := by
  unfold written
  cases node.isWritten naming <;> simp

/-- Trees with the same texts are written alike when the texts of both can be written out or not. -/
theorem written_congr {naming others : Naming} {node other : Node}
    (text : other.texts others = node.texts naming)
    (able : other.isWritten others = node.isWritten naming) :
    other.written others = node.written naming := by
  unfold written fullText
  rw [text, able]

end Node

end Receipt
