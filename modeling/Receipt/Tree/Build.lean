import Receipt.Tree.Reader

/-!
# Building elements by hand

One function for each kind of element, with the parts that such an element usually has. Nothing is
checked here; only a content that cannot be written out makes no text.
-/

namespace Receipt.Build

/-- An element of this type. -/
def element (type : String) (props : Fields) (children : List Value) (style : Value) : Value :=
  .element (.text type) (.mapping props) style children

/-- A document of pages. -/
def document (pages : List Value) (props : Fields) : Value :=
  element "Document" props pages .null

/-- A page; its size is copied, and left out with its wrapping when null. -/
def page (children : List Value) (style size wrap : Value) : Value :=
  element "Page"
    ((if size.isNull then [] else [("size", size)]) ++
      (if wrap.isNull then [] else [("wrap", wrap)]))
    children style

/-- A container. -/
def view (children : List Value) (style : Value) : Value := element "View" [] children style

/-- A container laid out as a row; its style may say otherwise. -/
def row (children : List Value) (style : Value) : Value :=
  let given : Fields :=
    match style with
    | .mapping fields => fields
    | _ => []
  view children (.mapping (given.foldl (fun fields field => Fields.set field.1 field.2 fields)
    [("flexDirection", .text "row")]))

/-- A text with nested runs; an empty content is left out. -/
def text (content : Value) (runs : List Value) (style : Value) : Except NumberFault Value :=
  content.written.map fun written =>
    element "Text" (if content.isTextOf "" then [] else [("children", .text written)]) runs style

/-- A run of text. -/
def run (content : Value) : Value := element "TextRun" [("children", content)] [] .null

/-- A picture. -/
def image (source style : Value) : Value := element "Image" [("source", source)] [] style

/-- A picture that the printer makes of a payload. -/
def symbol (data size style : Value) : Value :=
  element "Image" [("qrData", data), ("qrSize", size)] [] style

end Receipt.Build
