import Receipt.Page.Content
import Receipt.Value.Printed

/-!
# The trace of a page

One line for every part of a page that is drawn: its name and the marks it takes, with their
positions written out.
-/

namespace Receipt.Page

/-- A text in quotes. -/
def quotedText (text : String) : String := String.ofList (quoted text.toList)

/-- A mark written out. -/
def markText : Mark Float → String
  | .text content x y bold size anchor =>
    "TextOp(text=" ++ quotedText content ++ ", x=" ++ numberText x ++ ", y=" ++ numberText y ++
      ", font=" ++ quotedText (fontName bold) ++ ", size=" ++ numberText size ++
      ", anchor=<Alignment." ++ anchor.name.toUpper ++ ": " ++ quotedText anchor.name ++ ">)"
  | .line x1 x2 y dashed =>
    "LineOp(x1=" ++ numberText x1 ++ ", x2=" ++ numberText x2 ++ ", y=" ++ numberText y ++
      ", dashed=" ++ (if dashed then "True" else "False") ++ ")"
  | .picture picture x y width height =>
    "ImageOp(image=" ++ (Value.picture picture).printed ++ ", x=" ++ numberText x ++ ", y=" ++
      numberText y ++ ", width=" ++ numberText width ++ ", height=" ++ numberText height ++ ")"
  | .symbol data x y side =>
    "QrOp(data=" ++ quotedText data ++ ", x=" ++ numberText x ++ ", y=" ++ numberText y ++
      ", side=" ++ numberText side ++ ")"

/-- The line of a part that is drawn. -/
def traceLine (part : Part) (marks : List (Mark Float)) : String :=
  part.name ++ ": [" ++ String.intercalate ", " (marks.map markText) ++ "]"

end Receipt.Page
