import Receipt.Number.Scalar

/-!
# Content boxes

The content box is what a stack of insets leaves of the page width. Inside `inset` both edges move
inwards, inside `narrowed` the right edge moves so that the box has a given width, and `framed`
replaces all insets by those of a box of its own. A box is entered for the time that a part of the
tree is laid out; leaving it is going on with the insets from before.
-/

namespace Receipt

/-- The content box in force: the page width, and the insets outermost first. -/
structure Extent (α : Type) where
  pageWidth : α
  insets : List (α × α)

namespace Extent

variable {α : Type} [Scalar α]

/-- The left edge of the content box. -/
def left (extent : Extent α) : α := Scalar.sum (extent.insets.map (·.1))

/-- The right edge of the content box. -/
def right (extent : Extent α) : α := extent.pageWidth - Scalar.sum (extent.insets.map (·.2))

/-- The width of the content box, never below zero. -/
def width (extent : Extent α) : α := Scalar.max Scalar.zero (extent.right - extent.left)

/-- The box with both edges moved inwards. -/
def inset (extent : Extent α) (left right : α) : Extent α :=
  { extent with
    insets := extent.insets ++ [(Scalar.max Scalar.zero left, Scalar.max Scalar.zero right)] }

/-- The box with its width limited, the left edge kept. -/
def narrowed (extent : Extent α) (width : Option α) : Extent α :=
  match width with
  | none => extent
  | some width =>
    if extent.width ≤ width then extent else extent.inset Scalar.zero (extent.width - width)

/-- A box of its own, whatever insets surround it. -/
def framed (extent : Extent α) (left width : α) : Extent α :=
  { extent with
    insets := [(Scalar.max Scalar.zero left,
      Scalar.max Scalar.zero (extent.pageWidth - left - width))] }

end Extent

end Receipt
