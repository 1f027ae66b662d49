import Receipt.Tree.Fault

/-!
# Diagnostics

An element that a printer or a page cannot show is left out, and a `Diagnostic` says so: the path of
the element and what is wrong with it. The conversion goes on.
-/

namespace Receipt

/-- A note about an element that was left out. -/
structure Diagnostic where
  path : String
  message : String
deriving DecidableEq, Repr

namespace Diagnostic

/-- The note as one line; it names the path even when that is empty. -/
def line (diagnostic : Diagnostic) : String := diagnostic.path ++ ": " ++ diagnostic.message

end Diagnostic

end Receipt
