/-!
# Rectangles of cells

A `Grid` is a rectangle given row by row. Its width is a field of its own, because a grid without
rows has one too, and every row is known to have that many cells. `Grid.ofList?` cuts a flat list
into rows and refuses a list of the wrong length.
-/

namespace Receipt

/-- A rectangle of cells, row by row from the top. -/
structure Grid (π : Type) where
  width : Nat
  rows : List (List π)
  length_row : ∀ row ∈ rows, row.length = width

namespace Grid

variable {π ρ : Type}

/-- The number of rows. -/
def height (grid : Grid π) : Nat := grid.rows.length

/-- Whether the rectangle has no cell. -/
def isEmpty (grid : Grid π) : Bool := grid.width == 0 || grid.height == 0

/-- The cells, row after row. -/
def toList (grid : Grid π) : List π := grid.rows.flatten

/-- The cell in column `x` of row `y`. -/
def get? (grid : Grid π) (x y : Nat) : Option π := (grid.rows[y]?).bind (·[x]?)

/-- Applies a function to every cell. -/
def map (f : π → ρ) (grid : Grid π) : Grid ρ where
  width := grid.width
  rows := grid.rows.map (·.map f)
  length_row := by
    intro row member
    obtain ⟨source, inside, rfl⟩ := List.mem_map.1 member
    simp [grid.length_row source inside]

/-- The grid whose cell in column `x` of row `y` is `cell x y`. -/
def ofFn (width height : Nat) (cell : Nat → Nat → π) : Grid π where
  width := width
  rows := (List.range height).map fun y => (List.range width).map fun x => cell x y
  length_row := by
    intro row member
    obtain ⟨y, _, rfl⟩ := List.mem_map.1 member
    simp

/-- Cuts a list into `height` rows of `width` cells. -/
def cutRows (width : Nat) : Nat → List π → List (List π)
  | 0, _ => []
  | height + 1, cells => cells.take width :: cutRows width height (cells.drop width)

theorem length_of_mem_cutRows (width height : Nat) (cells : List π)
    (enough : width * height ≤ cells.length) :
    ∀ row ∈ cutRows width height cells, row.length = width := by
  induction height generalizing cells with
  | zero => simp [cutRows]
  | succ height ih =>
    intro row member
    rw [Nat.mul_succ] at enough
    rcases List.mem_cons.1 member with first | later
    · subst first
      simp
      omega
    · exact ih (cells.drop width) (by simp; omega) row later

/-- The grid of the given size whose cells, row after row, are the list's. -/
def ofList? (width height : Nat) (cells : List π) : Option (Grid π) :=
  if enough : cells.length = width * height then
    some ⟨width, cutRows width height cells,
      length_of_mem_cutRows width height cells (by omega)⟩
  else none

@[simp] theorem width_map (f : π → ρ) (grid : Grid π) : (grid.map f).width = grid.width := rfl

@[simp] theorem height_map (f : π → ρ) (grid : Grid π) : (grid.map f).height = grid.height := by
  simp [height, map]

@[simp] theorem height_ofFn (width height : Nat) (cell : Nat → Nat → π) :
    (ofFn width height cell).height = height := by
  simp [Grid.height, ofFn]

end Grid

end Receipt
