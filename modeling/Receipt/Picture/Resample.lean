import Receipt.Picture.Basic

/-!
# Scaling gray pictures

`resample` scales by the windowed sinc of support three, first along rows and then along columns,
with weights in parts of 4194304; an axis that keeps its size is left alone. `nearest` takes for
every cell the source cell under its centre, the centres being added up step by step.
-/

namespace Receipt.Resample

/-- The ratio of a circle's circumference to its diameter, to the nearest binary number. -/
def pi : Float := 3.141592653589793

/-- The sine of `pi x` divided by `pi x`. -/
def sinc (x : Float) : Float :=
  if x == 0.0 then 1.0
  else
    let angle := x * pi
    angle.sin / angle

/-- The windowed sinc of support three. -/
def kernel (x : Float) : Float :=
  if -3.0 ≤ x && x < 3.0 then sinc x * sinc (x / 3.0) else 0.0

/-- The whole part of a number, zero for a negative one. -/
def wholePart (x : Float) : Nat := x.toUInt64.toNat

/-- The weights of the source cells for one target cell: the first source cell and the parts of
4194304 of it and its followers. -/
structure Weights where
  first : Nat
  parts : List Int

/-- The weights of target cell `index` when `size` source cells become `target`. -/
def weights (size target index : Nat) : Weights :=
  let scale := Float.ofNat size / Float.ofNat target
  let spread := if 1.0 ≤ scale then scale else 1.0
  let support := 3.0 * spread
  let shrink := 1.0 / spread
  let centre := (Float.ofNat index + 0.5) * scale
  let first := wholePart (centre - support + 0.5)
  let last := min (wholePart (centre + support + 0.5)) size
  let raw := (List.range (last - first)).map fun x =>
    kernel ((Float.ofNat (x + first) - centre + 0.5) * shrink)
  let total := raw.foldl (· + ·) 0.0
  let part (w : Float) : Int :=
    let share := (if total == 0.0 then w else w / total) * 4194304.0
    if share < 0.0 then -(wholePart (0.5 - share) : Int) else wholePart (0.5 + share)
  ⟨first, raw.map part⟩

/-- A weighted sum in parts of 4194304, rounded and kept between 0 and 255. -/
def settle (sum : Int) : UInt8 :=
  let level := (sum + 2097152) / 4194304
  if level < 0 then 0 else if 255 < level then 255 else UInt8.ofNat level.toNat

/-- One target cell from the source cells of its row or column. -/
def weigh (cells : Array UInt8) (w : Weights) : UInt8 :=
  let sum := w.parts.foldl
    (fun (state : Int × Nat) part =>
      (state.1 + part * ((cells[state.2]?).getD 0).toNat, state.2 + 1)) (0, w.first)
  settle sum.1

/-- Scales along the rows. -/
def alongRows (width : Nat) (grid : Grid UInt8) : Grid UInt8 :=
  if width = grid.width then grid
  else
    let shares := (List.range width).map (weights grid.width width)
    { width := width
      rows := grid.rows.map fun row =>
        let cells := row.toArray
        shares.map (weigh cells)
      length_row := by
        intro row member
        obtain ⟨source, _, rfl⟩ := List.mem_map.1 member
        simp [shares] }

/-- Columns become rows. -/
def transpose (grid : Grid UInt8) : Grid UInt8 :=
  let cells := (grid.rows.map List.toArray).toArray
  Grid.ofFn grid.height grid.width fun x y => ((cells[x]?).bind (·[y]?)).getD 0

/-- Scales a picture to the given size with the windowed sinc. -/
def resample (width height : Nat) (grid : Grid UInt8) : Grid UInt8 :=
  let wide := alongRows width grid
  if height = grid.height then wide
  else transpose (alongRows height (transpose wide))

/-- The source cells under the centres of the target cells of one axis. -/
def centres (size target : Nat) : List Nat :=
  let scale := Float.ofNat size / Float.ofNat target
  ((List.range target).foldl
    (fun (state : List Nat × Float) _ => (wholePart state.2 :: state.1, state.2 + scale))
    ([], 0.5 * scale)).1.reverse

/-- Scales a picture to the given size by taking single cells. -/
def nearest (width height : Nat) (grid : Grid UInt8) : Grid UInt8 :=
  if width = grid.width ∧ height = grid.height then grid
  else
    let columns := (centres grid.width width).toArray
    let lines := (centres grid.height height).toArray
    let cells := (grid.rows.map List.toArray).toArray
    Grid.ofFn width height fun x y =>
      ((cells[(lines[y]?).getD 0]?).bind (·[(columns[x]?).getD 0]?)).getD 0

end Receipt.Resample
