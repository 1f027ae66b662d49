import Receipt.Picture.Basic

/-!
# One-bit pictures

A `Bitmap` holds `true` for black. `dither` reduces a gray picture to black and white by error
diffusion: what a pixel loses in brightness is handed on to its right neighbour and to three pixels
of the next row in the shares 7, 3, 5 and 1 sixteenths. `threshold` only compares with half
brightness. `pack` writes eight pixels to a byte, the leftmost in the highest bit, and fills a row
up with white; `unpack?` reads it back.
-/

namespace Receipt

/-- A one-bit picture; `true` is black. -/
abbrev Bitmap := Grid Bool

namespace Bitmap

/-- A brightness kept between 0 and 255. -/
def clampLevel (level : Int) : Int := if level < 0 then 0 else if 255 < level then 255 else level

/-- What error diffusion carries along a row: the error for the pixel to the right, and the two
partial sums for the next row. -/
structure Carry where
  right : Int
  below : Int
  beyond : Int

/-- Reduces one row. `errors` are the sixteenths that the row above left for each pixel; the answer
has the black pixels and what this row leaves for the next one, without its first entry. -/
def ditherRow : Carry → List Int → List Int → List Bool × List Int
  | carry, [], _ => ([], [carry.below])
  | carry, level :: levels, errors =>
    let received := errors.headD 0
    let wanted := clampLevel (level + Int.tdiv (carry.right + received) 16)
    let white := decide (128 < wanted)
    let lost := wanted - (if white then 255 else 0)
    let left := 3 * lost + carry.below
    let below := 5 * lost + carry.beyond
    let (blacks, handed) := ditherRow ⟨7 * lost, below, lost⟩ levels (errors.drop 1)
    ((!white) :: blacks, left :: handed)

/-- Reduces rows from the top, handing the errors on. -/
def ditherRows : List Int → List (List Int) → List (List Bool)
  | _, [] => []
  | errors, row :: rows =>
    let (blacks, handed) := ditherRow ⟨0, 0, 0⟩ row errors
    blacks :: ditherRows (handed.drop 1) rows

theorem length_ditherRow (carry : Carry) (levels errors : List Int) :
    (ditherRow carry levels errors).1.length = levels.length := by
  induction levels generalizing carry errors with
  | nil => rfl
  | cons level levels ih => simp [ditherRow, ih]

theorem length_of_mem_ditherRows (width : Nat) (errors : List Int) (rows : List (List Int))
    (even : ∀ row ∈ rows, row.length = width) :
    ∀ row ∈ ditherRows errors rows, row.length = width := by
  induction rows generalizing errors with
  | nil => simp [ditherRows]
  | cons row rows ih =>
    intro blacks member
    rcases List.mem_cons.1 member with first | later
    · subst first
      rw [length_ditherRow]
      exact even row (List.mem_cons_self ..)
    · exact ih _ (fun next inside => even next (List.mem_cons_of_mem _ inside)) blacks later

/-- Black and white by error diffusion. -/
def dither (levels : Grid Int) : Bitmap where
  width := levels.width
  rows := ditherRows [] levels.rows
  length_row := length_of_mem_ditherRows _ _ _ levels.length_row

/-- Black and white by comparison with half brightness. -/
def threshold (levels : Grid UInt8) : Bitmap := levels.map fun level => decide (level < 128)

/-- The byte whose bits are the first eight pixels, white where there are fewer. -/
def packByte (pixels : List Bool) : UInt8 :=
  UInt8.ofNat <| (List.range 8).foldl
    (fun n i => 2 * n + (if pixels.getD i false then 1 else 0)) 0

/-- The bytes of one row. -/
def packRow : List Bool → List UInt8
  | [] => []
  | pixel :: pixels =>
    packByte (pixel :: pixels) :: packRow (pixels.drop 7)
termination_by pixels => pixels.length
decreasing_by
  simp only [List.length_drop, List.length_cons]
  omega

/-- The bytes of a picture, row after row. -/
def pack (bitmap : Bitmap) : List UInt8 := bitmap.rows.flatMap packRow

/-- How many bytes a row of `width` pixels takes. -/
def rowBytes (width : Nat) : Nat := (width + 7) / 8

/-- The eight pixels of a byte, from the highest bit. -/
def unpackByte (byte : UInt8) : List Bool :=
  (List.range 8).map fun i => byte.toNat.testBit (7 - i)

/-- The first `width` pixels of the bytes of a row. -/
def unpackRow (width : Nat) (bytes : List UInt8) : List Bool :=
  (bytes.flatMap unpackByte).take width

theorem length_unpackRow (width : Nat) (bytes : List UInt8)
    (enough : bytes.length = rowBytes width) : (unpackRow width bytes).length = width := by
  have bits : (bytes.flatMap unpackByte).length = 8 * bytes.length := by
    clear enough
    induction bytes with
    | nil => rfl
    | cons byte bytes ih =>
      simp only [List.flatMap_cons, List.length_append, ih, List.length_cons]
      simp [unpackByte]
      omega
  simp only [unpackRow, List.length_take, bits, enough, rowBytes]
  omega

/-- The picture that `height` rows of packed pixels show. -/
def unpack? (width height : Nat) (bytes : List UInt8) : Option Bitmap :=
  (Grid.ofList? (rowBytes width) height bytes).bind fun grid =>
    if packed : grid.width = rowBytes width then
      some
        { width := width
          rows := grid.rows.map (unpackRow width)
          length_row := by
            intro row member
            obtain ⟨bytes, inside, rfl⟩ := List.mem_map.1 member
            exact length_unpackRow width bytes (packed ▸ grid.length_row bytes inside) }
    else none

/-- The bitmap as a black-and-white picture. -/
def toPicture (bitmap : Bitmap) : Picture := .bilevel (bitmap.map (!·))

end Bitmap

end Receipt
