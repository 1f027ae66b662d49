import Receipt.Page.Device
import Receipt.Proofs.Raster

/-!
# Packed pixels

A bitmap is packed row by row, eight pixels to a byte, and a page that is sent the bytes unpacks them
again. The bits of a packed row are its pixels and white ones behind them (`Bitmap.bits_packRow`), so
every pixel is found at its place among the bytes (`Bitmap.bit?_pack`) and unpacking gives back the
bitmap (`Bitmap.unpack?_pack`).

A page shows the bitmap as a gray picture of black and white. Packing that one diffuses errors on the
way, of which such a picture has none (`Bitmap.toBitmap_gray_level`). `Picture.packed_unpacked` puts
this together: what is packed, drawn and packed again stays the same.
-/

namespace Receipt

namespace Grid

variable {π ρ σ : Type}

theorem eq_of_rows {first second : Grid π} (width : first.width = second.width)
    (rows : first.rows = second.rows) : first = second := by
  cases first
  cases second
  cases width
  cases rows
  rfl

theorem get?_map (f : π → ρ) (grid : Grid π) (x y : Nat) :
    (grid.map f).get? x y = (grid.get? x y).map f := by
  unfold get? map
  rw [List.getElem?_map]
  cases grid.rows[y]? with
  | none => rfl
  | some row => exact List.getElem?_map ..

theorem bounds_of_get? {grid : Grid π} {x y : Nat} {cell : π} (found : grid.get? x y = some cell) :
    x < grid.width ∧ y < grid.height := by
  rcases Option.bind_eq_some_iff.1 found with ⟨row, line, own⟩
  rcases List.getElem?_eq_some_iff.1 line with ⟨below, rfl⟩
  rcases List.getElem?_eq_some_iff.1 own with ⟨inside, -⟩
  exact ⟨grid.length_row _ (List.getElem_mem below) ▸ inside, below⟩

theorem get?_eq_none {grid : Grid π} {x y : Nat} (behind : grid.width ≤ x) :
    grid.get? x y = none := by
  cases found : grid.get? x y with
  | none => rfl
  | some cell => exact absurd (bounds_of_get? found).1 (Nat.not_lt.2 behind)

theorem map_map (f : π → ρ) (g : ρ → σ) (grid : Grid π) :
    (grid.map f).map g = grid.map fun cell => g (f cell) := by
  refine eq_of_rows rfl ?_
  show (grid.rows.map (·.map f)).map (·.map g) = _
  rw [List.map_map]
  exact List.map_congr_left fun row _ => List.map_map

theorem cutRows_flatten {width : Nat} {rows : List (List π)}
    (even : ∀ row ∈ rows, row.length = width) :
    cutRows width rows.length rows.flatten = rows := by
  induction rows with
  | nil => rfl
  | cons row rows ih =>
    rcases List.forall_mem_cons.1 even with ⟨own, others⟩
    rw [List.length_cons, cutRows, List.flatten_cons, ← own, List.take_left, List.drop_left, own,
      ih others]

end Grid

/-- The entries of equally long pieces put together, found by piece and place. -/
theorem getElem?_flatMap_of_even {π ρ : Type} {f : π → List ρ} {size : Nat} {items : List π}
    (even : ∀ item ∈ items, (f item).length = size) (i : Nat) {j : Nat} (inside : j < size) :
    (items.flatMap f)[i * size + j]? = items[i]?.bind fun item => (f item)[j]? := by
  induction items generalizing i with
  | nil => rfl
  | cons item items ih =>
    rcases List.forall_mem_cons.1 even with ⟨own, others⟩
    rw [List.flatMap_cons]
    cases i with
    | zero =>
      rw [Nat.zero_mul, Nat.zero_add, List.getElem?_append_left (own ▸ inside)]
      rfl
    | succ i =>
      have behind : (i + 1) * size + j = (f item).length + (i * size + j) := by
        rw [own, Nat.succ_mul]
        omega
      rw [behind, List.getElem?_append_right (Nat.le_add_right _ _), Nat.add_sub_cancel_left,
        ih others]
      rfl

namespace Bitmap

/-! ## The bits of a row -/

/-- A byte has the first eight pixels as its bits, and white ones where there are fewer. -/
theorem unpackByte_packByte (pixels : List Bool) :
    unpackByte (packByte pixels) = (List.range 8).map fun i => pixels.getD i false := by
  have each : ∀ a b c d e f g h : Bool,
      unpackByte (UInt8.ofNat ([a, b, c, d, e, f, g, h].foldl
        (fun n black => 2 * n + (if black then 1 else 0)) 0)) = [a, b, c, d, e, f, g, h] := by
    decide +kernel
  exact each _ _ _ _ _ _ _ _

theorem map_getD_range (pixels : List Bool) (count : Nat) :
    (List.range count).map (fun i => pixels.getD i false) =
      pixels.take count ++ List.replicate (count - pixels.length) false := by
  refine List.ext_getElem? fun i => ?_
  grind

/-- The bits of a packed row are its pixels and white ones behind them. -/
theorem bits_packRow (row : List Bool) :
    (packRow row).flatMap unpackByte =
      row ++ List.replicate (8 * rowBytes row.length - row.length) false := by
  fun_induction packRow row with
  | case1 => rfl
  | case2 pixel pixels ih =>
    have rest : pixels.drop 7 = (pixel :: pixels).drop 8 := rfl
    have some : 0 < (pixel :: pixels).length := Nat.succ_pos _
    rw [List.flatMap_cons, unpackByte_packByte, map_getD_range, ih, rest]
    generalize pixel :: pixels = row at *
    unfold rowBytes
    rw [List.length_drop]
    rcases Nat.lt_or_ge row.length 8 with short | long
    · have last : 8 * ((row.length - 8 + 7) / 8) - (row.length - 8) = 0 := by omega
      have only : 8 * ((row.length + 7) / 8) - row.length = 8 - row.length := by omega
      rw [List.take_of_length_le (Nat.le_of_lt short), List.drop_of_length_le (Nat.le_of_lt short),
        last, only]
      rw [List.nil_append, List.replicate_zero, List.append_nil]
    · have full : 8 - row.length = 0 := by omega
      have same : 8 * ((row.length - 8 + 7) / 8) - (row.length - 8) =
          8 * ((row.length + 7) / 8) - row.length := by omega
      rw [full, same, List.replicate_zero, List.append_nil, ← List.append_assoc,
        List.take_append_drop]

theorem unpackRow_packRow (row : List Bool) : unpackRow row.length (packRow row) = row := by
  unfold unpackRow
  rw [bits_packRow, List.take_left]

theorem length_unpackByte (byte : UInt8) : (unpackByte byte).length = 8 := by
  unfold unpackByte
  rw [List.length_map, List.length_range]

theorem getElem?_unpackByte (byte : UInt8) {i : Nat} (inside : i < 8) :
    (unpackByte byte)[i]? = some (byte.toNat.testBit (7 - i)) := by
  unfold unpackByte
  rw [List.getElem?_map, List.getElem?_range inside]
  rfl

/-! ## The pixels of a bitmap -/

/-- The bit for column `x` of row `y` among the bytes of packed rows of `count` bytes each. -/
def bit? (bytes : List UInt8) (count x y : Nat) : Option Bool :=
  bytes[y * count + x / 8]?.map fun byte => byte.toNat.testBit (7 - x % 8)

theorem getElem?_padded {row : List Bool} {count x : Nat} (inside : x < row.length + count) :
    (row ++ List.replicate count false)[x]? = some (row[x]?.getD false) := by
  rcases Nat.lt_or_ge x row.length with own | behind
  · rw [List.getElem?_append_left own, List.getElem?_eq_getElem own]
    rfl
  · rw [List.getElem?_append_right behind, List.getElem?_eq_none behind,
      List.getElem?_replicate_of_lt (by omega)]
    rfl

theorem bit_packRow {row : List Bool} {x : Nat} (inside : x < 8 * rowBytes row.length) :
    (packRow row)[x / 8]?.map (fun byte => byte.toNat.testBit (7 - x % 8)) =
      some (row[x]?.getD false) := by
  have column : x / 8 < (packRow row).length := by
    rw [length_packRow]
    omega
  have place : x % 8 < 8 := Nat.mod_lt x (by decide)
  have bits := getElem?_flatMap_of_even
    (fun byte (_ : byte ∈ packRow row) => length_unpackByte byte) (x / 8) place
  rw [bits_packRow, Nat.div_add_mod', getElem?_padded (by omega)] at bits
  rw [List.getElem?_eq_getElem column] at bits ⊢
  exact ((getElem?_unpackByte _ place).symm.trans bits.symm)

/-- Every place of a packed row holds the pixel of its column, and white behind the last one. -/
theorem bit?_pack (bitmap : Bitmap) {x y : Nat} (row : y < bitmap.height)
    (inside : x < 8 * rowBytes bitmap.width) :
    bit? bitmap.pack (rowBytes bitmap.width) x y = some ((bitmap.get? x y).getD false) := by
  have packed : ∀ row ∈ bitmap.rows, (packRow row).length = rowBytes bitmap.width :=
    fun row member => by rw [length_packRow, bitmap.length_row row member]
  have column : x / 8 < rowBytes bitmap.width := by omega
  have own := bitmap.length_row _ (List.getElem_mem row)
  unfold bit? pack Grid.get?
  rw [getElem?_flatMap_of_even packed y column, List.getElem?_eq_getElem row]
  exact bit_packRow (own.symm ▸ inside)

/-- Unpacking gives back what was packed. -/
theorem unpack?_pack (bitmap : Bitmap) :
    unpack? bitmap.width bitmap.height bitmap.pack = some bitmap := by
  have even : ∀ row ∈ bitmap.rows.map packRow, row.length = rowBytes bitmap.width := by
    intro row member
    rcases List.mem_map.1 member with ⟨pixels, inside, rfl⟩
    rw [length_packRow, bitmap.length_row pixels inside]
  have cut := Grid.cutRows_flatten even
  rw [List.length_map, ← List.flatMap_def] at cut
  unfold unpack? Grid.ofList?
  rw [dif_pos bitmap.length_pack, Option.bind_some, dif_pos rfl]
  refine congrArg some (Grid.eq_of_rows rfl ?_)
  show (Grid.cutRows (rowBytes bitmap.width) bitmap.rows.length (bitmap.rows.flatMap packRow)).map
    (unpackRow bitmap.width) = bitmap.rows
  rw [cut, List.map_map]
  refine (List.map_congr_left fun row member => ?_).trans (List.map_id _)
  rw [← bitmap.length_row row member]
  exact unpackRow_packRow row

/-! ## Black and white in levels of gray -/

/-- The level of a pixel that is black or white. -/
def level (black : Bool) : UInt8 := if black then 0 else 255

/-- Black and white pixels lose nothing: without errors from above, a row of them hands none on. -/
theorem ditherRow_of_blackAndWhite (row : List Bool) {errors : List Int}
    (clean : ∀ error ∈ errors, error = 0) :
    ditherRow ⟨0, 0, 0⟩ (row.map fun black => ((level black).toNat : Int)) errors =
      (row, List.replicate (row.length + 1) 0) := by
  induction row generalizing errors with
  | nil => rfl
  | cons black row ih =>
    have later : ∀ error ∈ errors.drop 1, error = 0 :=
      fun error member => clean error (List.mem_of_mem_drop member)
    have received : errors.headD 0 = 0 := by
      cases errors with
      | nil => rfl
      | cons error errors => exact clean error (List.mem_cons_self ..)
    have kept : ∀ levels : List Int,
        ditherRow ⟨0, 0, 0⟩ (((level black).toNat : Int) :: levels) errors =
          (black :: (ditherRow ⟨0, 0, 0⟩ levels (errors.drop 1)).1,
            0 :: (ditherRow ⟨0, 0, 0⟩ levels (errors.drop 1)).2) := by
      intro levels
      rw [ditherRow, received]
      cases black <;> rfl
    rw [List.map_cons, kept, ih later]
    rfl

theorem ditherRows_of_blackAndWhite (rows : List (List Bool)) {errors : List Int}
    (clean : ∀ error ∈ errors, error = 0) :
    ditherRows errors (rows.map (·.map fun black => ((level black).toNat : Int))) = rows := by
  induction rows generalizing errors with
  | nil => rfl
  | cons row rows ih =>
    rw [List.map_cons, ditherRows, ditherRow_of_blackAndWhite row clean]
    refine congrArg (row :: ·) (ih fun error member => ?_)
    exact List.eq_of_mem_replicate (List.mem_of_mem_drop member)

/-- A gray picture of black and white keeps its pixels when it is reduced to them. -/
theorem toBitmap_gray_level (bitmap : Bitmap) :
    (Picture.gray (bitmap.map level)).toBitmap = bitmap := by
  show dither ((bitmap.map level).map fun shade => (shade.toNat : Int)) = bitmap
  rw [Grid.map_map]
  exact Grid.eq_of_rows rfl
    (ditherRows_of_blackAndWhite bitmap.rows fun _ member => (List.not_mem_nil member).elim)

/-- What the bytes of packed pixels owe to the pixels, of which `true` is white: as many as all rows
take, the bit of every black pixel set and no other one. -/
structure Packs (pixels : Grid Bool) (bytes : List UInt8) : Prop where
  length_eq : bytes.length = pixels.height * rowBytes pixels.width
  pixel : ∀ {x y : Nat} {white : Bool}, pixels.get? x y = some white →
    bit? bytes (rowBytes pixels.width) x y = some (!white)
  padding : ∀ {x y : Nat}, y < pixels.height → pixels.width ≤ x →
    x < 8 * rowBytes pixels.width → bit? bytes (rowBytes pixels.width) x y = some false

theorem packs_pack (pixels : Grid Bool) :
    Packs pixels (Picture.bilevel pixels).toBitmap.pack where
  length_eq := by
    have count := length_pack (Picture.bilevel pixels).toBitmap
    rw [Nat.mul_comm] at count
    exact count.trans (congrArg (· * rowBytes pixels.width) (Grid.height_map _ pixels))
  pixel := by
    intro x y white found
    rcases Grid.bounds_of_get? found with ⟨column, row⟩
    have inside : x < 8 * rowBytes pixels.width := by
      unfold rowBytes
      omega
    have bit := bit?_pack (pixels.map (!·)) ((Grid.height_map _ pixels).symm ▸ row) inside
    rw [Grid.get?_map, found] at bit
    exact bit
  padding := by
    intro x y row behind inside
    have bit := bit?_pack (pixels.map (!·)) ((Grid.height_map _ pixels).symm ▸ row) inside
    rw [Grid.get?_map, Grid.get?_eq_none behind] at bit
    exact bit

end Bitmap

namespace Picture

variable {α : Type} [Scalar α]

/-- Packed pixels and back. The bytes of every bilevel picture hold its pixels, and a page that is
sent them draws the gray picture with the same pixels, black and white; packing that one gives the
same bytes again. -/
theorem packed_unpacked (pixels : Grid Bool) (setting : Page.Setting α) (extent : Extent α)
    (pen : Pen α) :
    Bitmap.Packs pixels (bilevel pixels).toBitmap.pack ∧
      ∃ levels : Grid UInt8,
        levels.width = pixels.width ∧ levels.height = pixels.height ∧
        (∀ x y, levels.get? x y =
          (pixels.get? x y).map fun white => if white then 255 else 0) ∧
        Page.obey? setting extent pen
            (.raster (bilevel pixels).toBitmap.pack pixels.width pixels.height) =
          some (Page.drawPicture extent pen (gray levels)
            (Scalar.min extent.width (Scalar.ofNat pixels.width * Page.dotSize)) pen.align) ∧
        (gray levels).toBitmap.pack = (bilevel pixels).toBitmap.pack := by
  have rows : (bilevel pixels).toBitmap.height = pixels.height := Grid.height_map ..
  have unpacked := Bitmap.unpack?_pack (bilevel pixels).toBitmap
  rw [rows] at unpacked
  refine ⟨Bitmap.packs_pack pixels, (pixels.map (!·)).map Bitmap.level, rfl, ?_, ?_, ?_, ?_⟩
  · rw [Grid.height_map, Grid.height_map]
  · intro x y
    rw [Grid.get?_map, Grid.get?_map, Option.map_map]
    cases pixels.get? x y with
    | none => rfl
    | some white => cases white <;> rfl
  · have sized : ¬ ((pixels.width : Int) < 0 ∨ (pixels.height : Int) < 0) := by omega
    show Page.drawBitmap? extent pen _ _ _ = _
    unfold Page.drawBitmap?
    rw [if_neg sized, Int.toNat_natCast, Int.toNat_natCast]
    exact congrArg (Option.map _) unpacked
  · exact congrArg Bitmap.pack (Bitmap.toBitmap_gray_level (pixels.map (!·)))

end Picture

end Receipt
