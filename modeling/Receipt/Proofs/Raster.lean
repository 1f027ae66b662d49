import Receipt.Picture.Source
import Receipt.Proofs.Sheet

/-!
# Whether a printer finds the end of a bitmap

The command for a bitmap carries the bytes of a row and the number of rows in two bytes each, and a
printer takes as many bytes of data as their product. `readRaster?` reads a command off a stream in
that way. A command is self-delimiting when the whole bitmap is read off any stream that begins with
it, and nothing else.

`Bitmap.selfDelimiting_iff` says when that is so: a command that a protocol accepts is
self-delimiting exactly when both numbers fit their fields. One protocol refuses all other bitmaps;
the other cuts the numbers to sixteen bits, and the printer takes the rest of the data for commands.
-/

namespace Receipt

/-- A bitmap as a printer reads it. -/
structure RasterFrame where
  rowBytes : Nat
  rows : Nat
  data : List UInt8

/-- Reads the command for a bitmap off a stream; none when the stream begins with something else or
ends too early. -/
def readRaster? : List UInt8 → Option (RasterFrame × List UInt8)
  | 0x1D :: 0x76 :: 0x30 :: 0x00 :: xLow :: xHigh :: yLow :: yHigh :: stream =>
    let rowBytes := xLow.toNat + 256 * xHigh.toNat
    let rows := yLow.toNat + 256 * yHigh.toNat
    if stream.length < rowBytes * rows then none
    else some (⟨rowBytes, rows, stream.take (rowBytes * rows)⟩, stream.drop (rowBytes * rows))
  | _ => none

namespace Bitmap

/-! ## The size of the data -/

theorem length_packRow (row : List Bool) : (packRow row).length = rowBytes row.length := by
  induction row using packRow.induct with
  | case1 =>
    rw [packRow]
    rfl
  | case2 pixel pixels ih =>
    rw [packRow, List.length_cons, ih]
    simp only [rowBytes, List.length_drop, List.length_cons]
    omega

/-- A bitmap is packed into whole rows. -/
theorem length_pack (bitmap : Bitmap) :
    bitmap.pack.length = rowBytes bitmap.width * bitmap.height := by
  obtain ⟨width, rows, even⟩ := bitmap
  show (rows.flatMap packRow).length = rowBytes width * rows.length
  induction rows with
  | nil => rfl
  | cons row rows ih =>
    rw [List.flatMap_cons, List.length_append, length_packRow, even row (List.mem_cons_self ..),
      ih fun row member => even row (List.mem_cons_of_mem _ member), List.length_cons,
      Nat.mul_succ, Nat.add_comm]

/-! ## Framing -/

/-- The bitmap as it is meant to be read. -/
def frame (bitmap : Bitmap) : RasterFrame := ⟨rowBytes bitmap.width, bitmap.height, bitmap.pack⟩

/-- The size of a bitmap fits the two header fields. -/
def FitsHeader (bitmap : Bitmap) : Prop :=
  rowBytes bitmap.width < 65536 ∧ bitmap.height < 65536

/-- The whole bitmap is read off every stream that begins with these bytes, and nothing else. -/
def SelfDelimiting (bitmap : Bitmap) (bytes : List UInt8) : Prop :=
  ∀ following, readRaster? (bytes ++ following) = some (bitmap.frame, following)

variable {protocol : Protocol} {bitmap : Bitmap} {bytes : List UInt8}

/-- What is read off a stream behind an accepted command: the size in the header is that of the
bitmap, up to its sixteenth bit. -/
theorem readRaster?_encode
    (accepted : protocol.encode (Sheet.rasterCommand bitmap) = .ok bytes)
    (following : List UInt8) :
    readRaster? (bytes ++ following) =
      let across := rowBytes bitmap.width % 65536
      let down := bitmap.height % 65536
      let stream := bitmap.pack ++ following
      if stream.length < across * down then none
      else some (⟨across, down, stream.take (across * down)⟩, stream.drop (across * down)) := by
  have across : (((bitmap.width : Int) + 7) / 8 % 65536).toNat = rowBytes bitmap.width % 65536 := by
    unfold rowBytes
    omega
  have down : ((bitmap.height : Int) % 65536).toNat = bitmap.height % 65536 := by omega
  have framed : protocol.rasterBytes bitmap.pack bitmap.width bitmap.height = .ok bytes := accepted
  rw [protocol.rasterBytes_ok framed, List.append_assoc]
  unfold readRaster?
  simp only [List.cons_append, List.nil_append]
  rw [Protocol.headerField_value, Protocol.headerField_value, across, down]

/-- An accepted command is self-delimiting exactly when the size fits the header. -/
theorem selfDelimiting_iff (accepted : protocol.encode (Sheet.rasterCommand bitmap) = .ok bytes) :
    bitmap.SelfDelimiting bytes ↔ bitmap.FitsHeader := by
  constructor
  · intro delimited
    have read := delimited []
    rw [readRaster?_encode accepted] at read
    simp only at read
    split at read
    · cases read
    · have same := congrArg Prod.fst (Option.some.inj read)
      have across : rowBytes bitmap.width % 65536 = rowBytes bitmap.width :=
        congrArg RasterFrame.rowBytes same
      have down : bitmap.height % 65536 = bitmap.height := congrArg RasterFrame.rows same
      constructor
      · rw [← across]
        exact Nat.mod_lt _ (by decide)
      · rw [← down]
        exact Nat.mod_lt _ (by decide)
  · rintro ⟨across, down⟩ following
    have size := bitmap.length_pack
    rw [readRaster?_encode accepted, Nat.mod_eq_of_lt across, Nat.mod_eq_of_lt down]
    simp only [← size]
    rw [if_neg (by rw [List.length_append]; omega), List.take_left, List.drop_left]
    unfold frame
    rfl

theorem headerField_isOk_iff (protocol : Protocol) (n : Nat) :
    (∃ bytes, protocol.headerField n = .ok bytes) ↔ (protocol = .escBematech → n < 65536) := by
  unfold Protocol.headerField
  split
  · rename_i refused
    constructor
    · rintro ⟨bytes, ok⟩
      cases ok
    · intro fits
      have := fits refused.1
      omega
  · rename_i taken
    constructor
    · intro _ bematech
      by_contra large
      exact taken ⟨bematech, by omega⟩
    · exact fun _ => ⟨_, rfl⟩

/-- One protocol refuses the bitmaps that do not fit the header, the other refuses none. -/
theorem isOk_encode_iff (protocol : Protocol) (bitmap : Bitmap) :
    (∃ bytes, protocol.encode (Sheet.rasterCommand bitmap) = .ok bytes) ↔
      (protocol = .escBematech → bitmap.FitsHeader) := by
  have rows : ((bitmap.width : Int) + 7) / 8 = (rowBytes bitmap.width : Nat) := by
    unfold rowBytes
    omega
  have whole :
      (bitmap.pack.length : Int) = (rowBytes bitmap.width : Nat) * (bitmap.height : Nat) := by
    rw [length_pack]
    exact Int.natCast_mul _ _
  have framed : protocol.encode (Sheet.rasterCommand bitmap) =
      (do
        let across ← protocol.headerField (rowBytes bitmap.width : Nat)
        let down ← protocol.headerField (bitmap.height : Nat)
        return [0x1D, 0x76, 0x30, 0x00] ++ across ++ down ++ bitmap.pack) := by
    show protocol.rasterBytes bitmap.pack bitmap.width bitmap.height = _
    unfold Protocol.rasterBytes
    simp only
    rw [rows, if_neg (not_not.2 whole)]
  constructor
  · rintro ⟨bytes, ok⟩ bematech
    rw [framed] at ok
    obtain ⟨across, acrossOk, ok⟩ := Outcome.bind_eq_ok_iff.1 ok
    obtain ⟨down, downOk, _⟩ := Outcome.bind_eq_ok_iff.1 ok
    exact ⟨(headerField_isOk_iff protocol _).1 ⟨across, acrossOk⟩ bematech,
      (headerField_isOk_iff protocol _).1 ⟨down, downOk⟩ bematech⟩
  · intro fits
    obtain ⟨across, acrossOk⟩ :=
      (headerField_isOk_iff protocol _).2 fun bematech => (fits bematech).1
    obtain ⟨down, downOk⟩ :=
      (headerField_isOk_iff protocol _).2 fun bematech => (fits bematech).2
    rw [framed]
    exact ⟨_, Outcome.bind_eq_ok_iff.2
      ⟨across, acrossOk, Outcome.bind_eq_ok_iff.2 ⟨down, downOk, rfl⟩⟩⟩

end Bitmap

/-! ## The size of the bitmap -/

namespace Resample

theorem width_alongRows (width : Nat) (grid : Grid UInt8) :
    (alongRows width grid).width = width := by
  unfold alongRows
  split
  · rename_i same
    exact same.symm
  · rfl

theorem height_alongRows (width : Nat) (grid : Grid UInt8) :
    (alongRows width grid).height = grid.height := by
  unfold alongRows
  split
  · rfl
  · simp [Grid.height]

theorem width_resample (width height : Nat) (grid : Grid UInt8) :
    (resample width height grid).width = width := by
  unfold resample
  simp only
  split
  · exact width_alongRows width grid
  · show (alongRows height (transpose (alongRows width grid))).height = width
    rw [height_alongRows]
    show (Grid.ofFn _ _ _).height = width
    rw [Grid.height_ofFn, width_alongRows]

theorem height_resample (width height : Nat) (grid : Grid UInt8) :
    (resample width height grid).height = height := by
  unfold resample
  simp only
  split
  · rename_i same
    rw [height_alongRows, ← same]
  · show (Grid.ofFn _ _ _).height = height
    rw [Grid.height_ofFn, width_alongRows]

theorem size_nearest (width height : Nat) (grid : Grid UInt8) :
    (nearest width height grid).width = width ∧ (nearest width height grid).height = height := by
  unfold nearest
  split
  · rename_i same
    exact ⟨same.1.symm, same.2.symm⟩
  · exact ⟨rfl, Grid.height_ofFn ..⟩

end Resample

namespace Bitmap

theorem length_ditherRows (errors : List Int) (rows : List (List Int)) :
    (ditherRows errors rows).length = rows.length := by
  induction rows generalizing errors with
  | nil => rfl
  | cons row rows ih =>
    rw [ditherRows]
    simp only [List.length_cons, ih]

theorem height_dither (levels : Grid Int) : (dither levels).height = levels.height :=
  length_ditherRows [] levels.rows

end Bitmap

namespace Picture

/-- A picture is reduced to the width asked for, at least one dot, and to the height that keeps its
shape, which nothing bounds. -/
theorem size_toMonochrome (picture : Picture) (width : Int) (diffuse : Bool) :
    (picture.toMonochrome width diffuse).width = max 1 width.toNat ∧
      (picture.toMonochrome width diffuse).height = picture.scaledHeight (max 1 width.toNat) := by
  unfold toMonochrome
  cases diffuse with
  | true =>
    simp only [if_true]
    refine ⟨Resample.width_resample _ _ _, ?_⟩
    rw [Bitmap.height_dither, Grid.height_map, Resample.height_resample]
  | false =>
    have size := Resample.size_nearest (max 1 width.toNat)
      (picture.scaledHeight (max 1 width.toNat)) picture.flatten
    simp only [Bool.false_eq_true, if_false]
    unfold Bitmap.threshold
    rw [Grid.width_map, Grid.height_map]
    exact size

end Picture

theorem rasterize_eq_ok {source : Value} {picture : Picture}
    (loaded : source.toPicture = .ok picture) (shows : picture.isEmpty = false) (width : Int)
    (diffuse : Bool) :
    rasterize source width diffuse = .ok (picture.toMonochrome width diffuse) := by
  unfold rasterize
  rw [loaded]
  simp only [shows, Bool.false_eq_true, if_false]

/-- Every picture with pixels gives a bitmap of the width asked for. What a protocol sends for it is
self-delimiting exactly when its size fits the header, and only one protocol refuses it
otherwise. -/
theorem rasterize_selfDelimiting_iff {source : Value} {picture : Picture}
    (loaded : source.toPicture = .ok picture) (shows : picture.isEmpty = false)
    (width : Int) (diffuse : Bool) (protocol : Protocol) :
    ∃ bitmap, rasterize source width diffuse = .ok bitmap ∧
      bitmap.width = max 1 width.toNat ∧
      bitmap.height = picture.scaledHeight (max 1 width.toNat) ∧
      (∀ bytes, protocol.encode (Sheet.rasterCommand bitmap) = .ok bytes →
        (bitmap.SelfDelimiting bytes ↔ bitmap.FitsHeader)) ∧
      ((∃ bytes, protocol.encode (Sheet.rasterCommand bitmap) = .ok bytes) ↔
        (protocol = .escBematech → bitmap.FitsHeader)) := by
  have size := picture.size_toMonochrome width diffuse
  refine ⟨picture.toMonochrome width diffuse, rasterize_eq_ok loaded shows width diffuse, size.1,
    size.2, ?_, ?_⟩
  · exact fun bytes accepted => Bitmap.selfDelimiting_iff accepted
  · exact Bitmap.isOk_encode_iff protocol _

/-- A black strip one dot wide, with one row more than a header field can count. -/
def tallStrip : Picture := .gray (Grid.ofFn 1 65536 fun _ _ => 0)

theorem isEmpty_tallStrip : tallStrip.isEmpty = false := by
  show (1 == 0 || (Grid.ofFn 1 65536 fun _ _ => (0 : UInt8)).height == 0) = false
  rw [Grid.height_ofFn]
  rfl

theorem height_tallStrip : tallStrip.height = 65536 := by
  unfold tallStrip Picture.height
  exact Grid.height_ofFn ..

/-- A strip one dot wide keeps its height at the width of one dot. -/
theorem scaledHeight_of_strip {picture : Picture} (narrow : picture.width = 1)
    (tall : picture.height = 65536) : picture.scaledHeight (max 1 (1 : Int).toNat) = 65536 := by
  unfold Picture.scaledHeight
  rw [tall, narrow]
  decide +kernel

theorem rasterize_selfDelimiting_iff_tallStrip :
    (Value.picture tallStrip).toPicture = .ok tallStrip ∧ tallStrip.isEmpty = false ∧
      ∃ bitmap, rasterize (.picture tallStrip) 1 true = .ok bitmap ∧ bitmap.height = 65536 := by
  obtain ⟨bitmap, made, _, height, _⟩ :=
    rasterize_selfDelimiting_iff (show (Value.picture tallStrip).toPicture = .ok tallStrip from rfl)
      isEmpty_tallStrip 1 true .escPos
  exact ⟨rfl, isEmpty_tallStrip, bitmap, made,
    height.trans (scaledHeight_of_strip rfl height_tallStrip)⟩

/-- The strip is framed nevertheless, and a printer does not find its end. -/
theorem not_selfDelimiting_tallStrip :
    ∃ bitmap bytes, rasterize (.picture tallStrip) 1 true = .ok bitmap ∧
      Protocol.escPos.encode (Sheet.rasterCommand bitmap) = .ok bytes ∧
      ¬ bitmap.SelfDelimiting bytes := by
  have size := tallStrip.size_toMonochrome 1 true
  obtain ⟨bytes, accepted⟩ :=
    (Bitmap.isOk_encode_iff .escPos (tallStrip.toMonochrome 1 true)).2 (by nofun)
  refine ⟨_, bytes, rasterize_eq_ok rfl isEmpty_tallStrip 1 true, accepted, ?_⟩
  rw [Bitmap.selfDelimiting_iff accepted]
  rintro ⟨_, fits⟩
  rw [size.2, scaledHeight_of_strip rfl height_tallStrip] at fits
  exact absurd fits (by decide)

end Receipt
