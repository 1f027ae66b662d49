import Receipt.Proofs.LengthRange
import Receipt.Proofs.RowColumns

/-!
# Where the cells of a drawn row stand

On a page the text of a cell stands at a point, on the side that its anchor names, and covers as much
as it measures (`Placement.left`, `Placement.right`). Cells in columns are cut until they measure no
more than their column (`Row.LongestFit`), so each of them stays inside its column whatever side it
stands on, and the columns lie side by side. Two cells at the ends of a row are not cut, and neither
are cells in its middle, which follow one another without a gap (`Row.Contiguous`).

Nothing is known of the measure but that it is never negative and that nothing measures nothing: it
need not add up or grow with the text. `Row.placed_placements` says where the cells of every row
stand. Only a row in columns may have no place for them: when it passes over a width that it cannot
write out for the log (`Value.isLoggable`).
-/

namespace Receipt

/-- The left end of what a text of a width covers when it stands at a point. -/
def Alignment.leftEnd (anchor : Alignment) (x width : Rat) : Rat :=
  match anchor with
  | .left => x
  | .center => x - width / 2
  | .right => x - width

namespace Placement

/-- The width of a text that has been placed. -/
def measured (measure : Measure Rat) (placement : Placement Rat) : Rat :=
  measure placement.text placement.bold placement.pointSize

/-- The left end of what a placed text covers. -/
def left (measure : Measure Rat) (placement : Placement Rat) : Rat :=
  placement.anchor.leftEnd placement.x (placement.measured measure)

/-- The right end of what a placed text covers. -/
def right (measure : Measure Rat) (placement : Placement Rat) : Rat :=
  placement.left measure + placement.measured measure

end Placement

namespace Resolver

open Outcome

/-! ## The widths of a row -/

/-- Exact numbers resolve every width, but one that is no number has to be written out. -/
theorem returns_width_rat_iff (resolver : Resolver Rat) (value : Value) (outer : Rat) :
    Returns (resolver.width value outer) ↔ value.isLoggable = true := by
  have length : ∃ pixels, (Length.ofValue value : Except NumberFault (Option Rat)) = .ok pixels := by
    cases value <;> exact ⟨_, rfl⟩
  obtain ⟨pixels, known⟩ := length
  unfold Resolver.width statedWidth
  rw [known]
  split
  · refine (returns_bind_iff_left fun stated _ => returns_ok _).trans ?_
    split
    · next share read =>
      have loggable := Value.isLoggable_of_share read
      cases resolver.target <;> exact iff_of_true (returns_ok _) loggable
    · cases pixels with
      | none => exact returns_map_iff.trans (Value.returns_written_of_unread known)
      | some pixels =>
        have loggable := Value.isLoggable_of_read known
        cases resolver.target <;> exact iff_of_true (returns_ok _) loggable
  · next absent => exact iff_of_true (returns_ok none) (Value.isLoggable_of_not_isWidth absent)

/-- What the open cells are given is no more than what is left. -/
theorem shares_within (resolver : Resolver Rat) {remaining : Rat} (nonneg : 0 ≤ remaining)
    (count : Nat) (some : count ≠ 0) : ∃ shares, resolver.shares remaining count = .ok shares ∧
      (∀ share ∈ shares, 0 ≤ share) ∧ shares.sum ≤ remaining := by
  cases target : resolver.target with
  | points =>
    have made := shares_points target remaining count
    have divides := divides_shares nonneg (by rw [target]; exact nofun) some made
    exact ⟨_, made, divides.nonneg, divides.sum_eq.le⟩
  | cells =>
    obtain ⟨whole, floored⟩ := Int.eq_ofNat_of_zero_le (Rat.le_floor_iff.2 nonneg)
    have below : (whole : Rat) ≤ remaining := by
      have cut := Rat.floor_le remaining
      rwa [floored] at cut
    -- Whole characters are divided, so a fraction of one that is left over does not matter.
    have same : resolver.shares remaining count = resolver.shares (whole : Rat) count := by
      unfold Resolver.shares
      simp only [target, Scalar.truncate_rat nonneg, Scalar.truncate_natCast, floored]
    have made := same.trans (shares_cells target whole count)
    have divides := divides_shares (Nat.cast_nonneg whole) (fun _ => ⟨whole, rfl⟩) some
      (shares_cells target whole count)
    exact ⟨_, made, divides.nonneg, divides.sum_eq.trans_le below⟩

/-- In exact numbers every row has widths when the stated ones can be read or written out. There is
one for each cell, and together they are no more than the width of the row. -/
theorem widths_within (resolver : Resolver Rat) {stated : List Value} {total : Rat}
    (loggable : ∀ value ∈ stated, value.isLoggable = true) (nonneg : 0 ≤ total) :
    ∃ widths, resolver.widths stated total = .ok widths ∧
      widths.length = stated.length ∧ (∀ width ∈ widths, 0 ≤ width) ∧ widths.sum ≤ total := by
  obtain ⟨own, resolved⟩ := returns_mapM_iff.2 fun value (member : value ∈ stated) =>
    (returns_width_rat_iff resolver value total).2 (loggable value member)
  have each := (mapM_eq_ok_iff.1 resolved).length_eq
  have asked : ∀ width, some width ∈ own → 0 ≤ width := by
    intro width member
    obtain ⟨value, _, made⟩ := exists_of_mem_mapM resolved member
    exact nonneg_of_width made
  have kept {shares widths : List Rat}
      (dealt : Dealt total own shares widths (grantWidths total own).2) :=
    dealt.all (fun _ _ => le_min) (fun _ _ _ _ => sub_nonneg.2) nonneg asked
  rw [widths_eq, resolved]
  show ∃ widths, resolver.shareOut own total = .ok widths ∧ _
  unfold shareOut
  rw [Scalar.max_rat, Scalar.zero_rat, max_eq_right nonneg]
  simp only [countP_grantWidths]
  by_cases closed : own.countP Option.isNone = 0
  · have dealt : Dealt total own [] _ _ := dealt_fillShares total closed.symm
    have sum := dealt.sum_eq
    rw [List.sum_nil] at sum
    rw [if_pos closed]
    refine ⟨_, rfl, dealt.length_eq.trans each.symm, (kept dealt).2 nofun, ?_⟩
    linarith [(kept dealt).1]
  · have open_ : (List.replicate (own.countP Option.isNone) (0 : Rat)).length =
        own.countP Option.isNone := List.length_replicate
    have left : 0 ≤ (grantWidths total own).2 := (kept (dealt_fillShares total open_)).1
    obtain ⟨shares, divided, given, within⟩ := resolver.shares_within left _ closed
    have dealt := dealt_fillShares total (length_of_shares divided)
    have sum := dealt.sum_eq
    rw [if_neg closed, divided]
    refine ⟨_, rfl, dealt.length_eq.trans each.symm, (kept dealt).2 given, ?_⟩
    linarith

theorem loggable_of_widths {resolver : Resolver Rat} {stated : List Value} {total : Rat}
    {widths : List Rat} (made : resolver.widths stated total = .ok widths) :
    ∀ value ∈ stated, value.isLoggable = true := by
  rw [widths_eq] at made
  obtain ⟨own, resolved, _⟩ := bind_eq_ok_iff.1 made
  intro value member
  exact (returns_width_rat_iff resolver value total).1 (returns_mapM_iff.1 ⟨own, resolved⟩ value member)

end Resolver

namespace Row

variable {measure : Measure Rat}

/-! ## Cutting a text -/

/-- The longest beginning of a text that fits; nothing when none does. -/
structure LongestFit (fitting : String → Prop) (text piece : String) : Prop where
  start : piece.toList <+: text.toList
  fits : piece = "" ∨ fitting piece
  longest (other : String) : other.toList <+: text.toList →
    piece.toList.length < other.toList.length → ¬ fitting other

theorem longestFitting_eq (fits : List Char → Bool) (text : List Char) (count : Nat) :
    ∃ n ≤ count, longestFitting fits text count = text.take n ∧ (n = 0 ∨ fits (text.take n)) ∧
      ∀ m, n < m → m ≤ count → fits (text.take m) = false := by
  induction count with
  | zero => exact ⟨0, le_rfl, rfl, .inl rfl, fun m more most => absurd more (by omega)⟩
  | succ count ih =>
    unfold longestFitting
    split
    · next whole => exact ⟨count + 1, le_rfl, rfl, .inr whole, fun m more most => by omega⟩
    · next cut =>
      obtain ⟨n, within, same, holds, others⟩ := ih
      refine ⟨n, by omega, same, holds, fun m more most => ?_⟩
      rcases Nat.lt_or_eq_of_le most with less | rfl
      · exact others m more (by omega)
      · exact Bool.eq_false_iff.2 cut

/-- Dropping characters at the end until a text fits leaves the longest beginning that does. -/
theorem longestFit_clip (measure : Measure Rat) (text : String) (width : Rat) (bold : Bool)
    (size : Rat) :
    LongestFit (fun piece => measure piece bold size ≤ width) text
      (clip measure text width bold size) := by
  obtain ⟨n, within, same, holds, others⟩ := longestFitting_eq
    (fun piece => decide (¬ width < measure (String.ofList piece) bold size)) text.toList text.length
  simp only [decide_eq_true_eq, decide_eq_false_iff_not, not_lt, not_le] at holds others
  unfold clip
  rw [same]
  refine ⟨?_, ?_, fun other start more => ?_⟩
  · rw [String.toList_ofList]
    exact List.take_prefix n _
  · refine holds.imp_left fun none => ?_
    rw [none, List.take_zero]
  · rw [String.toList_ofList, List.length_take, String.length_toList, min_eq_left within] at more
    have bound := start.length_le
    rw [String.length_toList] at bound
    have beyond := others other.toList.length more bound
    rwa [← List.prefix_iff_eq_take.1 start, String.ofList_toList, ← not_le] at beyond

/-! ## Texts side by side -/

/-- The text of a column stays inside it, on whichever side it stands. -/
theorem inside_column (empty : ∀ bold size, measure "" bold size = 0) (cell : Cell Rat) (x : Rat)
    {width : Rat} (wide : 0 ≤ width) :
    let placement : Placement Rat := ⟨clip measure cell.text width cell.bold cell.pointSize,
      anchorPoint cell.align x width, cell.align, cell.bold, cell.pointSize⟩
    x ≤ placement.left measure ∧ placement.right measure ≤ x + width := by
  intro placement
  have fits : placement.measured measure ≤ width := by
    rcases (longestFit_clip measure cell.text width cell.bold cell.pointSize).fits with none | some
    · have nothing : placement.measured measure = 0 :=
        (congrArg (measure · cell.bold cell.pointSize) none).trans (empty ..)
      exact nothing.trans_le wide
    · exact some
  have two : (Scalar.ofNat 2 : Rat) = 2 := Scalar.ofNat_rat 2
  unfold Placement.right Placement.left Alignment.leftEnd
  generalize placement.measured measure = taken at fits
  simp only [placement, anchorPoint, two]
  cases cell.align with
  | left => exact ⟨le_rfl, add_le_add_right fits x⟩
  | center => exact ⟨by linarith, by linarith⟩
  | right => exact ⟨by linarith, by linarith⟩

/-- Cells in columns stand between the edges of the columns, one behind the other. -/
theorem apart_placeColumns (empty : ∀ bold size, measure "" bold size = 0) (x : Rat)
    {columns : List (Cell Rat × Rat)} (wide : ∀ column ∈ columns, 0 ≤ column.2) :
    (∀ placement ∈ placeColumns measure x columns, x ≤ placement.left measure ∧
      placement.right measure ≤ x + (columns.map (·.2)).sum) ∧
    (placeColumns measure x columns).Pairwise fun first second =>
      first.right measure ≤ second.left measure := by
  induction columns generalizing x with
  | nil => exact ⟨nofun, .nil⟩
  | cons column columns ih =>
    obtain ⟨cell, width⟩ := column
    obtain ⟨own, others⟩ := List.forall_mem_cons.1 wide
    obtain ⟨inside, apart⟩ := ih (x + width) others
    obtain ⟨start, stop⟩ := inside_column empty cell x own
    have rest : 0 ≤ (columns.map (·.2)).sum := by
      refine List.sum_nonneg fun other member => ?_
      obtain ⟨column, among, rfl⟩ := List.mem_map.1 member
      exact others column among
    rw [List.map_cons, List.sum_cons]
    unfold placeColumns
    refine ⟨List.forall_mem_cons.2 ⟨⟨start, by linarith⟩, fun placement member => ?_⟩,
      List.pairwise_cons.2 ⟨fun placement member => ?_, apart⟩⟩
    · obtain ⟨left, right⟩ := inside placement member
      exact ⟨by linarith, by linarith⟩
    · exact stop.trans (inside placement member).1

/-- Texts that follow one another without a gap, from a point to another. -/
def Contiguous (measure : Measure Rat) : Rat → List (Placement Rat) → Rat → Prop
  | start, [], stop => start = stop
  | start, placement :: placements, stop =>
    placement.left measure = start ∧ Contiguous measure (placement.right measure) placements stop

/-- The width of the text of a cell. -/
def measured (measure : Measure Rat) (cell : Cell Rat) : Rat :=
  measure cell.text cell.bold cell.pointSize

theorem contiguous_placeInTurn (measure : Measure Rat) (x : Rat) (cells : List (Cell Rat)) :
    Contiguous measure x (placeInTurn measure x cells) (x + (cells.map (measured measure)).sum) := by
  induction cells generalizing x with
  | nil => exact (add_zero x).symm
  | cons cell cells ih =>
    rw [List.map_cons, List.sum_cons, ← add_assoc]
    exact ⟨rfl, ih (x + measured measure cell)⟩

/-! ## Which cell a text belongs to -/

/-- A placement has the weight and the size of a cell. -/
def Looks (cell : Cell Rat) (placement : Placement Rat) : Prop :=
  placement.bold = cell.bold ∧ placement.pointSize = cell.pointSize

/-- A placement shows the whole text of a cell. -/
def Shows (cell : Cell Rat) (placement : Placement Rat) : Prop :=
  Looks cell placement ∧ placement.text = cell.text

/-- A placement shows the longest beginning of a text that fits its column. -/
def ShowsIn (measure : Measure Rat) (column : Cell Rat × Rat) (placement : Placement Rat) : Prop :=
  Looks column.1 placement ∧
    LongestFit (fun piece => measure piece column.1.bold column.1.pointSize ≤ column.2)
      column.1.text placement.text

theorem shows_placeInTurn (measure : Measure Rat) (x : Rat) (cells : List (Cell Rat)) :
    List.Forall₂ Shows cells (placeInTurn measure x cells) := by
  induction cells generalizing x with
  | nil => exact .nil
  | cons cell cells ih => exact .cons ⟨⟨rfl, rfl⟩, rfl⟩ (ih _)

theorem showsIn_placeColumns (measure : Measure Rat) (x : Rat) (columns : List (Cell Rat × Rat)) :
    List.Forall₂ (ShowsIn measure) columns (placeColumns measure x columns) := by
  induction columns generalizing x with
  | nil => exact .nil
  | cons column columns ih => exact .cons ⟨⟨rfl, rfl⟩, longestFit_clip ..⟩ (ih _)

/-! ## The placements of a row -/

/-- Two cells without widths, and room between them on a page. -/
structure Spread (measure : Measure Rat) (justify : Value) (cells : List (Cell Rat)) (width : Rat) :
    Prop where
  asked : justify.isTextOf "space-between" = true
  two : cells.length = 2
  unsized : ∀ cell ∈ cells, isWidth cell.width = false
  room : (cells.map (measured measure)).sum < width

/-- Where the cells of a row stand. An empty text covers no more than the point it stands at. -/
structure Placed (resolver : Resolver Rat) (measure : Measure Rat) (justify : Value)
    (cells : List (Cell Rat)) (width : Rat) (placements : List (Placement Rat)) : Prop where
  inside : justify.isTextOf "center" = false → ∀ placement ∈ placements,
    0 ≤ placement.left measure ∧ placement.left measure ≤ placement.right measure ∧
      placement.right measure ≤ width
  apart : justify.isTextOf "center" = false → placements.Pairwise fun first second =>
    first.right measure ≤ second.left measure
  spread : Spread measure justify cells width → List.Forall₂ Shows cells placements
  columns : ¬ Spread measure justify cells width → justify.isTextOf "center" = false →
    ∃ widths, resolver.widths (cells.map (·.width)) width = .ok widths ∧
      widths.length = cells.length ∧
      List.Forall₂ (ShowsIn measure) (cells.zip widths) placements
  centered : justify.isTextOf "center" = true → List.Forall₂ Shows cells placements ∧
    ((cells.map (measured measure)).sum ≤ width →
      ∃ free, 0 ≤ free ∧ Contiguous measure free placements (width - free))

theorem spread_iff {justify : Value} {cells : List (Cell Rat)} {width : Rat} :
    Spread measure justify cells width ↔ ∃ first second,
      ends? justify cells = some (first, second) ∧ (cells.map (measured measure)).sum < width := by
  constructor
  · intro ⟨asked, two, unsized, room⟩
    obtain ⟨first, second, same⟩ := List.length_eq_two.1 two
    exact ⟨first, second, ends?_eq_some_iff.2 ⟨same, asked, unsized⟩, room⟩
  · intro ⟨first, second, pushed, room⟩
    obtain ⟨same, asked, unsized⟩ := ends?_eq_some_iff.1 pushed
    exact ⟨asked, by rw [same]; rfl, unsized, room⟩

section Placements

variable {resolver : Resolver Rat} {justify : Value} {cells : List (Cell Rat)} {width : Rat}

theorem placements_of_spread (resolver : Resolver Rat)
    (spread : Spread measure justify cells width) :
    ∃ first second, cells = [first, second] ∧ placements resolver measure cells width justify =
      .ok [⟨first.text, 0, .left, first.bold, first.pointSize⟩,
        ⟨second.text, width, .right, second.bold, second.pointSize⟩] := by
  obtain ⟨first, second, pushed, room⟩ := spread_iff.1 spread
  obtain rfl := eq_of_ends? pushed
  rw [← Scalar.sum_rat] at room
  unfold placements
  simp only [List.isEmpty_cons, Bool.false_eq_true, if_false, pushed]
  exact ⟨first, second, rfl, if_pos room⟩

theorem placements_of_not_spread (spread : ¬ Spread measure justify cells width) :
    placements resolver measure cells width justify =
      if isCentered justify then
        .ok (placeInTurn measure (max 0 ((width - (cells.map (measured measure)).sum) / 2)) cells)
      else do
        let widths ← resolver.widths (cells.map (·.width)) width
        return placeColumns measure 0 (cells.zip widths) := by
  rcases eq_or_ne cells [] with rfl | filled
  · cases isCentered justify <;> rfl
  have two : (Scalar.ofNat 2 : Rat) = 2 := Scalar.ofNat_rat 2
  unfold placements
  simp only [List.isEmpty_eq_false_iff.2 filled, Bool.false_eq_true, if_false, Scalar.sum_rat,
    Scalar.max_rat, Scalar.zero_rat, two]
  cases pushed : ends? justify cells with
  | none => rfl
  | some both =>
    obtain ⟨first, second⟩ := both
    have full : ¬ (cells.map (measured measure)).sum < width := fun room =>
      spread (spread_iff.2 ⟨first, second, pushed, room⟩)
    rw [not_isCentered (ends?_eq_some_iff.1 pushed).2.1]
    exact if_neg full

end Placements

/-- Two cells at the ends of a row stand inside it, and apart. -/
theorem placed_of_spread (nonneg : ∀ text bold size, 0 ≤ measure text bold size)
    (resolver : Resolver Rat) {justify : Value} {first second : Cell Rat} {width : Rat}
    (spread : Spread measure justify [first, second] width) :
    Placed resolver measure justify [first, second] width
      [⟨first.text, 0, .left, first.bold, first.pointSize⟩,
        ⟨second.text, width, .right, second.bold, second.pointSize⟩] := by
  have room : measured measure first + measured measure second < width := by
    have room := spread.room
    simpa using room
  have own : 0 ≤ measured measure first := nonneg ..
  have other : 0 ≤ measured measure second := nonneg ..
  have left : Placement.right measure
      ⟨first.text, 0, .left, first.bold, first.pointSize⟩ = measured measure first := zero_add _
  have right : Placement.left measure
      ⟨second.text, width, .right, second.bold, second.pointSize⟩ =
        width - measured measure second := rfl
  have stop : Placement.right measure
      ⟨second.text, width, .right, second.bold, second.pointSize⟩ = width := sub_add_cancel ..
  have pushed := not_isCentered spread.asked
  refine ⟨fun _ => ?_, fun _ => ?_, fun _ => .cons ⟨⟨rfl, rfl⟩, rfl⟩ (.cons ⟨⟨rfl, rfl⟩, rfl⟩ .nil),
    fun apart => absurd spread apart, fun middle => absurd (middle.symm.trans pushed) (by decide)⟩
  · simp only [List.forall_mem_cons, left, right, stop]
    exact ⟨⟨le_rfl, own, by linarith⟩, ⟨by linarith, by linarith, le_rfl⟩, nofun⟩
  · refine List.pairwise_pair.2 ?_
    rw [left, right]
    linarith

/-- Cells in columns stand inside the row, and apart. -/
theorem placed_of_columns (nonneg : ∀ text bold size, 0 ≤ measure text bold size)
    (empty : ∀ bold size, measure "" bold size = 0) {resolver : Resolver Rat} {justify : Value}
    {cells : List (Cell Rat)} {width : Rat} (spread : ¬ Spread measure justify cells width)
    (middle : isCentered justify = false) {widths : List Rat}
    (shared : resolver.widths (cells.map (·.width)) width = .ok widths)
    (each : widths.length = cells.length) (wide : ∀ own ∈ widths, 0 ≤ own)
    (within : widths.sum ≤ width) :
    Placed resolver measure justify cells width (placeColumns measure 0 (cells.zip widths)) := by
  have second : (cells.zip widths).map (·.2) = widths :=
    List.map_snd_zip each.le
  have columns : ∀ column ∈ cells.zip widths, 0 ≤ column.2 := fun column member =>
    wide column.2 (List.of_mem_zip member).2
  obtain ⟨inside, apart⟩ := apart_placeColumns empty 0 columns
  rw [second, zero_add] at inside
  refine ⟨fun _ placement member => ?_, fun _ => apart, fun ends => absurd ends spread,
    fun _ _ => ⟨widths, shared, each, showsIn_placeColumns measure 0 _⟩,
    fun other => absurd (middle.symm.trans other) (by decide)⟩
  obtain ⟨start, stop⟩ := inside placement member
  exact ⟨start, le_add_of_nonneg_right (nonneg ..), stop.trans within⟩

/-- Cells in the middle of a row that holds them follow one another, and what they leave free lies on
both sides alike. -/
theorem placed_of_centered {resolver : Resolver Rat} {justify : Value} {cells : List (Cell Rat)}
    {width : Rat} (spread : ¬ Spread measure justify cells width)
    (middle : isCentered justify = true) :
    Placed resolver measure justify cells width
      (placeInTurn measure (max 0 ((width - (cells.map (measured measure)).sum) / 2)) cells) := by
  have centered {any : Prop} (other : justify.isTextOf "center" = false) : any :=
    absurd (middle.symm.trans other) (by decide)
  refine ⟨centered, centered, fun ends => absurd ends spread, fun _ => centered,
    fun _ => ⟨shows_placeInTurn .., fun holds => ?_⟩⟩
  have room : 0 ≤ (width - (cells.map (measured measure)).sum) / 2 := by linarith
  have stop : width - (width - (cells.map (measured measure)).sum) / 2 =
      (width - (cells.map (measured measure)).sum) / 2 + (cells.map (measured measure)).sum := by
    ring
  rw [max_eq_right room]
  refine ⟨_, room, ?_⟩
  rw [stop]
  exact contiguous_placeInTurn ..

/-- The cells of a row on a page stand as `Placed` says, however their texts are measured. A row that
is divided into columns comes to placements exactly when the widths of its cells can be read or written
out, and any other row always does. -/
theorem placed_placements (resolver : Resolver Rat) {measure : Measure Rat}
    (nonneg : ∀ text bold size, 0 ≤ measure text bold size)
    (empty : ∀ bold size, measure "" bold size = 0) (cells : List (Cell Rat)) {width : Rat}
    (wide : 0 ≤ width) (justify : Value) :
    ((∃ made, placements resolver measure cells width justify = .ok made) ↔
        Spread measure justify cells width ∨ justify.isTextOf "center" = true ∨
          ∀ cell ∈ cells, cell.width.isLoggable = true) ∧
      ∀ made, placements resolver measure cells width justify = .ok made →
        Placed resolver measure justify cells width made := by
  by_cases spread : Spread measure justify cells width
  · obtain ⟨first, second, rfl, placed⟩ := placements_of_spread resolver spread
    rw [placed]
    refine ⟨iff_of_true ⟨_, rfl⟩ (.inl spread), fun made same => ?_⟩
    obtain rfl := Except.ok.inj same
    exact placed_of_spread nonneg resolver spread
  rw [or_iff_right spread, placements_of_not_spread spread]
  cases middle : isCentered justify with
  | true =>
    refine ⟨iff_of_true ⟨_, rfl⟩ (.inl middle), fun made same => ?_⟩
    obtain rfl := Except.ok.inj same
    exact placed_of_centered spread middle
  | false =>
    have columns : ¬ justify.isTextOf "center" = true := fun other =>
      absurd (other.symm.trans middle) (by decide)
    rw [or_iff_right columns, if_neg (by decide)]
    constructor
    · constructor
      · rintro ⟨made, placed⟩ cell member
        obtain ⟨widths, shared, _⟩ := Outcome.bind_eq_ok_iff.1 placed
        exact Resolver.loggable_of_widths shared _ (List.mem_map_of_mem member)
      · intro loggable
        obtain ⟨widths, shared, _⟩ := resolver.widths_within (List.forall_mem_map.2 loggable) wide
        rw [shared]
        exact ⟨_, rfl⟩
    · intro made placed
      obtain ⟨widths, shared, laid⟩ := Outcome.bind_eq_ok_iff.1 placed
      obtain rfl := Except.ok.inj laid
      obtain ⟨others, again, each, own, within⟩ :=
        resolver.widths_within (Resolver.loggable_of_widths shared) wide
      obtain rfl := Except.ok.inj (shared.symm.trans again)
      rw [List.length_map] at each
      exact placed_of_columns nonneg empty spread middle shared each own within

/-- A measure of glyphs of which two are joined to one that is narrower than the first alone. -/
def joinedMeasure : Measure Rat := fun text bold _ =>
  (if text = "fi" then 1 else if bold then 3 * text.length else 2 * text.length : Nat)

theorem placed_placements_joined :
    let cells : List (Cell Rat) :=
      [⟨"fi", .center, false, .null, 10⟩, ⟨"12,50", .right, true, .text "60%", 10⟩]
    (∀ text bold size, 0 ≤ joinedMeasure text bold size) ∧
      (∀ bold size, joinedMeasure "" bold size = 0) ∧ (0 : Rat) ≤ 15 ∧
      ∃ made, placements ⟨.points, .normal, 10⟩ joinedMeasure cells 15 .null = .ok made ∧
        Placed ⟨.points, .normal, 10⟩ joinedMeasure .null cells 15 made := by
  have nonneg : ∀ text bold size, 0 ≤ joinedMeasure text bold size := fun _ _ _ =>
    Nat.cast_nonneg _
  have empty : ∀ bold size, joinedMeasure "" bold size = 0 := fun bold _ => by
    cases bold <;> rfl
  obtain ⟨returns, placed⟩ := placed_placements ⟨.points, .normal, 10⟩ nonneg empty
    [⟨"fi", .center, false, .null, 10⟩, ⟨"12,50", .right, true, .text "60%", 10⟩]
    (by decide : (0 : Rat) ≤ 15) .null
  obtain ⟨made, laid⟩ := returns.2 (.inr (.inr (by decide)))
  exact ⟨nonneg, empty, by decide, made, laid, placed made laid⟩

end Row

end Receipt
