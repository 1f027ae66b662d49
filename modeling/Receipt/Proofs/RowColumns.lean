import Receipt.Proofs.RowLine

/-!
# Where the cells of a printed row stand

The line of a row is read as its characters in order, each with the weight of the part it stands in
(`Row.weighed`). What the three ways of laying out a row make of the cells is then said character by
character (`Row.LaysOut`): two cells at the ends of the line, all cells in its middle and cut at its
end, or each cell in the column that its width gives it.

`Row.laysOut_segments` says it in any type that counts up to the width of the line, and
`Row.laysOut_printed` of exact and of binary numbers.
-/

namespace Receipt

/-- The characters of a cell, in the weight of the cell. -/
def Cell.weighed {α : Type} (cell : Cell α) : List (Char × Bool) :=
  cell.text.toList.map (·, cell.bold)

namespace Row

/-- The characters of the parts of a row, each in the weight of its part. -/
def weighed (segments : List Segment) : List (Char × Bool) :=
  segments.flatMap fun segment => segment.text.toList.map (·, segment.bold)

/-- A number of spaces in a weight. -/
def weighedBlanks (count : Nat) (bold : Bool) : List (Char × Bool) :=
  List.replicate count (' ', bold)

variable {α : Type}

/-- Two cells without widths, and room between them. -/
structure SpaceBetween (justify : Value) (cells : List (Cell α)) (width : Nat) : Prop where
  asked : justify.isTextOf "space-between" = true
  two : cells.length = 2
  unsized : ∀ cell ∈ cells, isWidth cell.width = false
  room : textLength cells < width

/-- A cell in a column: the beginning of its text that fits, and spaces on the sides that its
alignment leaves free. -/
structure InColumn (cell : Cell α) (width : Nat) (column : List (Char × Bool)) : Prop where
  length_eq : column.length = width
  padded : ∃ before behind,
    column = weighedBlanks before cell.bold ++ cell.weighed.take (min width cell.text.length) ++
      weighedBlanks behind cell.bold ∧
    match cell.align with
      | .left => before = 0
      | .right => behind = 0
      | .center => before ≤ behind ∧ behind ≤ before + 1

/-- The line of a row in columns of the given numbers of characters. -/
structure InColumns (cells : List (Cell α)) (counts : List Nat) (line : List (Char × Bool)) :
    Prop where
  length_eq : line.length = counts.sum
  column (i : Nat) (cell : Cell α) : cells[i]? = some cell → ∃ width, counts[i]? = some width ∧
    InColumn cell width ((line.drop (counts.take i).sum).take width)

/-- What stands where on the line of a row. -/
structure LaysOut [Scalar α] (resolver : Resolver α) (justify : Value) (cells : List (Cell α))
    (width : Nat) (line : List (Char × Bool)) : Prop where
  short : line.length ≤ width
  ends : SpaceBetween justify cells width → ∃ first second, cells = [first, second] ∧
    line = first.weighed ++ weighedBlanks (width - textLength cells) false ++ second.weighed ∧
    line.length = width
  centered : ¬ SpaceBetween justify cells width → justify.isTextOf "center" = true →
    ∃ lead : Nat, (lead : Int) = max 0 (((width : Int) - textLength cells) / 2) ∧
      line = weighedBlanks lead false ++ (cells.flatMap Cell.weighed).take (width - lead)
  columns : ¬ SpaceBetween justify cells width → justify.isTextOf "center" = false →
    ∃ total widths counts, Scalar.ofInt width = .ok total ∧
      resolver.widths (cells.map (·.width)) total = .ok widths ∧
      List.Forall₂ (fun own (count : Nat) => Scalar.Stands own count) widths counts ∧
      InColumns cells counts line ∧
      ((∃ cell ∈ cells, resolver.width cell.width total = .ok none) → line.length = width)

theorem weighed_nil : weighed [] = [] := rfl

theorem weighed_cons (segment : Segment) (segments : List Segment) :
    weighed (segment :: segments) =
      segment.text.toList.map (·, segment.bold) ++ weighed segments := List.flatMap_cons

theorem length_weighed (cell : Cell α) : cell.weighed.length = cell.text.length := by
  rw [Cell.weighed, List.length_map, String.length_toList]

theorem map_blanks (count : Nat) (bold : Bool) :
    (blanks count).map (·, bold) = weighedBlanks count bold := List.map_replicate

/-! ## Cells in the middle -/

/-- Cells that are cut to the room that is left, one after the other, are cut as one text. -/
theorem weighed_clipInTurn (room : Nat) (cells : List (Cell α)) :
    weighed (clipInTurn room cells) = (cells.flatMap Cell.weighed).take room := by
  induction cells generalizing room with
  | nil => rw [clipInTurn, List.flatMap_nil, List.take_nil, weighed_nil]
  | cons cell cells ih =>
    unfold clipInTurn
    split
    · next full => rw [full, List.take_zero, weighed_nil]
    · have left : room - (cell.text.toList.take room).length = room - cell.weighed.length := by
        rw [List.length_take, length_weighed, String.length_toList]
        omega
      rw [weighed_cons, String.toList_ofList, ih, List.flatMap_cons, List.take_append, left,
        Cell.weighed, List.map_take]

theorem weighed_centered (cells : List (Cell α)) (width : Nat) :
    weighed (centered cells width) =
      weighedBlanks (((width : Int) - textLength cells) / 2).toNat false ++
        (cells.flatMap Cell.weighed).take
          (width - (((width : Int) - textLength cells) / 2).toNat) := by
  unfold centered
  generalize (((width : Int) - textLength cells) / 2).toNat = lead
  have room : ((width : Int) - lead).toNat = width - lead := by omega
  dsimp only
  rw [room]
  split
  · next none =>
    rw [none, weighed_clipInTurn]
    rfl
  · rw [weighed_cons, weighed_clipInTurn, String.toList_ofList, map_blanks]

/-! ## Cells in columns -/

theorem inColumn_fit (cell : Cell α) (width : Nat) :
    InColumn cell width ((fit cell.text.toList width cell.align).map (·, cell.bold)) := by
  have clipped : (cell.text.toList.take width).map (·, cell.bold) =
      cell.weighed.take (min width cell.text.length) := by
    rw [List.map_take, ← Cell.weighed, ← length_weighed, ← List.take_eq_take_min]
  refine ⟨by rw [List.length_map, length_fit, Int.toNat_natCast], ?_⟩
  unfold fit
  simp only [Int.toNat_natCast]
  generalize width - (cell.text.toList.take width).length = room
  cases cell.align with
  | left =>
    refine ⟨0, room, ?_, rfl⟩
    rw [List.map_append, map_blanks, clipped]
    rfl
  | right =>
    refine ⟨room, 0, ?_, rfl⟩
    rw [List.map_append, map_blanks, clipped]
    exact (List.append_nil _).symm
  | center =>
    refine ⟨room / 2, room - room / 2, ?_, by omega, by omega⟩
    rw [List.map_append, List.map_append, map_blanks, map_blanks, clipped]

/-- The parts that a row in columns is printed in. -/
def columnSegments (cells : List (Cell α)) (counts : List Nat) : List Segment :=
  List.zipWith (fun cell (count : Nat) =>
    ⟨String.ofList (fit cell.text.toList count cell.align), cell.bold⟩) cells counts

theorem inColumns_columnSegments {cells : List (Cell α)} {counts : List Nat}
    (each : cells.length = counts.length) :
    InColumns cells counts (weighed (columnSegments cells counts)) := by
  induction cells generalizing counts with
  | nil =>
    obtain rfl := List.eq_nil_of_length_eq_zero each.symm
    exact ⟨rfl, nofun⟩
  | cons first cells ih =>
    obtain ⟨count, counts, rfl⟩ := List.exists_cons_of_length_eq_add_one each.symm
    obtain ⟨whole, later⟩ := ih (Nat.succ_inj.1 each)
    have own := inColumn_fit first count
    have front : weighed (columnSegments (first :: cells) (count :: counts)) =
        (fit first.text.toList count first.align).map (·, first.bold) ++
          weighed (columnSegments cells counts) := by
      rw [columnSegments, List.zipWith_cons_cons, weighed_cons, String.toList_ofList]
      rfl
    rw [front]
    refine ⟨by rw [List.length_append, own.length_eq, whole, List.sum_cons],
      fun i cell standing => ?_⟩
    cases i with
    | zero =>
      obtain rfl := Option.some.inj standing
      refine ⟨count, rfl, ?_⟩
      rw [List.take_zero, List.sum_nil, List.drop_zero, List.take_left' own.length_eq]
      exact own
    | succ i =>
      obtain ⟨width, known, column⟩ := later i cell standing
      refine ⟨width, known, ?_⟩
      have behind : (count :: counts).take (i + 1) = count :: counts.take i := rfl
      rw [behind, List.sum_cons, ← List.drop_drop, List.drop_left' own.length_eq]
      exact column

/-- A row in columns is printed in as many characters for each cell as its width counts. -/
theorem eq_columnSegments [Scalar α] {most : Nat} (counts : Scalar.Counts α most)
    {cells : List (Cell α)} {widths : List α} {numbers : List Nat} {made : List Segment}
    (stands : List.Forall₂ (fun width (number : Nat) => Scalar.Stands width number ∧ number ≤ most)
      widths numbers)
    (each : (cells.zip widths).mapM (fun (cell, width) => do
      let count ← (Scalar.truncate width : Except NumberFault Int)
      return (⟨String.ofList (fit cell.text.toList count cell.align), cell.bold⟩ : Segment)) =
        .ok made) : made = columnSegments cells numbers := by
  induction cells generalizing widths numbers made with
  | nil => exact (Outcome.pure_eq_ok_iff.1 each).symm
  | cons cell cells ih =>
    cases stands with
    | nil => exact (Outcome.pure_eq_ok_iff.1 each).symm
    | cons own others =>
      rw [List.zip_cons_cons, List.mapM_cons] at each
      obtain ⟨segment, first, each⟩ := Outcome.bind_eq_ok_iff.1 each
      obtain ⟨segments, later, each⟩ := Outcome.bind_eq_ok_iff.1 each
      obtain rfl := Outcome.pure_eq_ok_iff.1 each
      obtain ⟨count, cut, first⟩ := Outcome.bind_eq_ok_iff.1 first
      rw [counts.truncate own.1 own.2] at cut
      obtain rfl := Except.ok.inj cut
      obtain rfl := Outcome.pure_eq_ok_iff.1 first
      rw [ih others later]
      rfl

/-! ## The line of a row -/

/-- Which rows push their cells to the ends. -/
theorem ends?_eq_some_iff {justify : Value} {cells : List (Cell α)} {first second : Cell α} :
    ends? justify cells = some (first, second) ↔ cells = [first, second] ∧
      justify.isTextOf "space-between" = true ∧ ∀ cell ∈ cells, isWidth cell.width = false := by
  constructor
  · intro pushed
    obtain rfl := eq_of_ends? pushed
    have free : (justify.isTextOf "space-between" && !isWidth first.width &&
        !isWidth second.width) = true := by
      by_contra blocked
      rw [ends?, if_neg blocked] at pushed
      cases pushed
    rw [Bool.and_eq_true, Bool.and_eq_true, Bool.not_eq_true', Bool.not_eq_true'] at free
    exact ⟨rfl, free.1.1, by simp [free.1.2, free.2]⟩
  · rintro ⟨rfl, asked, unsized⟩
    simp [ends?, asked, unsized]

theorem spaceBetween_iff {justify : Value} {cells : List (Cell α)} {width : Nat} :
    SpaceBetween justify cells width ↔
      ∃ first second, ends? justify cells = some (first, second) ∧ textLength cells < width := by
  constructor
  · intro ⟨asked, two, unsized, room⟩
    obtain ⟨first, second, same⟩ := List.length_eq_two.1 two
    exact ⟨first, second, ends?_eq_some_iff.2 ⟨same, asked, unsized⟩, room⟩
  · intro ⟨first, second, pushed, room⟩
    obtain ⟨same, asked, unsized⟩ := ends?_eq_some_iff.1 pushed
    exact ⟨asked, by rw [same]; rfl, unsized, room⟩

theorem not_isCentered {justify : Value} (asked : justify.isTextOf "space-between" = true) :
    isCentered justify = false := by
  cases justify with
  | text content =>
    obtain rfl := eq_of_beq asked
    rfl
  | _ => cases asked

variable [Scalar α] {resolver : Resolver α} {justify : Value} {cells : List (Cell α)} {width : Nat}

theorem segments_of_spaceBetween (resolver : Resolver α)
    (spaced : SpaceBetween justify cells width) :
    ∃ first second, cells = [first, second] ∧ segments resolver cells width justify =
      .ok [⟨first.text, first.bold⟩, ⟨String.ofList (blanks (width - textLength cells)), false⟩,
        ⟨second.text, second.bold⟩] := by
  obtain ⟨first, second, pushed, room⟩ := spaceBetween_iff.1 spaced
  obtain rfl := eq_of_ends? pushed
  refine ⟨first, second, rfl, ?_⟩
  have used : textLength [first, second] = first.text.length + second.text.length := rfl
  have gap : ((width : Int) - (first.text.length + second.text.length)).toNat =
      width - (first.text.length + second.text.length) := by omega
  rw [used] at room ⊢
  unfold segments
  simp only [List.isEmpty_cons, Bool.false_eq_true, if_false, pushed]
  rw [if_pos (by omega), gap]

theorem segments_of_not_spaceBetween (filled : cells ≠ [])
    (spaced : ¬ SpaceBetween justify cells width) :
    segments resolver cells width justify =
      if isCentered justify then .ok (centered cells width) else columns resolver cells width := by
  unfold segments
  rw [List.isEmpty_eq_false_iff.2 filled]
  simp only [Bool.false_eq_true, if_false]
  cases pushed : ends? justify cells with
  | none => rfl
  | some both =>
    obtain ⟨first, second⟩ := both
    have full : ¬ textLength cells < width := fun room =>
      spaced (spaceBetween_iff.2 ⟨first, second, pushed, room⟩)
    obtain rfl := eq_of_ends? pushed
    have used : textLength [first, second] = first.text.length + second.text.length := rfl
    have asked := (spaceBetween_iff.2 ⟨first, second, pushed, Nat.lt_succ_self _⟩).asked
    rw [not_isCentered asked]
    simp only [Bool.false_eq_true, if_false]
    rw [if_neg (by omega)]

/-- The columns of a row stand for counts, which make up the line. -/
theorem inColumns_columns {most : Nat} (counts : Scalar.Counts α most)
    (printer : resolver.target = .cells) (within : width ≤ most) {made : List Segment}
    (laidOut : columns resolver cells width = .ok made) :
    ∃ total widths numbers, Scalar.ofInt width = .ok total ∧
      resolver.widths (cells.map (·.width)) total = .ok widths ∧
      List.Forall₂ (fun own (count : Nat) => Scalar.Stands own count) widths numbers ∧
      InColumns cells numbers (weighed made) ∧ numbers.sum ≤ width ∧
      ((∃ cell ∈ cells, resolver.width cell.width total = .ok none) → numbers.sum = width) := by
  obtain ⟨total, stands, laidOut⟩ := Outcome.bind_eq_ok_iff.1 laidOut
  obtain ⟨widths, shared, laidOut⟩ := Outcome.bind_eq_ok_iff.1 laidOut
  obtain ⟨own, exactOwn, exactWidths, resolved, each, same, shares⟩ :=
    Resolver.exists_shares counts printer within stands shared
  obtain ⟨numbers, rfl, stand⟩ := Counted.exists_nat same
  obtain rfl := eq_columnSegments counts stand laidOut
  have length : cells.length = numbers.length := by
    have all := (Outcome.mapM_eq_ok_iff.1 resolved).length_eq
    have given := shares.length_eq
    rw [List.length_map] at all given
    rw [all, each.length_eq, given]
  have total_le := shares.sum_le
  rw [← Nat.cast_list_sum] at total_le
  refine ⟨total, widths, numbers, stands, shared, stand.imp fun _ _ => And.left,
    inColumns_columnSegments length, Nat.cast_le.1 total_le, fun ⟨cell, member, free⟩ => ?_⟩
  have unsized := none_mem_of_rel each
    (Outcome.mem_of_mem_mapM resolved (List.mem_map_of_mem member) free)
  have whole := shares.sum_eq unsized
  rw [← Nat.cast_list_sum] at whole
  exact Nat.cast_inj.1 whole

/-- A row is laid out in one of three ways, whatever numbers it is measured in. -/
theorem laysOut_segments {most : Nat} (counts : Scalar.Counts α most)
    (printer : resolver.target = .cells) (filled : cells ≠ []) (within : width ≤ most)
    {made : List Segment} (laidOut : segments resolver cells width justify = .ok made) :
    LaysOut resolver justify cells width (weighed made) := by
  by_cases spaced : SpaceBetween justify cells width
  · obtain ⟨first, second, rfl, pushed⟩ := segments_of_spaceBetween resolver spaced
    obtain rfl := Except.ok.inj (pushed.symm.trans laidOut)
    have line : weighed [⟨first.text, first.bold⟩,
        ⟨String.ofList (blanks (width - textLength [first, second])), false⟩,
        ⟨second.text, second.bold⟩] = first.weighed ++
          weighedBlanks (width - textLength [first, second]) false ++ second.weighed := by
      rw [weighed_cons, weighed_cons, weighed_cons, weighed_nil, String.toList_ofList, map_blanks,
        List.append_nil, ← List.append_assoc]
      rfl
    have whole : (weighed [⟨first.text, first.bold⟩,
        ⟨String.ofList (blanks (width - textLength [first, second])), false⟩,
        ⟨second.text, second.bold⟩]).length = width := by
      have room := spaced.room
      have used : textLength [first, second] = first.text.length + second.text.length := rfl
      rw [line, List.length_append, List.length_append, length_weighed, length_weighed,
        weighedBlanks, List.length_replicate]
      omega
    exact ⟨whole.le, fun _ => ⟨first, second, rfl, line, whole⟩, absurd spaced, absurd spaced⟩
  · rw [segments_of_not_spaceBetween filled spaced] at laidOut
    cases middle : isCentered justify with
    | true =>
      rw [middle, if_pos rfl] at laidOut
      obtain rfl := Except.ok.inj laidOut
      have line := weighed_centered cells width
      refine ⟨?_, fun pushed => absurd pushed spaced, fun _ _ => ⟨_, ?_, line⟩, fun _ other => ?_⟩
      · rw [line, List.length_append, List.length_take, weighedBlanks, List.length_replicate]
        omega
      · omega
      · exact absurd (middle.symm.trans other) (by decide)
    | false =>
      rw [middle, if_neg (by decide)] at laidOut
      obtain ⟨total, widths, numbers, stands, shared, each, line, short, whole⟩ :=
        inColumns_columns counts printer within laidOut
      refine ⟨line.length_eq.trans_le short, fun pushed => absurd pushed spaced, fun _ other => ?_,
        fun _ _ => ⟨total, widths, numbers, stands, shared, each, line, fun free => ?_⟩⟩
      · exact absurd (middle.symm.trans other) (by decide)
      · exact line.length_eq.trans (whole free)

/-- A row is printed as `LaysOut` says, in exact numbers on lines of any width, and in binary
numbers as far as they count. -/
theorem laysOut_printed :
    (∀ {resolver : Resolver Rat} {cells : List (Cell Rat)} {width : Nat} {justify : Value}
      {made : List Segment}, resolver.target = .cells → cells ≠ [] →
      segments resolver cells width justify = .ok made →
      LaysOut resolver justify cells width (weighed made)) ∧
    ∀ {resolver : Resolver Float} {cells : List (Cell Float)} {width : Nat} {justify : Value}
      {made : List Segment}, resolver.target = .cells → cells ≠ [] → width < 2 ^ 53 →
      segments resolver cells width justify = .ok made →
      LaysOut resolver justify cells width (weighed made) :=
  ⟨fun {_ _ width _ _} printer filled => laysOut_segments (.exact width) printer filled le_rfl,
    fun printer filled few => laysOut_segments .binary printer filled (Nat.le_sub_one_of_lt few)⟩

theorem laysOut_printed_price :
    LaysOut (⟨.cells, .normal, 10⟩ : Resolver Rat) .null
        [⟨"Tea", .center, true, .null, 10⟩, ⟨"2.50", .right, false, .text "5", 10⟩] 11
        (weighed [⟨" Tea  ", true⟩, ⟨" 2.50", false⟩]) ∧
      LaysOut (⟨.cells, .normal, 10⟩ : Resolver Float) .null
        [⟨"Tea", .center, true, .null, 10⟩, ⟨"2.50", .right, false, .text "5", 10⟩] 11
        (weighed [⟨" Tea  ", true⟩, ⟨" 2.50", false⟩]) :=
  ⟨laysOut_printed.1 rfl (by decide) (by decide +kernel),
    laysOut_printed.2 rfl (by decide) (by decide) (by decide +kernel)⟩

end Row

end Receipt
