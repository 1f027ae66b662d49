import Receipt.Proofs.Sharing

/-!
# A row stays on its line

Whichever of the three ways a row is laid out, its parts together have no more characters than the
line, and none of them has a line feed (`Row.fits_segments`). A part is blank, or a piece of a cell
(`Row.stems_segments`); one that shows something is as bold as the cell (`Row.ofCell_segments`).
-/

namespace Receipt

namespace Segment

variable {α : Type}

/-- A part of a row that shows something has the weight of a cell. -/
def OfCell (cells : List (Cell α)) (segment : Segment) : Prop :=
  ¬ Text.isBlankText segment.text.toList → ∃ cell ∈ cells, segment.bold = cell.bold

/-- A part of a row is blank, or a piece of a cell, filled up with spaces and as bold as the cell. -/
inductive Stems (cells : List (Cell α)) : Segment → Prop
  | blank (count : Nat) : Stems cells ⟨String.ofList (Row.blanks count), false⟩
  | piece {cell : Cell α} {text : String} (member : cell ∈ cells)
      (made : ∀ c ∈ text.toList, c = ' ' ∨ c ∈ cell.text.toList) : Stems cells ⟨text, cell.bold⟩

namespace Stems

variable {cells : List (Cell α)} {segment : Segment}

theorem ofCell (stems : segment.Stems cells) : segment.OfCell cells := by
  intro shows
  cases stems with
  | piece member made => exact ⟨_, member, rfl⟩
  | blank count =>
    refine absurd ?_ shows
    rw [String.toList_ofList]
    refine List.all_eq_true.2 fun c member => ?_
    rw [List.eq_of_mem_replicate member]
    rfl

theorem mem {c : Char} (stems : segment.Stems cells) (inside : c ∈ segment.text.toList) :
    c = ' ' ∨ ∃ cell ∈ cells, c ∈ cell.text.toList := by
  cases stems with
  | blank count =>
    rw [String.toList_ofList] at inside
    exact Or.inl (List.eq_of_mem_replicate inside)
  | piece member made => exact (made c inside).imp_right fun own => ⟨_, member, own⟩

end Stems

end Segment

namespace Row

/-- The characters of the parts of a row, together. -/
def lineLength : List Segment → Nat
  | [] => 0
  | segment :: segments => segment.text.toList.length + lineLength segments

/-- Parts that stay on a line of this many characters. -/
structure Fits (segments : List Segment) (width : Int) : Prop where
  short : (lineLength segments : Int) ≤ width
  printing : ∀ segment ∈ segments, '\n' ∉ segment.text.toList

theorem lineFeed_not_mem_blanks (count : Nat) : '\n' ∉ blanks count := by
  intro member
  exact absurd (List.eq_of_mem_replicate member) (by decide)

theorem length_blanks (count : Nat) : (blanks count).length = count := List.length_replicate

/-- A cell that is cut or filled up has the width asked for. -/
theorem length_fit (text : List Char) (width : Int) (align : Alignment) :
    (fit text width align).length = width.toNat := by
  have clipped : (text.take width.toNat).length ≤ width.toNat := List.length_take_le ..
  unfold fit
  cases align with
  | left =>
    simp only [List.length_append, length_blanks]
    omega
  | right =>
    simp only [List.length_append, length_blanks]
    omega
  | center =>
    simp only [List.length_append, length_blanks]
    omega

theorem mem_of_mem_fit {c : Char} {text : List Char} {width : Int} {align : Alignment}
    (member : c ∈ fit text width align) : c = ' ' ∨ c ∈ text := by
  have blank {count : Nat} (inside : c ∈ blanks count) : c = ' ' := List.eq_of_mem_replicate inside
  unfold fit at member
  cases align with
  | left =>
    rcases List.mem_append.1 member with piece | fill
    · exact Or.inr (List.mem_of_mem_take piece)
    · exact Or.inl (blank fill)
  | right =>
    rcases List.mem_append.1 member with fill | piece
    · exact Or.inl (blank fill)
    · exact Or.inr (List.mem_of_mem_take piece)
  | center =>
    rcases List.mem_append.1 member with member | fill
    · rcases List.mem_append.1 member with fill | piece
      · exact Or.inl (blank fill)
      · exact Or.inr (List.mem_of_mem_take piece)
    · exact Or.inl (blank fill)

theorem lineFeed_not_mem_fit {text : List Char} (printing : '\n' ∉ text) (width : Int)
    (align : Alignment) : '\n' ∉ fit text width align := fun member =>
  (mem_of_mem_fit member).elim (fun same => absurd same (by decide)) printing

variable {α : Type}

/-- A row that is pushed to its ends has exactly the two cells. -/
theorem eq_of_ends? {justify : Value} {cells : List (Cell α)} {first second : Cell α}
    (pushed : ends? justify cells = some (first, second)) : cells = [first, second] := by
  unfold ends? at pushed
  split at pushed
  · split at pushed
    · obtain ⟨rfl, rfl⟩ := Prod.mk.inj (Option.some.inj pushed)
      rfl
    · cases pushed
  · cases pushed

/-! ## Cells centred together -/

theorem lineLength_clipInTurn (room : Nat) (cells : List (Cell α)) :
    lineLength (clipInTurn room cells) ≤ room := by
  induction cells generalizing room with
  | nil => exact Nat.zero_le _
  | cons cell cells ih =>
    unfold clipInTurn
    split
    · exact Nat.zero_le _
    · have rest := ih (room - (cell.text.toList.take room).length)
      have piece : (cell.text.toList.take room).length ≤ room := List.length_take_le ..
      simp only [lineLength, String.toList_ofList]
      omega

theorem printing_clipInTurn {room : Nat} {cells : List (Cell α)}
    (printing : ∀ cell ∈ cells, '\n' ∉ cell.text.toList) :
    ∀ segment ∈ clipInTurn room cells, '\n' ∉ segment.text.toList := by
  induction cells generalizing room with
  | nil =>
    intro segment member
    cases member
  | cons cell cells ih =>
    intro segment member
    unfold clipInTurn at member
    split at member
    · cases member
    · rcases List.mem_cons.1 member with rfl | later
      · rw [String.toList_ofList]
        exact fun feed => printing cell (List.mem_cons_self ..) (List.mem_of_mem_take feed)
      · exact ih (fun cell inside => printing cell (List.mem_cons_of_mem _ inside)) segment later

theorem fits_centered {cells : List (Cell α)} {width : Int} (nonneg : 0 ≤ width)
    (printing : ∀ cell ∈ cells, '\n' ∉ cell.text.toList) : Fits (centered cells width) width := by
  have rest := lineLength_clipInTurn (width - ((width - textLength cells) / 2).toNat).toNat cells
  have lead : (((width - textLength cells) / 2).toNat : Int) ≤ width := by omega
  unfold centered
  simp only
  split
  · exact ⟨by omega, printing_clipInTurn printing⟩
  · refine ⟨?_, fun segment member => ?_⟩
    · simp only [lineLength, String.toList_ofList, length_blanks]
      omega
    · rcases List.mem_cons.1 member with rfl | later
      · rw [String.toList_ofList]
        exact lineFeed_not_mem_blanks _
      · exact printing_clipInTurn printing segment later

/-! ## Cells in columns -/

/-- Columns take no more characters than their widths together. -/
theorem fits_columnSegments {columns : List (Cell Rat × Rat)} {made : List Segment}
    (each : columns.mapM (fun (cell, width) => do
      let count ← (Scalar.truncate width : Except NumberFault Int)
      return (⟨String.ofList (fit cell.text.toList count cell.align), cell.bold⟩ : Segment)) =
        .ok made)
    (nonneg : ∀ column ∈ columns, 0 ≤ column.2)
    (printing : ∀ column ∈ columns, '\n' ∉ column.1.text.toList) :
    (lineLength made : Rat) ≤ (columns.map (·.2)).sum ∧
      ∀ segment ∈ made, '\n' ∉ segment.text.toList := by
  induction Outcome.mapM_eq_ok_iff.1 each with
  | nil => exact ⟨by simp [lineLength], fun segment member => by cases member⟩
  | cons own rest ih =>
    rename_i column segment columns made
    obtain ⟨cell, width⟩ := column
    obtain ⟨short, plain⟩ := ih (Outcome.mapM_eq_ok_iff.2 rest)
      (fun column inside => nonneg column (List.mem_cons_of_mem _ inside))
      (fun column inside => printing column (List.mem_cons_of_mem _ inside))
    have positive : 0 ≤ width := nonneg _ (List.mem_cons_self ..)
    obtain ⟨count, cut, own⟩ := Outcome.bind_eq_ok_iff.1 own
    rw [Scalar.truncate_rat positive] at cut
    obtain rfl := Except.ok.inj cut
    obtain rfl := Outcome.pure_eq_ok_iff.1 own
    have whole : 0 ≤ width.floor := Rat.le_floor_iff.2 (by simpa using positive)
    refine ⟨?_, fun segment member => ?_⟩
    · have cast : ((width.floor.toNat : Nat) : Rat) = (width.floor : Int) := by
        exact_mod_cast congrArg (fun i : Int => (i : Rat)) (Int.toNat_of_nonneg whole)
      simp only [lineLength, String.toList_ofList, length_fit, List.map_cons, List.sum_cons]
      push_cast
      rw [cast]
      have below := Rat.floor_le width
      linarith
    · rcases List.mem_cons.1 member with rfl | later
      · rw [String.toList_ofList]
        exact lineFeed_not_mem_fit (printing _ (List.mem_cons_self ..)) _ _
      · exact plain segment later

/-- There is no column for a width without a cell. -/
theorem zip_sublist (cells : List (Cell α)) (widths : List Rat) :
    ((cells.zip widths).map (·.2)).Sublist widths := by
  induction cells generalizing widths with
  | nil => exact List.nil_sublist _
  | cons cell cells ih =>
    cases widths with
    | nil => exact List.nil_sublist _
    | cons width widths => exact (ih widths).cons_cons width

theorem fits_columns {resolver : Resolver Rat} {cells : List (Cell Rat)} {width : Int}
    (nonneg : 0 ≤ width) (printing : ∀ cell ∈ cells, '\n' ∉ cell.text.toList) {made : List Segment}
    (laidOut : columns resolver cells width = .ok made) : Fits made width := by
  unfold columns at laidOut
  obtain ⟨total, whole, laidOut⟩ := Outcome.bind_eq_ok_iff.1 laidOut
  obtain rfl := Except.ok.inj whole
  obtain ⟨widths, shared, laidOut⟩ := Outcome.bind_eq_ok_iff.1 laidOut
  obtain ⟨own, _, shares⟩ := Resolver.shares_widths (Int.cast_nonneg nonneg)
    (fun _ => Whole.of_int nonneg) shared
  obtain ⟨short, plain⟩ := fits_columnSegments laidOut
    (fun column inside => shares.nonneg _ (List.of_mem_zip inside).2)
    (fun column inside => printing _ (List.of_mem_zip inside).1)
  have zipped : ((cells.zip widths).map (·.2)).sum ≤ widths.sum :=
    (zip_sublist cells widths).sum_le_sum shares.nonneg
  refine ⟨?_, plain⟩
  exact_mod_cast short.trans (zipped.trans shares.sum_le)

/-- A row laid out in whichever way stays on its line. -/
theorem fits_segments {resolver : Resolver Rat} {cells : List (Cell Rat)} {width : Int}
    (nonneg : 0 ≤ width) {justify : Value}
    (printing : ∀ cell ∈ cells, '\n' ∉ cell.text.toList) {made : List Segment}
    (laidOut : segments resolver cells width justify = .ok made) : Fits made width := by
  unfold segments at laidOut
  split at laidOut
  · obtain rfl := Except.ok.inj laidOut
    exact ⟨nonneg, fun segment member => by cases member⟩
  · split at laidOut
    · rename_i first second pushed
      simp only at laidOut
      split at laidOut
      · obtain rfl := Except.ok.inj laidOut
        obtain rfl := eq_of_ends? pushed
        refine ⟨?_, fun segment member => ?_⟩
        · simp only [lineLength, String.toList_ofList, length_blanks, String.length_toList]
          omega
        · simp only [List.mem_cons, List.not_mem_nil, or_false] at member
          rcases member with rfl | rfl | rfl
          · exact printing first (by simp)
          · rw [String.toList_ofList]
            exact lineFeed_not_mem_blanks _
          · exact printing second (by simp)
      · exact fits_columns nonneg printing laidOut
    · split at laidOut
      · obtain rfl := Except.ok.inj laidOut
        exact fits_centered nonneg printing
      · exact fits_columns nonneg printing laidOut

/-! ## Parts and cells -/

section Parts

open Segment

theorem stems_clipInTurn {all cells : List (Cell α)} (inside : ∀ cell ∈ cells, cell ∈ all)
    (room : Nat) : ∀ segment ∈ clipInTurn room cells, segment.Stems all := by
  induction cells generalizing room with
  | nil =>
    intro segment member
    cases member
  | cons cell cells ih =>
    intro segment member
    unfold clipInTurn at member
    split at member
    · cases member
    · rcases List.mem_cons.1 member with rfl | later
      · refine .piece (inside cell (List.mem_cons_self ..)) fun c own => ?_
        rw [String.toList_ofList] at own
        exact Or.inr (List.mem_of_mem_take own)
      · exact ih (fun other within => inside other (List.mem_cons_of_mem _ within)) _ segment later

theorem stems_columns [Scalar α] {resolver : Resolver α} {cells : List (Cell α)} {width : Int}
    {made : List Segment} (laidOut : columns resolver cells width = .ok made) :
    ∀ segment ∈ made, segment.Stems cells := by
  intro segment member
  obtain ⟨total, _, laidOut⟩ := Outcome.bind_eq_ok_iff.1 laidOut
  obtain ⟨widths, _, laidOut⟩ := Outcome.bind_eq_ok_iff.1 laidOut
  obtain ⟨⟨cell, width⟩, inside, own⟩ := Outcome.exists_of_mem_mapM laidOut member
  obtain ⟨count, _, own⟩ := Outcome.bind_eq_ok_iff.1 own
  obtain rfl := Outcome.pure_eq_ok_iff.1 own
  refine .piece (List.of_mem_zip inside).1 fun c among => ?_
  rw [String.toList_ofList] at among
  exact mem_of_mem_fit among

/-- Whichever way a row is laid out, its parts are blank or pieces of its cells. -/
theorem stems_segments [Scalar α] {resolver : Resolver α} {cells : List (Cell α)} {width : Int}
    {justify : Value} {made : List Segment}
    (laidOut : segments resolver cells width justify = .ok made) :
    ∀ segment ∈ made, segment.Stems cells := by
  unfold segments at laidOut
  split at laidOut
  · obtain rfl := Except.ok.inj laidOut
    intro segment member
    cases member
  · split at laidOut
    · rename_i first second pushed
      obtain rfl := eq_of_ends? pushed
      simp only at laidOut
      split at laidOut
      · obtain rfl := Except.ok.inj laidOut
        intro segment member
        simp only [List.mem_cons, List.not_mem_nil, or_false] at member
        rcases member with rfl | rfl | rfl
        · exact .piece (List.mem_cons_self ..) fun c => Or.inr
        · exact .blank _
        · exact .piece (List.mem_cons_of_mem _ (List.mem_cons_self ..)) fun c => Or.inr
      · exact stems_columns laidOut
    · split at laidOut
      · obtain rfl := Except.ok.inj laidOut
        have rest := stems_clipInTurn (fun cell (member : cell ∈ cells) => member)
        unfold centered
        simp only
        split
        · exact rest _
        · intro segment member
          rcases List.mem_cons.1 member with rfl | later
          · exact .blank _
          · exact rest _ segment later
      · exact stems_columns laidOut

theorem ofCell_segments [Scalar α] {resolver : Resolver α} {cells : List (Cell α)} {width : Int}
    {justify : Value} {made : List Segment}
    (laidOut : segments resolver cells width justify = .ok made) :
    ∀ segment ∈ made, segment.OfCell cells :=
  fun segment member => (stems_segments laidOut segment member).ofCell

end Parts

end Row

end Receipt
