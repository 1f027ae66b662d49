import Receipt.Proofs.Wrap

/-!
# Wrapping keeps what prints

Wrapping a text moves, adds and drops blanks and nothing else. `withoutBlanks` is what is left of a
text without them, and every stage leaves it alone: cutting a text at its line ends, expanding tabs,
cutting it into chunks, and putting the chunks on lines, where blank chunks go at line ends and long
ones are cut. `withoutBlanks_wrapText` puts the stages together.
-/

namespace Receipt.Text

open Receipt.Character (isBlank isSpacing isLineEnd)

/-- The characters of a text that are no blanks, in order. -/
def withoutBlanks (text : List Char) : List Char := text.filter fun c => !isBlank c

theorem withoutBlanks_append (first second : List Char) :
    withoutBlanks (first ++ second) = withoutBlanks first ++ withoutBlanks second :=
  List.filter_append first second

theorem withoutBlanks_cons_of_blank {c : Char} (blank : isBlank c) (text : List Char) :
    withoutBlanks (c :: text) = withoutBlanks text :=
  List.filter_cons_of_neg (by simp [blank])

/-- What stands before a text does not matter to what it keeps. -/
theorem withoutBlanks_cons_congr (c : Char) {first second : List Char}
    (same : withoutBlanks first = withoutBlanks second) :
    withoutBlanks (c :: first) = withoutBlanks (c :: second) := by
  have split (text : List Char) :
      withoutBlanks (c :: text) = withoutBlanks [c] ++ withoutBlanks text :=
    withoutBlanks_append [c] text
  rw [split first, split second, same]

theorem withoutBlanks_of_isBlankText {text : List Char} (blank : isBlankText text) :
    withoutBlanks text = [] := by
  unfold isBlankText at blank
  apply List.filter_eq_nil_iff.2
  intro c member prints
  have own := List.all_eq_true.1 blank c member
  simp [own] at prints

theorem withoutBlanks_replicate {c : Char} (blank : isBlank c) (count : Nat) :
    withoutBlanks (List.replicate count c) = [] := by
  apply withoutBlanks_of_isBlankText
  unfold isBlankText
  apply List.all_eq_true.2
  intro d member
  rw [List.eq_of_mem_replicate member]
  exact blank

theorem withoutBlanks_flatten (pieces : List (List Char)) :
    withoutBlanks pieces.flatten = pieces.flatMap withoutBlanks := by
  induction pieces with
  | nil => rfl
  | cons piece pieces ih =>
    rw [List.flatten_cons, List.flatMap_cons, withoutBlanks_append, ih]

/-! ## Source lines -/

theorem isBlank_of_isLineEnd {c : Char} (ends : isLineEnd c) : isBlank c := by
  simp only [isLineEnd, isBlank, Character.isWhite, Bool.or_eq_true, Bool.and_eq_true,
    decide_eq_true_eq, beq_iff_eq] at ends ⊢
  omega

theorem isBlank_of_isSpacing {c : Char} (spacing : isSpacing c) : isBlank c := by
  simp only [isSpacing, isBlank, Character.isWhite, Bool.or_eq_true, Bool.and_eq_true,
    decide_eq_true_eq, beq_iff_eq] at spacing ⊢
  omega

theorem flatten_consFirst (c : Char) (pieces : List (List Char)) :
    (consFirst c pieces).flatten = c :: pieces.flatten := by
  cases pieces with
  | nil => rfl
  | cons piece pieces => rfl

/-- Cutting a text into lines drops line ends only. -/
theorem withoutBlanks_splitLines (text : List Char) :
    withoutBlanks (splitLines text).flatten = withoutBlanks text := by
  fun_induction splitLines text with
  | case1 => rfl
  | case2 rest ih =>
    rw [List.flatten_cons, List.nil_append, ih, withoutBlanks_cons_of_blank (by decide),
      withoutBlanks_cons_of_blank (by decide)]
  | case3 c rest _ ends ih =>
    rw [List.flatten_cons, List.nil_append, ih,
      withoutBlanks_cons_of_blank (isBlank_of_isLineEnd ends)]
  | case4 c rest _ _ ih =>
    rw [flatten_consFirst]
    exact withoutBlanks_cons_congr c ih

/-! ## Chunks -/

theorem withoutBlanks_expandTabs (column : Nat) (text : List Char) :
    withoutBlanks (expandTabs column text) = withoutBlanks text := by
  fun_induction expandTabs column text with
  | case1 => rfl
  | case2 column rest width ih =>
    rw [withoutBlanks_append, withoutBlanks_replicate (by decide), List.nil_append, ih,
      withoutBlanks_cons_of_blank (by decide)]
  | case3 column c rest _ _ ih => exact withoutBlanks_cons_congr c ih
  | case4 column c rest _ _ ih => exact withoutBlanks_cons_congr c ih

theorem withoutBlanks_levelSpacing (text : List Char) :
    withoutBlanks (levelSpacing text) = withoutBlanks text := by
  have spaced (text : List Char) :
      withoutBlanks (text.map fun c => if isSpacing c then ' ' else c) = withoutBlanks text := by
    induction text with
    | nil => rfl
    | cons c text ih =>
      rw [List.map_cons]
      by_cases spacing : isSpacing c
      · rw [if_pos spacing, withoutBlanks_cons_of_blank (by decide),
          withoutBlanks_cons_of_blank (isBlank_of_isSpacing spacing), ih]
      · rw [if_neg spacing]
        exact withoutBlanks_cons_congr c ih
  unfold levelSpacing
  rw [spaced, withoutBlanks_expandTabs]

theorem flatten_consChunk (c : Char) (chunks : List (List Char)) :
    (consChunk c chunks).flatten = c :: chunks.flatten := by
  unfold consChunk
  split
  · rfl
  · rfl
  · split <;> rfl

theorem flatten_chunksOf (text : List Char) : (chunksOf text).flatten = text := by
  induction text with
  | nil => rfl
  | cons c rest ih => rw [chunksOf, flatten_consChunk, ih]

/-! ## Lines -/

/-- A line and the chunks left behind it are the chunks before it. -/
theorem flatten_fillLine (width : Nat) (chunks : List (List Char)) :
    (fillLine width chunks).1.flatten ++ (fillLine width chunks).2.flatten = chunks.flatten := by
  have whole := congrArg List.flatten (takeFitting_append width chunks)
  rw [List.flatten_append] at whole
  unfold fillLine
  simp only
  split
  · rename_i chunk rest left
    split
    · rw [left] at whole
      simp only [List.flatten_append, List.flatten_cons, List.flatten_nil, List.append_nil,
        List.append_assoc] at whole ⊢
      rw [← List.append_assoc (chunk.take _), List.take_append_drop]
      exact whole
    · exact whole
  · rename_i left
    rw [left] at whole
    exact whole

theorem withoutBlanks_dropLeading (started : Bool) (chunks : List (List Char)) :
    withoutBlanks (dropLeading started chunks).flatten = withoutBlanks chunks.flatten := by
  cases chunks with
  | nil => rfl
  | cons chunk chunks =>
    simp only [dropLeading]
    split
    · rename_i dropped
      have blank : isBlankText chunk := by
        rw [Bool.and_eq_true] at dropped
        exact dropped.2
      rw [List.flatten_cons, withoutBlanks_append, withoutBlanks_of_isBlankText blank,
        List.nil_append]
    · rfl

theorem withoutBlanks_dropTrailing (line : List (List Char)) :
    withoutBlanks (dropTrailing line).flatten = withoutBlanks line.flatten := by
  unfold dropTrailing
  split
  · rename_i chunk last
    split
    · rename_i blank
      obtain ⟨before, whole⟩ := List.getLast?_eq_some_iff.1 last
      have pieces := congrArg (fun line => withoutBlanks line.flatten) whole
      simp only [List.flatten_append, List.flatten_cons, List.flatten_nil, List.append_nil,
        withoutBlanks_append, withoutBlanks_of_isBlankText blank] at pieces
      rw [pieces, whole, List.dropLast_concat]
    · rfl
  · rfl

/-- Lines keep what their chunks print. -/
theorem withoutBlanks_wrapChunks (width : Nat) (positive : 0 < width) (started : Bool)
    (chunks : List (List Char)) :
    withoutBlanks (wrapChunks width positive started chunks).flatten =
      withoutBlanks chunks.flatten := by
  -- What the first line and the chunks behind it print is what all the chunks do.
  have cut (started : Bool) {chunks rest : List (List Char)} {chunk : List Char}
      (left : dropLeading started chunks = chunk :: rest) :
      withoutBlanks (dropTrailing (fillLine width (chunk :: rest)).1).flatten ++
        withoutBlanks (fillLine width (chunk :: rest)).2.flatten =
          withoutBlanks chunks.flatten := by
    rw [withoutBlanks_dropTrailing, ← withoutBlanks_append, flatten_fillLine, ← left,
      withoutBlanks_dropLeading]
  induction started, chunks using wrapChunks.induct width positive with
  | case1 started chunks left =>
    rw [wrapChunks_of_nil left, ← withoutBlanks_dropLeading started chunks, left]
  | case2 started chunks chunk rest left filled current empty ih =>
    have nothing : (dropTrailing (fillLine width (chunk :: rest)).1) = [] :=
      List.isEmpty_iff.1 empty
    rw [wrapChunks_of_cons left, if_pos empty, ih, ← cut started left, nothing]
    rfl
  | case3 started chunks chunk rest left filled current full ih =>
    rw [wrapChunks_of_cons left, if_neg full, List.flatten_cons, withoutBlanks_append, ih]
    exact cut started left

theorem withoutBlanks_wrapLine (width : Nat) (positive : 0 < width) (line : List Char) :
    withoutBlanks (wrapLine width positive line).flatten = withoutBlanks line := by
  have lines := withoutBlanks_wrapChunks width positive false (chunksOf (levelSpacing line))
  rw [flatten_chunksOf, withoutBlanks_levelSpacing] at lines
  unfold wrapLine
  split
  · rename_i none
    rw [none] at lines
    exact lines
  · exact lines

theorem wrapLine_ne_nil (width : Nat) (positive : 0 < width) (line : List Char) :
    wrapLine width positive line ≠ [] := by
  unfold wrapLine
  split
  · exact List.cons_ne_nil _ _
  · rename_i some
    exact some

/-! ## Texts -/

/-- The source lines of a text; an empty text has one. -/
theorem wrapText_eq (text : String) (columns : Int) :
    ∃ lines width, ∃ positive : 0 < width, lines ≠ [] ∧
      withoutBlanks lines.flatten = withoutBlanks text.toList ∧
      wrapText text columns = (lines.flatMap (wrapLine width positive)).map String.ofList := by
  have kept := withoutBlanks_splitLines text.toList
  have positive : 0 < max 1 columns.toNat := by omega
  unfold wrapText
  cases cut : splitLines text.toList with
  | nil =>
    rw [cut] at kept
    exact ⟨[[]], _, positive, List.cons_ne_nil _ _, kept, rfl⟩
  | cons line lines =>
    rw [cut] at kept
    exact ⟨line :: lines, _, positive, List.cons_ne_nil _ _, kept, rfl⟩

/-- The lines of a text print what the text does, in order. -/
theorem withoutBlanks_wrapText (text : String) (columns : Int) :
    (wrapText text columns).flatMap (fun line => withoutBlanks line.toList) =
      withoutBlanks text.toList := by
  obtain ⟨lines, width, positive, _, kept, wrapped⟩ := wrapText_eq text columns
  have each (lines : List (List Char)) :
      withoutBlanks (lines.flatMap (wrapLine width positive)).flatten =
        withoutBlanks lines.flatten := by
    induction lines with
    | nil => rfl
    | cons line lines ih =>
      rw [List.flatMap_cons, List.flatten_append, withoutBlanks_append, ih,
        withoutBlanks_wrapLine, List.flatten_cons, withoutBlanks_append]
  rw [wrapped, List.flatMap_map, ← kept, ← each, withoutBlanks_flatten]
  simp only [String.toList_ofList]

theorem wrapText_ne_nil (text : String) (columns : Int) : wrapText text columns ≠ [] := by
  obtain ⟨lines, width, positive, some, _, wrapped⟩ := wrapText_eq text columns
  obtain ⟨line, lines, rfl⟩ := List.exists_cons_of_ne_nil some
  rw [wrapped, List.flatMap_cons]
  simp [wrapLine_ne_nil]

end Receipt.Text
