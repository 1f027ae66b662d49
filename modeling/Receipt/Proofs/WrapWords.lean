import Mathlib.Data.List.Forall2
import Receipt.Proofs.WrapContent

/-!
# Wrapping keeps words whole

Each line of a text is wrapped on its own, to a block of lines. A word is a longest run of characters
that wrapping does not take for spaces; one that prints something is a chunk of its own
(`chunksOf_word`), and a chunk that fits on a line is put on one as it is (`unbroken_wrapChunks`).

`Block` is what the block of a line has to be, and `blocks_wrapText` says that it is: short lines, one
empty line for a line of spaces and tabs, the characters that print in their order, and every word
that fits in one piece, behind as much as stands in front of it.
-/

namespace Receipt.Text

open Receipt.Character (isBlank isSpacing)

/-! ## Chunks -/

theorem exists_chunksOf_cons (c : Char) (text : List Char) :
    ∃ chunk chunks, chunksOf (c :: text) = (c :: chunk) :: chunks := by
  rw [chunksOf]
  unfold consChunk
  split
  · exact ⟨[], _, rfl⟩
  · exact ⟨[], _, rfl⟩
  · split
    · exact ⟨_, _, rfl⟩
    · exact ⟨[], _, rfl⟩

/-- Texts are cut into chunks apart when a chunk ends between them. -/
theorem chunksOf_append {first second : List Char}
    (apart : ∀ c ∈ first.getLast?, ∀ d ∈ second.head?, (c == ' ') ≠ (d == ' ')) :
    chunksOf (first ++ second) = chunksOf first ++ chunksOf second := by
  induction first with
  | nil => rfl
  | cons c first ih =>
    rw [List.cons_append, chunksOf]
    cases first with
    | nil =>
      cases second with
      | nil => rfl
      | cons d second =>
        obtain ⟨chunk, chunks, known⟩ := exists_chunksOf_cons d second
        have differ := apart c rfl d rfl
        rw [List.nil_append, known, consChunk, if_neg (by simpa using differ)]
        rfl
    | cons d first =>
      obtain ⟨chunk, chunks, known⟩ := exists_chunksOf_cons d first
      have joined := ih (by simpa using apart)
      have alone : chunksOf (c :: d :: first) = consChunk c (chunksOf (d :: first)) := rfl
      rw [alone, joined, known]
      simp only [consChunk, List.cons_append]
      split <;> rfl

/-- A text without a boundary in it is one chunk. -/
theorem chunksOf_uniform {kind : Bool} {text : List Char} (filled : text ≠ [])
    (uniform : ∀ c ∈ text, (c == ' ') = kind) : chunksOf text = [text] := by
  induction text with
  | nil => exact absurd rfl filled
  | cons c text ih =>
    cases text with
    | nil => rfl
    | cons d text =>
      obtain ⟨own, others⟩ := List.forall_mem_cons.1 uniform
      have same : (c == ' ') == (d == ' ') := by
        rw [own, others d (List.mem_cons_self ..)]
        exact beq_self_eq_true kind
      rw [chunksOf, ih (List.cons_ne_nil d text) others, consChunk, if_pos same]

/-! ## Spacing -/

/-- Tabs expanded from a column on, and every spacing character turned into a space. -/
def levelFrom (column : Nat) (text : List Char) : List Char :=
  (expandTabs column text).map fun c => if isSpacing c then ' ' else c

theorem levelFrom_append (column : Nat) (first second : List Char) :
    ∃ next, levelFrom column (first ++ second) = levelFrom column first ++ levelFrom next second := by
  suffices expanded : ∃ next, expandTabs column (first ++ second) =
      expandTabs column first ++ expandTabs next second by
    obtain ⟨next, same⟩ := expanded
    exact ⟨next, by rw [levelFrom, same, List.map_append]; rfl⟩
  fun_induction expandTabs column first with
  | case1 => exact ⟨_, rfl⟩
  | case2 column rest width ih =>
    obtain ⟨next, same⟩ := ih
    exact ⟨next, by rw [List.cons_append, expandTabs, same, List.append_assoc]⟩
  | case3 column c rest noTab ends ih =>
    obtain ⟨next, same⟩ := ih
    refine ⟨next, ?_⟩
    rw [List.cons_append, expandTabs, if_pos ends, same, List.cons_append]
    exact noTab
  | case4 column c rest noTab ends ih =>
    obtain ⟨next, same⟩ := ih
    refine ⟨next, ?_⟩
    rw [List.cons_append, expandTabs, if_neg ends, same, List.cons_append]
    exact noTab

/-- A spacing character becomes one space or several. -/
theorem levelFrom_spacing {c : Char} (spacing : isSpacing c) (column : Nat) :
    ∃ count, levelFrom column [c] = List.replicate (count + 1) ' ' := by
  by_cases tab : c = '\t'
  · subst tab
    refine ⟨7 - column % 8, ?_⟩
    have width : 8 - column % 8 = 7 - column % 8 + 1 := by omega
    rw [levelFrom, expandTabs, expandTabs, List.append_nil, List.map_replicate, width]
    rfl
  · refine ⟨0, ?_⟩
    have single : expandTabs column [c] = [c] := by
      rw [expandTabs]
      · split <;> rfl
      · exact tab
    rw [levelFrom, single, List.map_singleton, if_pos spacing]
    rfl

theorem levelFrom_unspaced {text : List Char} (unspaced : ∀ c ∈ text, isSpacing c = false)
    (column : Nat) : levelFrom column text = text := by
  induction text generalizing column with
  | nil => rfl
  | cons c text ih =>
    obtain ⟨own, others⟩ := List.forall_mem_cons.1 unspaced
    have plain : ¬ (c = '\n' ∨ c = '\r') := by
      rintro (rfl | rfl) <;> exact absurd own (by decide)
    have later := ih others (column + 1)
    unfold levelFrom at later ⊢
    rw [expandTabs, if_neg plain, List.map_cons, later, own]
    · rfl
    · rintro rfl
      exact absurd own (by decide)

/-! ## Words -/

/-- A word of a line: a longest run of characters that wrapping does not take for spaces, of which at
least one prints. -/
structure WordAt (line before word behind : List Char) : Prop where
  whole : line = before ++ word ++ behind
  unspaced : ∀ c ∈ word, isSpacing c = false
  endsBefore : ∀ c ∈ before.getLast?, isSpacing c
  startsBehind : ∀ c ∈ behind.head?, isSpacing c
  prints : ∃ c ∈ word, isBlank c = false

/-- Spacing levels to text that ends in a space when it ends in spacing. -/
theorem getLast?_levelFrom {text : List Char} (spaced : ∀ c ∈ text.getLast?, isSpacing c)
    (column : Nat) : ∀ c ∈ (levelFrom column text).getLast?, c = ' ' := by
  rcases List.eq_nil_or_concat' text with rfl | ⟨front, last, rfl⟩
  · rintro c ⟨⟩
  · obtain ⟨next, parts⟩ := levelFrom_append column front [last]
    obtain ⟨count, spaces⟩ := levelFrom_spacing (spaced last (by simp)) next
    intro c final
    rw [parts, spaces, List.replicate_succ', ← List.append_assoc, List.getLast?_concat] at final
    exact (Option.some.inj final).symm

/-- Spacing levels to text that begins with a space when it begins with spacing. -/
theorem head?_levelFrom {text : List Char} (spaced : ∀ c ∈ text.head?, isSpacing c)
    (column : Nat) : ∀ c ∈ (levelFrom column text).head?, c = ' ' := by
  cases text with
  | nil => rintro c ⟨⟩
  | cons first rest =>
    obtain ⟨next, parts⟩ := levelFrom_append column [first] rest
    obtain ⟨count, spaces⟩ := levelFrom_spacing (spaced first rfl) column
    intro c final
    rw [List.singleton_append, spaces] at parts
    rw [parts] at final
    exact (Option.some.inj final).symm

/-- A word is a chunk of its own. -/
theorem chunksOf_word {line before word behind : List Char} (at_ : WordAt line before word behind) :
    ∃ ahead left, chunksOf (levelSpacing line) = ahead ++ word :: left ∧
      withoutBlanks ahead.flatten = withoutBlanks before := by
  obtain ⟨start, parts⟩ := levelFrom_append 0 (before ++ word) behind
  obtain ⟨middle, opening⟩ := levelFrom_append 0 before word
  rw [← at_.whole, opening, levelFrom_unspaced at_.unspaced, List.append_assoc] at parts
  have solid (c : Char) (inside : c ∈ word) : (c == ' ') = false := by
    rw [beq_eq_false_iff_ne]
    rintro rfl
    exact absurd (at_.unspaced ' ' inside) (by decide)
  have filled : word ≠ [] := by
    obtain ⟨c, inside, _⟩ := at_.prints
    exact List.ne_nil_of_mem inside
  -- Spaces stand on both sides of the word, and none in it.
  have first : ∀ c ∈ (levelFrom 0 before).getLast?,
      ∀ d ∈ (word ++ levelFrom start behind).head?, (c == ' ') ≠ (d == ' ') := by
    intro c last d head
    have space := getLast?_levelFrom at_.endsBefore 0 c last
    obtain ⟨e, word, rfl⟩ := List.exists_cons_of_ne_nil filled
    obtain rfl : e = d := Option.some.inj head
    rw [space, solid e (List.mem_cons_self ..)]
    decide
  have second : ∀ c ∈ word.getLast?,
      ∀ d ∈ (levelFrom start behind).head?, (c == ' ') ≠ (d == ' ') := by
    intro c last d head
    rw [head?_levelFrom at_.startsBehind start d head, solid c (List.mem_of_mem_getLast? last)]
    decide
  refine ⟨chunksOf (levelFrom 0 before), chunksOf (levelFrom start behind), ?_, ?_⟩
  · have level : levelSpacing line = levelFrom 0 line := rfl
    rw [level, parts, chunksOf_append first, chunksOf_append second, chunksOf_uniform filled solid]
    rfl
  · rw [flatten_chunksOf]
    exact withoutBlanks_levelSpacing before

/-! ## Lines -/

/-- A chunk that fits on a line is put on the line or left for the next ones, and is not cut. -/
theorem fillLine_whole {width : Nat} {ahead behind : List (List Char)} {word : List Char}
    (short : word.length ≤ width) :
    (∃ taken, (fillLine width (ahead ++ word :: behind)).1 = ahead ++ word :: taken) ∨
      ∃ left, (fillLine width (ahead ++ word :: behind)).2 = left ++ word :: behind := by
  have parts := takeFitting_append width (ahead ++ word :: behind)
  have fits : ¬ width < word.length := Nat.not_lt.2 short
  unfold fillLine
  simp only
  rcases List.append_eq_append_iff.1 parts with ⟨more, _, left⟩ | ⟨more, taken, left⟩
  · refine Or.inr ?_
    rw [left]
    cases more with
    | nil =>
      simp only [List.nil_append, if_neg fits]
      exact ⟨[], rfl⟩
    | cons chunk more =>
      simp only [List.cons_append]
      split
      · exact ⟨_ :: more, rfl⟩
      · exact ⟨chunk :: more, rfl⟩
  · cases more with
    | nil =>
      rw [← List.nil_append (takeFitting width _).2, ← left]
      simp only [if_neg fits]
      exact Or.inr ⟨[], rfl⟩
    | cons chunk more =>
      obtain ⟨rfl, _⟩ := List.cons.inj left
      refine Or.inl ?_
      rw [taken]
      split
      · split
        · exact ⟨more ++ [_], by rw [List.append_assoc, List.cons_append]⟩
        · exact ⟨more, rfl⟩
      · exact ⟨more, rfl⟩

theorem dropLeading_word {word : List Char} (prints : isBlankText word = false) (started : Bool)
    (ahead behind : List (List Char)) :
    ∃ kept, dropLeading started (ahead ++ word :: behind) = kept ++ word :: behind := by
  cases ahead with
  | nil => exact ⟨[], by simp [dropLeading, prints]⟩
  | cons chunk ahead =>
    simp only [List.cons_append, dropLeading]
    split
    · exact ⟨ahead, rfl⟩
    · exact ⟨chunk :: ahead, rfl⟩

theorem dropTrailing_word {word : List Char} (prints : isBlankText word = false)
    (ahead taken : List (List Char)) :
    ∃ kept, dropTrailing (ahead ++ word :: taken) = ahead ++ word :: kept := by
  rcases List.eq_nil_or_concat' taken with rfl | ⟨front, last, rfl⟩
  · exact ⟨[], by simp [dropTrailing, prints]⟩
  · have line : ahead ++ word :: (front ++ [last]) = (ahead ++ word :: front) ++ [last] := by simp
    rw [line, dropTrailing, List.getLast?_concat]
    simp only [List.dropLast_concat]
    split
    · exact ⟨front, rfl⟩
    · exact ⟨front ++ [last], by simp⟩

/-- What one line does with the chunks before a word: the word is put on it behind all of them, or the
word and what is left of them stay for the next lines. -/
theorem fillLine_word {width : Nat} {word chunk : List Char} {ahead behind rest : List (List Char)}
    {started : Bool} (short : word.length ≤ width) (prints : isBlankText word = false)
    (left : dropLeading started (ahead ++ word :: behind) = chunk :: rest) :
    (∃ before after, dropTrailing (fillLine width (chunk :: rest)).1 = before ++ word :: after ∧
      withoutBlanks before.flatten = withoutBlanks ahead.flatten) ∨
    ∃ later, (fillLine width (chunk :: rest)).2 = later ++ word :: behind ∧
      withoutBlanks (dropTrailing (fillLine width (chunk :: rest)).1).flatten ++
        withoutBlanks later.flatten = withoutBlanks ahead.flatten := by
  obtain ⟨kept, same⟩ := dropLeading_word prints started ahead behind
  have equal : withoutBlanks kept.flatten = withoutBlanks ahead.flatten := by
    have whole := withoutBlanks_dropLeading started (ahead ++ word :: behind)
    rw [same, List.flatten_append, List.flatten_append, withoutBlanks_append,
      withoutBlanks_append] at whole
    exact List.append_cancel_right whole
  rw [← left, same]
  rcases fillLine_whole short with ⟨taken, put⟩ | ⟨later, put⟩
  · obtain ⟨after, shown⟩ := dropTrailing_word prints kept taken
    exact Or.inl ⟨kept, after, by rw [put, shown], equal⟩
  · have whole := flatten_fillLine width (kept ++ word :: behind)
    rw [put, List.flatten_append, List.flatten_append, ← List.append_assoc] at whole
    refine Or.inr ⟨later, put, ?_⟩
    rw [withoutBlanks_dropTrailing, ← withoutBlanks_append, List.append_cancel_right whole, equal]

/-- A chunk that fits on a line and prints stands on one line, behind what stands before it. -/
theorem unbroken_wrapChunks {width : Nat} (positive : 0 < width) {word : List Char}
    (short : word.length ≤ width) (prints : isBlankText word = false) (started : Bool)
    (ahead behind : List (List Char)) :
    ∃ above start rest below,
      wrapChunks width positive started (ahead ++ word :: behind) =
        above ++ (start ++ word ++ rest) :: below ∧
      withoutBlanks (above.flatten ++ start) = withoutBlanks ahead.flatten := by
  generalize whole : ahead ++ word :: behind = chunks
  induction started, chunks using wrapChunks.induct width positive generalizing ahead with
  | case1 started chunks left =>
    obtain ⟨kept, stays⟩ := dropLeading_word prints started ahead behind
    rw [whole, left] at stays
    simp at stays
  | case2 started chunks chunk rest left filled current empty ih =>
    subst whole
    have nothing : dropTrailing (fillLine width (chunk :: rest)).1 = [] := List.isEmpty_iff.1 empty
    rw [wrapChunks_of_cons left, if_pos empty]
    rcases fillLine_word short prints left with ⟨before, after, shown, _⟩ | ⟨later, put, kept⟩
    · rw [nothing] at shown
      simp at shown
    · obtain ⟨above, start, rest, below, lines, same⟩ := ih later put.symm
      rw [nothing] at kept
      exact ⟨above, start, rest, below, lines, same.trans kept⟩
  | case3 started chunks chunk rest left filled current full ih =>
    subst whole
    rw [wrapChunks_of_cons left, if_neg full]
    rcases fillLine_word short prints left with ⟨before, after, shown, kept⟩ | ⟨later, put, kept⟩
    · refine ⟨[], before.flatten, after.flatten, wrapChunks width positive true filled.2, ?_, kept⟩
      rw [shown, List.flatten_append, List.flatten_cons, List.append_assoc]
      rfl
    · obtain ⟨above, start, rest, below, lines, same⟩ := ih later put.symm
      refine ⟨current.flatten :: above, start, rest, below, by rw [lines]; rfl, ?_⟩
      rw [List.flatten_cons, List.append_assoc, withoutBlanks_append, same, kept]

/-! ## Blank lines -/

/-- A line filled from one blank chunk shows nothing and leaves at most one blank chunk. -/
theorem fillLine_of_blank {piece : List Char} (blank : isBlankText piece) (width : Nat) :
    dropTrailing (fillLine width [piece]).1 = [] ∧
      ((fillLine width [piece]).2 = [] ∨
        ∃ rest, isBlankText rest ∧ (fillLine width [piece]).2 = [rest]) := by
  have dropped {piece : List Char} (blank : isBlankText piece) : dropTrailing [piece] = [] := by
    simp [dropTrailing, blank]
  have members := List.all_eq_true.1 blank
  by_cases fits : piece.length ≤ width
  · have line : fillLine width [piece] = ([piece], []) := by
      simp [fillLine, takeFitting, fits]
    rw [line]
    exact ⟨dropped blank, Or.inl rfl⟩
  · have line : fillLine width [piece] = ([piece.take width], [piece.drop width]) := by
      simp [fillLine, takeFitting, fits, Nat.lt_of_not_le fits]
    rw [line]
    refine ⟨dropped ?_, Or.inr ⟨piece.drop width, ?_, rfl⟩⟩
    · exact List.all_eq_true.2 fun c inside => members c (List.mem_of_mem_take inside)
    · exact List.all_eq_true.2 fun c inside => members c (List.mem_of_mem_drop inside)

/-- One blank chunk fills no line at the start of a block, however long it is. -/
theorem wrapChunks_of_blank {width : Nat} {positive : 0 < width} {chunks : List (List Char)}
    (blank : chunks = [] ∨ ∃ piece, isBlankText piece ∧ chunks = [piece]) :
    wrapChunks width positive false chunks = [] := by
  generalize fresh : false = started
  induction started, chunks using wrapChunks.induct width positive with
  | case1 started chunks left => exact wrapChunks_of_nil left
  | case2 started chunks chunk rest left filled current empty ih =>
    subst fresh
    rw [wrapChunks_of_cons left, if_pos empty]
    rcases blank with rfl | ⟨piece, blank, rfl⟩
    · cases left
    · cases left
      exact ih (fillLine_of_blank blank width).2 rfl
  | case3 started chunks chunk rest left filled current full ih =>
    subst fresh
    rcases blank with rfl | ⟨piece, blank, rfl⟩
    · cases left
    · cases left
      exact absurd (List.isEmpty_iff.2 (fillLine_of_blank blank width).1) full

/-- A line without other characters than spacing is wrapped to one empty line. -/
theorem wrapLine_of_spacing {width : Nat} {positive : 0 < width} {line : List Char}
    (spaced : ∀ c ∈ line, isSpacing c) : wrapLine width positive line = [[]] := by
  have spaces : ∀ c ∈ levelSpacing line, c = ' ' := by
    intro c inside
    obtain ⟨d, expanded, rfl⟩ := List.mem_map.1 inside
    rcases mem_of_mem_expandTabs expanded with rfl | own
    · rfl
    · exact if_pos (spaced d own)
  have chunk : chunksOf (levelSpacing line) = [] ∨
      ∃ piece, isBlankText piece ∧ chunksOf (levelSpacing line) = [piece] := by
    rcases List.eq_nil_or_concat' (levelSpacing line) with empty | ⟨front, last, filled⟩
    · exact Or.inl (by rw [empty]; rfl)
    · refine Or.inr ⟨levelSpacing line, ?_, ?_⟩
      · exact List.all_eq_true.2 fun c inside => by rw [spaces c inside]; decide
      · exact chunksOf_uniform (by simp [filled])
          (fun c inside => by rw [spaces c inside])
  rw [wrapLine, wrapChunks_of_blank chunk]

/-- An empty text has one empty line. -/
theorem wrapText_empty (columns : Int) : wrapText "" columns = [""] := by
  have positive : 0 < max 1 columns.toNat := by omega
  have line : wrapLine (max 1 columns.toNat) positive [] = [[]] :=
    wrapLine_of_spacing (List.forall_mem_nil _)
  show ([[]].flatMap (wrapLine (max 1 columns.toNat) positive)).map String.ofList = [""]
  rw [List.flatMap_singleton, line]
  rfl

/-! ## Blocks -/

/-- The lines of a text in front of the wrapping; an empty text has an empty one. -/
def sourceLines (text : String) : List (List Char) :=
  match splitLines text.toList with
  | [] => [[]]
  | lines => lines

/-- What a line is wrapped to: one line or more of at most so many columns, with what the line prints
in order, and each word that fits in one piece, behind what the line prints before it. -/
structure Block (columns : Int) (line : List Char) (block : List String) : Prop where
  filled : block ≠ []
  short : ∀ printed ∈ block, (printed.toList.length : Int) ≤ columns
  blank : (∀ c ∈ line, c = ' ' ∨ c = '\t') → block = [""]
  kept : withoutBlanks (block.flatMap String.toList) = withoutBlanks line
  unbroken : ∀ before word behind, WordAt line before word behind → (word.length : Int) ≤ columns →
    ∃ above start rest below, block = above ++ String.ofList (start ++ word ++ rest) :: below ∧
      withoutBlanks (above.flatMap String.toList ++ start) = withoutBlanks before

theorem map_toList_ofList (lines : List (List Char)) :
    (lines.map String.ofList).map String.toList = lines := by
  simp

theorem flatMap_toList_ofList (lines : List (List Char)) :
    (lines.map String.ofList).flatMap String.toList = lines.flatten := by
  rw [List.flatMap_def, map_toList_ofList]

/-- A text is wrapped line by line. -/
theorem wrapText_eq_flatMap (text : String) {columns : Int} (positive : 0 < max 1 columns.toNat) :
    wrapText text columns =
      ((sourceLines text).flatMap (wrapLine _ positive)).map String.ofList := rfl

theorem unbroken_wrapLine {width : Nat} (positive : 0 < width) {line before word behind : List Char}
    (at_ : WordAt line before word behind) (short : word.length ≤ width) :
    ∃ above start rest below,
      wrapLine width positive line = above ++ (start ++ word ++ rest) :: below ∧
      withoutBlanks (above.flatten ++ start) = withoutBlanks before := by
  obtain ⟨ahead, left, chunks, same⟩ := chunksOf_word at_
  have prints : isBlankText word = false := by
    obtain ⟨c, inside, printing⟩ := at_.prints
    exact List.all_eq_false.2 ⟨c, inside, by simp [printing]⟩
  obtain ⟨above, start, rest, below, lines, placed⟩ :=
    unbroken_wrapChunks positive short prints false ahead left
  refine ⟨above, start, rest, below, ?_, placed.trans same⟩
  rw [wrapLine, chunks, lines]
  cases above with
  | nil => rfl
  | cons first above => rfl

theorem block_wrapLine {columns : Int} {width : Nat} (positive : 0 < width)
    (same : (width : Int) = columns) (line : List Char) :
    Block columns line ((wrapLine width positive line).map String.ofList) where
  filled := by simp [wrapLine_ne_nil]
  short := by
    intro printed member
    obtain ⟨text, inside, rfl⟩ := List.mem_map.1 member
    rw [String.toList_ofList]
    have fits := (fits_of_mem_wrapLine inside).1
    omega
  blank := by
    intro blank
    have spaced : ∀ c ∈ line, isSpacing c := by
      intro c inside
      rcases blank c inside with rfl | rfl <;> decide
    rw [wrapLine_of_spacing spaced]
    rfl
  kept := by rw [flatMap_toList_ofList, withoutBlanks_wrapLine]
  unbroken := by
    intro before word behind at_ short
    obtain ⟨above, start, rest, below, lines, placed⟩ :=
      unbroken_wrapLine positive at_ (by omega)
    refine ⟨above.map String.ofList, start, rest, below.map String.ofList, ?_, ?_⟩
    · rw [lines, List.map_append, List.map_cons]
    · rw [flatMap_toList_ofList, placed]

/-- Each line of a text is wrapped to a block of its own. -/
theorem blocks_wrapText (text : String) {columns : Int} (positive : 1 ≤ columns) :
    ∃ blocks : List (List String), wrapText text columns = blocks.flatten ∧
      List.Forall₂ (Block columns) (sourceLines text) blocks := by
  have some : 0 < max 1 columns.toNat := by omega
  have same : ((max 1 columns.toNat : Nat) : Int) = columns := by omega
  refine ⟨(sourceLines text).map fun line => (wrapLine _ some line).map String.ofList, ?_, ?_⟩
  · rw [wrapText_eq_flatMap text some, List.map_flatMap, List.flatMap_def]
  · rw [List.forall₂_map_right_iff, List.forall₂_same]
    intro line _
    exact block_wrapLine some same line

theorem blocks_wrapText_words :
    (1 : Int) ≤ 4 ∧ ∃ blocks : List (List String), wrapText "a bc\td\n\nabcdef" 4 = blocks.flatten ∧
      List.Forall₂ (Block 4) (sourceLines "a bc\td\n\nabcdef") blocks :=
  ⟨by decide, blocks_wrapText "a bc\td\n\nabcdef" (by decide)⟩

end Receipt.Text
