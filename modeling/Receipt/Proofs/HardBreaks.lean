import Receipt.Proofs.PageWords
import Receipt.Proofs.WrapWords

/-!
# Line breaks of a text on paper and on a page

A printer breaks a text at every line end and has no line behind the last one. A page breaks it at line
feeds only, and has a line behind the last one too. A line end that only the printer breaks at is
stray, and each of them puts the page a line behind, so the two agree only on texts that `BreaksAlike`
describes (`kept_sourceLines_iff`).

Where no line is wrapped, what is printed and drawn are the lines of either way of breaking.
`sameLines_iff_breaksAlike` puts this together, and says that wide boxes wrap nothing.
-/

namespace Receipt

namespace Text

open Receipt.Character (isBlank isLineEnd)

/-! ## Stray line ends -/

/-- What stands behind the first stray line end: one that is no line feed and no carriage return in
front of one. -/
def behindStray : List Char → Option (List Char)
  | [] => none
  | '\r' :: '\n' :: rest => behindStray rest
  | c :: rest => if isLineEnd c ∧ c ≠ '\n' then some rest else behindStray rest

/-- Whether a text is made of blank lines, if any, each with a line feed at its end. -/
def OnlyBlankLines (text : List Char) : Prop :=
  behindStray text = none ∧ isBlankText text ∧ (text = [] ∨ text.getLast? = some '\n')

/-- Whether a text has the same lines on paper and on a page: it has no stray line end and does not end
in a line feed, or it has only blank lines behind its first stray line end. -/
def BreaksAlike (text : List Char) : Prop :=
  match behindStray text with
  | none => text.getLast? ≠ some '\n'
  | some rest => OnlyBlankLines rest

instance (text : List Char) : Decidable (OnlyBlankLines text) :=
  inferInstanceAs (Decidable (_ ∧ _ ∧ _))

instance (text : List Char) : Decidable (BreaksAlike text) :=
  match known : behindStray text with
  | none => decidable_of_iff (text.getLast? ≠ some '\n') (by rw [BreaksAlike, known])
  | some rest => decidable_of_iff (OnlyBlankLines rest) (by rw [BreaksAlike, known])

/-! ## Lines and what they print -/

theorem consFirst_ne_nil (c : Char) (pieces : List (List Char)) : consFirst c pieces ≠ [] := by
  cases pieces <;> exact List.cons_ne_nil _ _

theorem splitFeeds_ne_nil (text : List Char) : splitFeeds text ≠ [] := by
  fun_cases splitFeeds text with
  | case1 => exact List.cons_ne_nil _ _
  | case2 rest => exact List.cons_ne_nil _ _
  | case3 c rest _ => exact consFirst_ne_nil c _

theorem splitLines_ne_nil {text : List Char} (some : text ≠ []) : splitLines text ≠ [] := by
  fun_cases splitLines text with
  | case1 => exact absurd rfl some
  | case2 rest => exact List.cons_ne_nil _ _
  | case3 c rest _ _ => exact List.cons_ne_nil _ _
  | case4 c rest _ _ => exact consFirst_ne_nil c _

theorem ne_feed_of_not_isLineEnd {c : Char} (stays : ¬ isLineEnd c) : c ≠ '\n' := by
  rintro rfl
  exact stays (by decide)

/-- A line feed is the last character of a text when it is the last one behind a line feed, or the only
one. -/
theorem getLast?_cons_feed_iff (rest : List Char) :
    ('\n' :: rest).getLast? = some '\n' ↔ rest = [] ∨ rest.getLast? = some '\n' := by
  cases rest with
  | nil => simp
  | cons c rest => simp

theorem length_consFirst (c : Char) {pieces : List (List Char)} (some : pieces ≠ []) :
    (consFirst c pieces).length = pieces.length := by
  obtain ⟨piece, pieces, rfl⟩ := List.exists_cons_of_ne_nil some
  rfl

theorem length_le_length_consFirst (c : Char) (pieces : List (List Char)) :
    pieces.length ≤ (consFirst c pieces).length := by
  cases pieces with
  | nil => exact Nat.zero_le _
  | cons piece pieces => exact le_rfl

/-- There is at most one piece more than there are lines: the one behind the last line end. -/
theorem length_splitFeeds_le (text : List Char) :
    (splitFeeds text).length ≤ (splitLines text).length + 1 := by
  fun_induction splitLines text with
  | case1 => exact le_rfl
  | case2 rest ih =>
    rw [splitFeeds_cons (by decide), splitFeeds, consFirst]
    exact Nat.succ_le_succ ih
  | case3 c rest pair ends ih =>
    by_cases feed : c = '\n'
    · subst feed
      rw [splitFeeds]
      exact Nat.succ_le_succ ih
    · rw [splitFeeds_cons feed, length_consFirst c (splitFeeds_ne_nil rest)]
      exact Nat.le_succ_of_le ih
  | case4 c rest pair stays ih =>
    have more := length_le_length_consFirst c (splitLines rest)
    rw [splitFeeds_cons (ne_feed_of_not_isLineEnd stays),
      length_consFirst c (splitFeeds_ne_nil rest)]
    omega

/-- A character in front of two texts makes no difference to whether their lines print the same. -/
theorem kept_consFirst_iff (c : Char) {first second : List (List Char)} (one : first ≠ [])
    (other : second ≠ []) :
    (consFirst c first).map withoutBlanks = (consFirst c second).map withoutBlanks ↔
      first.map withoutBlanks = second.map withoutBlanks := by
  obtain ⟨piece, pieces, rfl⟩ := List.exists_cons_of_ne_nil one
  obtain ⟨line, lines, rfl⟩ := List.exists_cons_of_ne_nil other
  simp only [consFirst, List.map_cons, List.cons.injEq]
  refine and_congr_left fun _ => ?_
  by_cases blank : isBlank c
  · rw [withoutBlanks_cons_of_blank blank, withoutBlanks_cons_of_blank blank]
  · simp [withoutBlanks, blank]

theorem kept_consFirst_of_blank {c : Char} (blank : isBlank c) {pieces : List (List Char)}
    (some : pieces ≠ []) :
    (consFirst c pieces).map withoutBlanks = pieces.map withoutBlanks := by
  obtain ⟨piece, pieces, rfl⟩ := List.exists_cons_of_ne_nil some
  rw [consFirst, List.map_cons, withoutBlanks_cons_of_blank blank, List.map_cons]

theorem behindStray_feed (rest : List Char) : behindStray ('\n' :: rest) = behindStray rest := by
  rw [behindStray, if_neg (by decide)]
  rintro _ ⟨⟩

theorem behindStray_pair (rest : List Char) :
    behindStray ('\r' :: '\n' :: rest) = behindStray ('\n' :: rest) := by
  rw [behindStray, behindStray_feed]

theorem behindStray_stray {c : Char} {rest : List Char}
    (pair : ∀ tail, c = '\r' → rest = '\n' :: tail → False) (ends : isLineEnd c)
    (stray : c ≠ '\n') : behindStray (c :: rest) = some rest := by
  rw [behindStray, if_pos ⟨ends, stray⟩]
  exact pair

theorem behindStray_plain {c : Char} (stays : ¬ isLineEnd c) (rest : List Char) :
    behindStray (c :: rest) = behindStray rest := by
  rw [behindStray, if_neg fun stray => stays stray.1]
  rintro _ rfl
  exact absurd (by decide) stays

theorem onlyBlankLines_feed_iff (rest : List Char) :
    OnlyBlankLines ('\n' :: rest) ↔ OnlyBlankLines rest := by
  unfold OnlyBlankLines
  rw [behindStray_feed, getLast?_cons_feed_iff, or_iff_right (List.cons_ne_nil _ _)]
  rfl

theorem onlyBlankLines_pair_iff (rest : List Char) :
    OnlyBlankLines ('\r' :: '\n' :: rest) ↔ OnlyBlankLines ('\n' :: rest) := by
  unfold OnlyBlankLines
  rw [behindStray_pair, List.getLast?_cons_cons, or_iff_right (List.cons_ne_nil _ _),
    or_iff_right (List.cons_ne_nil _ _)]
  rfl

theorem not_onlyBlankLines_stray {c : Char} {rest : List Char}
    (stray : behindStray (c :: rest) = some rest) : ¬ OnlyBlankLines (c :: rest) := by
  rintro ⟨none, _⟩
  rw [stray] at none
  cases none

theorem onlyBlankLines_plain_iff {c : Char} (stays : ¬ isLineEnd c) (rest : List Char) :
    OnlyBlankLines (c :: rest) ↔ rest ≠ [] ∧ isBlank c ∧ OnlyBlankLines rest := by
  unfold OnlyBlankLines
  rw [behindStray_plain stays]
  cases rest with
  | nil =>
    refine iff_of_false ?_ (fun more => more.1 rfl)
    rintro ⟨_, _, none | final⟩
    · cases none
    · exact ne_feed_of_not_isLineEnd stays (Option.some.inj final)
  | cons d rest =>
    rw [List.getLast?_cons_cons]
    simp only [isBlankText, List.all_cons, Bool.and_eq_true, reduceCtorEq, false_or, ne_eq,
      not_false_iff, true_and]
    tauto

/-- The pieces of a text print its lines behind an empty one exactly when it has only blank lines. -/
theorem kept_splitFeeds_behind_iff (text : List Char) :
    (splitFeeds text).map withoutBlanks = [] :: (splitLines text).map withoutBlanks ↔
      OnlyBlankLines text := by
  fun_induction splitLines text with
  | case1 => decide
  | case2 rest ih =>
    rw [splitFeeds_cons (by decide), splitFeeds,
      kept_consFirst_of_blank (by decide) (List.cons_ne_nil _ _), onlyBlankLines_pair_iff,
      onlyBlankLines_feed_iff, ← ih]
    exact List.cons_inj_right _
  | case3 c rest pair ends ih =>
    by_cases same : c = '\n'
    · subst same
      rw [splitFeeds, onlyBlankLines_feed_iff, ← ih]
      exact List.cons_inj_right _
    · rw [splitFeeds_cons same,
        kept_consFirst_of_blank (isBlank_of_isLineEnd ends) (splitFeeds_ne_nil rest)]
      -- The lines are one more from here on, so two empty ones are too many.
      refine iff_of_false (fun more => ?_)
        (not_onlyBlankLines_stray (behindStray_stray pair ends same))
      have lengths := congrArg List.length more
      have fewer := length_splitFeeds_le rest
      simp only [List.length_map, List.length_cons] at lengths
      omega
  | case4 c rest pair stays ih =>
    rw [splitFeeds_cons (ne_feed_of_not_isLineEnd stays), onlyBlankLines_plain_iff stays, ← ih]
    by_cases none : rest = []
    · subst none
      exact iff_of_false (by simp [splitFeeds, splitLines, consFirst]) (fun more => more.1 rfl)
    · rw [and_iff_right none]
      by_cases blank : isBlank c
      · rw [and_iff_right blank, kept_consFirst_of_blank blank (splitFeeds_ne_nil rest),
          kept_consFirst_of_blank blank (splitLines_ne_nil none)]
      · obtain ⟨piece, pieces, cut⟩ := List.exists_cons_of_ne_nil (splitFeeds_ne_nil rest)
        refine iff_of_false ?_ (fun both => blank both.1)
        simp [cut, consFirst, withoutBlanks, blank]

theorem breaksAlike_cons {c : Char} {rest : List Char} (some : rest ≠ [])
    (same : behindStray (c :: rest) = behindStray rest) :
    BreaksAlike (c :: rest) ↔ BreaksAlike rest := by
  obtain ⟨d, rest, rfl⟩ := List.exists_cons_of_ne_nil some
  unfold BreaksAlike
  rw [same, List.getLast?_cons_cons]

/-- A text prints the same in its pieces as in its lines exactly when it breaks alike. -/
theorem kept_splitFeeds_iff {text : List Char} (some : text ≠ []) :
    (splitFeeds text).map withoutBlanks = (splitLines text).map withoutBlanks ↔
      BreaksAlike text := by
  have feed (rest : List Char)
      (ih : rest ≠ [] → ((splitFeeds rest).map withoutBlanks = (splitLines rest).map withoutBlanks ↔
        BreaksAlike rest)) :
      [] :: (splitFeeds rest).map withoutBlanks = [] :: (splitLines rest).map withoutBlanks ↔
        BreaksAlike ('\n' :: rest) := by
    rw [List.cons_inj_right]
    by_cases none : rest = []
    · subst none
      exact iff_of_false (by decide) (by decide)
    · rw [breaksAlike_cons none (behindStray_feed rest)]
      exact ih none
  fun_induction splitLines text with
  | case1 => exact absurd rfl some
  | case2 rest ih =>
    rw [splitFeeds_cons (by decide), splitFeeds,
      kept_consFirst_of_blank (by decide) (List.cons_ne_nil _ _),
      breaksAlike_cons (List.cons_ne_nil _ _) (behindStray_pair rest)]
    exact feed rest ih
  | case3 c rest pair ends ih =>
    by_cases same : c = '\n'
    · subst same
      rw [splitFeeds]
      exact feed rest ih
    · rw [splitFeeds_cons same,
        kept_consFirst_of_blank (isBlank_of_isLineEnd ends) (splitFeeds_ne_nil rest)]
      unfold BreaksAlike
      rw [behindStray_stray pair ends same]
      exact kept_splitFeeds_behind_iff rest
  | case4 c rest pair stays ih =>
    have feed := ne_feed_of_not_isLineEnd stays
    rw [splitFeeds_cons feed]
    by_cases none : rest = []
    · subst none
      refine iff_of_true rfl ?_
      unfold BreaksAlike
      rw [behindStray_plain stays]
      exact fun final => feed (Option.some.inj final)
    · rw [kept_consFirst_iff c (splitFeeds_ne_nil rest) (splitLines_ne_nil none),
        breaksAlike_cons none (behindStray_plain stays rest)]
      exact ih none

/-- The pieces of a text print what its source lines print exactly when it breaks alike. -/
theorem kept_sourceLines_iff (text : String) :
    (sourceLines text).map withoutBlanks = (splitFeeds text.toList).map withoutBlanks ↔
      BreaksAlike text.toList := by
  unfold sourceLines
  by_cases none : text.toList = []
  · rw [none]
    decide
  · split
    · next empty => exact absurd empty (splitLines_ne_nil none)
    · rw [eq_comm]
      exact kept_splitFeeds_iff none

/-! ## Lines that are not wrapped -/

theorem length_le_length_flatMap {wrap : List Char → List (List Char)}
    (filled : ∀ line, wrap line ≠ []) (lines : List (List Char)) :
    lines.length ≤ (lines.flatMap wrap).length := by
  induction lines with
  | nil => exact le_rfl
  | cons line lines ih =>
    have some := List.length_pos_iff.2 (filled line)
    rw [List.flatMap_cons, List.length_append, List.length_cons]
    omega

theorem length_flatMap_of_single {wrap : List Char → List (List Char)} {lines : List (List Char)}
    (single : ∀ line ∈ lines, (wrap line).length = 1) :
    (lines.flatMap wrap).length = lines.length := by
  induction lines with
  | nil => rfl
  | cons line lines ih =>
    obtain ⟨own, others⟩ := List.forall_mem_cons.1 single
    rw [List.flatMap_cons, List.length_append, own, ih others, List.length_cons, Nat.add_comm]

/-- When every line is wrapped to one line, the wrapped lines print what the lines do one by one. -/
theorem kept_flatMap_of_length_eq {wrap : List Char → List (List Char)} {lines : List (List Char)}
    (filled : ∀ line, wrap line ≠ [])
    (kept : ∀ line, withoutBlanks (wrap line).flatten = withoutBlanks line)
    (single : (lines.flatMap wrap).length = lines.length) :
    (lines.flatMap wrap).map withoutBlanks = lines.map withoutBlanks := by
  induction lines with
  | nil => rfl
  | cons line lines ih =>
    have later := length_le_length_flatMap filled lines
    have some := List.length_pos_iff.2 (filled line)
    rw [List.flatMap_cons, List.length_append, List.length_cons] at single
    obtain ⟨own, alone⟩ := List.length_eq_one_iff.1 (by omega : (wrap line).length = 1)
    have same := kept line
    rw [alone, List.flatten_singleton] at same
    rw [List.flatMap_cons, List.map_append, List.map_cons, ih (by omega), alone, List.map_singleton,
      same]
    rfl

/-! ## Words of a page -/

theorem flatten_wordsFrom (word text : List Char) :
    (wordsFrom word text).flatten = word ++ withoutBlanks text := by
  induction text generalizing word with
  | nil =>
    cases word with
    | nil => rfl
    | cons c word => simp [wordsFrom, withoutBlanks]
  | cons c text ih =>
    rw [wordsFrom]
    split
    · next blank =>
      rw [withoutBlanks_cons_of_blank blank]
      split
      · next none => rw [ih, List.isEmpty_iff.1 none]
      · rw [List.flatten_cons, ih, List.nil_append]
    · next prints =>
      rw [ih, List.append_assoc]
      simp [withoutBlanks, prints]

/-- The words of a text have its characters but the blanks. -/
theorem flatten_words (text : List Char) : (words text).flatten = withoutBlanks text :=
  flatten_wordsFrom [] text

theorem withoutBlanks_joinSpaced (line : List (List Char)) :
    withoutBlanks (joinSpaced line) = withoutBlanks line.flatten := by
  induction line with
  | nil => rfl
  | cons word line ih =>
    cases line with
    | nil => rw [joinSpaced, List.flatten_singleton]
    | cons next line =>
      have joined : joinSpaced (word :: next :: line) =
          word ++ ' ' :: joinSpaced (next :: line) := rfl
      rw [joined, List.flatten_cons, withoutBlanks_append, withoutBlanks_append,
        withoutBlanks_cons_of_blank (by decide), ih]

theorem withoutBlanks_joinSpaced_lines (lines : List (List (List Char))) :
    withoutBlanks (lines.map joinSpaced).flatten = withoutBlanks lines.flatten.flatten := by
  induction lines with
  | nil => rfl
  | cons line lines ih =>
    rw [List.map_cons, List.flatten_cons, withoutBlanks_append, withoutBlanks_joinSpaced, ih,
      ← withoutBlanks_append, ← List.flatten_append, ← List.flatten_cons]

end Text

namespace Page

open Text (withoutBlanks)

variable {α : Type} [Scalar α]

/-- Breaking a text between words keeps what it prints. -/
theorem withoutBlanks_wrapWords (measure : List Char → α) (width : α) (text : List Char) :
    withoutBlanks (wrapWords measure width text).flatten = withoutBlanks text := by
  unfold wrapWords
  split
  · rw [List.flatten_singleton]
  · simp only
    rw [Text.withoutBlanks_joinSpaced_lines, flatten_fillLines, List.nil_append, Text.flatten_words]
    simp [withoutBlanks]

theorem pieceLines_ne_nil (measure : List Char → α) (width : α) (piece : List Char) :
    pieceLines measure width piece ≠ [] := by
  unfold pieceLines
  split
  · exact List.cons_ne_nil _ _
  · next some => exact some

theorem withoutBlanks_pieceLines (measure : List Char → α) (width : α) (piece : List Char) :
    withoutBlanks (pieceLines measure width piece).flatten = withoutBlanks piece := by
  have kept := withoutBlanks_wrapWords measure width piece
  unfold pieceLines
  split
  · next none =>
    rw [none] at kept
    exact kept
  · exact kept

end Page

/-! ## Printed and drawn lines -/

namespace Command

/-- The lines that commands print, with what stands on the first of them already. -/
def linesFrom (pending : List Char) : List Command → List (List Char)
  | [] => []
  | .text content :: commands => linesFrom (pending ++ content.toList) commands
  | .lineFeed lines :: commands =>
    match lines.toNat with
    | 0 => linesFrom pending commands
    | more + 1 => pending :: List.replicate more [] ++ linesFrom [] commands
  | _ :: commands => linesFrom pending commands

theorem linesFrom_lineCommands (lines : List String) :
    linesFrom [] (lines.flatMap Printer.lineCommands) = lines.map String.toList := by
  induction lines with
  | nil => rfl
  | cons line lines ih =>
    rw [List.flatMap_cons, List.map_cons, ← ih]
    unfold Printer.lineCommands
    split
    · next empty =>
      rw [String.isEmpty_iff.1 empty]
      rfl
    · rfl

/-- Setting registers prints nothing. -/
theorem linesFrom_settings (pending : List Char) (registers : Registers) (align : Alignment)
    (size : CharSize) (bold : Bool) (commands : List Command) :
    linesFrom pending (registers.settings align size (some bold) ++ commands) =
      linesFrom pending commands := by
  unfold Registers.settings
  simp only
  split <;> split <;> split <;> rfl

end Command

/-- The lines that a printing prints. -/
def Printing.lines (printing : Printing) : List (List Char) :=
  Command.linesFrom [] printing.commands

/-- The text of a mark. -/
def Mark.characters {α : Type} : Mark α → List Char
  | .text content _ _ _ _ _ => content.toList
  | .line _ _ _ _ | .picture _ _ _ _ _ | .symbol _ _ _ _ => []

/-- The line of text that an event draws; one without a mark is empty. -/
def DrawEvent.line? {α : Type} : DrawEvent α → Option (List Char)
  | .drawn .text marks => some (marks.flatMap Mark.characters)
  | _ => none

/-- The lines of text that a drawing draws. -/
def Drawing.lines {α : Type} (drawing : Drawing α) : List (List Char) :=
  drawing.events.filterMap DrawEvent.line?

theorem Drawing.lines_andThen {α : Type} {first : Drawing α} (goesOn : first.fault = none)
    (next : Pen α → Drawing α) :
    (first.andThen next).lines = first.lines ++ (next first.pen).lines := by
  unfold lines
  rw [andThen_of_none goesOn]
  exact List.filterMap_append ..

namespace Printer

variable {α : Type} [Scalar α]

/-- A text is printed on the lines it is wrapped to. -/
theorem lines_printText (registers : Registers) (content : String) {look : TextLook α}
    {extent : Extent α} {count : Int} (filled : columns extent look.size = .ok count) :
    (printText registers content look extent).lines =
      (Text.wrapText content count).map String.toList := by
  unfold Printing.lines printText
  split
  · next empty =>
    rw [String.isEmpty_iff.1 empty, Printing.commands_send, Text.wrapText_empty]
    rfl
  · rw [filled]
    simp only
    rw [Printing.commands_andThen rfl, Printing.set, Printing.commands_send,
      Printing.commands_send, Command.linesFrom_settings, Command.linesFrom_lineCommands]

/-- Only an empty text is printed where no number of characters fills a line. -/
theorem exists_lines_printText {registers : Registers} {content : String} {look : TextLook α}
    {extent : Extent α} (printed : (printText registers content look extent).lines ≠ []) :
    ∃ count, (printText registers content look extent).lines =
      (Text.wrapText content count).map String.toList := by
  cases filled : columns extent look.size with
  | ok count => exact ⟨count, lines_printText registers content filled⟩
  | error fault =>
    unfold printText at printed ⊢
    split
    · next empty =>
      refine ⟨1, ?_⟩
      rw [String.isEmpty_iff.1 empty, Text.wrapText_empty]
      rfl
    · next full =>
      rw [if_neg full, filled] at printed
      exact absurd rfl printed

/-- In exact numbers the characters that fill a line are counted. -/
theorem columns_rat (extent : Extent Rat) {size : CharSize} (sized : 0 < size.width) :
    columns extent size = .ok (max 1 (extent.width.floor.fdiv size.width)) := by
  unfold columns
  rw [Scalar.truncate_rat extent.width_nonneg]
  exact if_neg sized.ne'

end Printer

namespace Page

variable {α : Type} [Scalar α]

theorem lines_drawLines (setting : Setting α) (extent : Extent α) (look : TextLook α) (pen : Pen α)
    (lines : List String) :
    (drawLines setting extent look pen lines).lines = lines.map String.toList := by
  induction lines generalizing pen with
  | nil => rfl
  | cons line lines ih =>
    have own : (drawLine setting extent line look.align look.bold look.pointSize
        look.paddingLeft look.paddingRight pen).lines = [line.toList] := by
      unfold drawLine
      simp only
      split
      · next empty =>
        rw [String.isEmpty_iff.1 empty]
        rfl
      · exact congrArg (· :: []) (List.append_nil _)
    unfold drawLines
    rw [Drawing.lines_andThen rfl, ih, own, List.map_cons]
    rfl

/-- A text is drawn on the lines it is broken to. -/
theorem lines_drawText (setting : Setting α) (pen : Pen α) (content : String) (look : TextLook α)
    (extent : Extent α) : (drawText setting pen content look extent).lines =
      (Text.splitFeeds content.toList).flatMap (pieceLines (charsWidth look.bold look.pointSize)
        (Scalar.max Scalar.one (extent.width - look.paddingLeft - look.paddingRight))) := by
  unfold drawText
  simp only
  rw [lines_drawLines, wrapText_eq]
  simp

end Page

namespace Text

/-- A text is printed and drawn on as many lines as it has of its own: none of them is wrapped. -/
structure Unwrapped (content : String) (printed drawn : List (List Char)) : Prop where
  printed : printed.length = (sourceLines content).length
  drawn : drawn.length = (splitFeeds content.toList).length

theorem sourceLines_ne_nil (text : String) : sourceLines text ≠ [] := by
  unfold sourceLines
  split
  · exact List.cons_ne_nil _ _
  · next some => exact some

theorem toList_wrapText (text : String) {columns : Int} (positive : 0 < max 1 columns.toNat) :
    (wrapText text columns).map String.toList =
      (sourceLines text).flatMap (wrapLine _ positive) := by
  rw [wrapText_eq_flatMap text positive, map_toList_ofList]

/-- Where a text is not wrapped, the lines that are printed print what the lines that are drawn do
exactly when the text breaks alike. -/
theorem kept_lines_iff {α : Type} [Scalar α] {content : String} (registers : Registers)
    (look : TextLook α) (extent : Extent α) (setting : Page.Setting α) (pen : Pen α)
    (face : TextLook α) (box : Extent α)
    (unwrapped : Unwrapped content (Printer.printText registers content look extent).lines
      (Page.drawText setting pen content face box).lines) :
    (Printer.printText registers content look extent).lines.map withoutBlanks =
        (Page.drawText setting pen content face box).lines.map withoutBlanks ↔
      BreaksAlike content.toList := by
  obtain ⟨printed, drawn⟩ := unwrapped
  have some : (Printer.printText registers content look extent).lines ≠ [] := by
    rw [← List.length_pos_iff, printed]
    exact List.length_pos_iff.2 (sourceLines_ne_nil content)
  obtain ⟨columns, prints⟩ := Printer.exists_lines_printText some
  have positive : 0 < max 1 columns.toNat := by omega
  rw [prints, toList_wrapText content positive] at printed ⊢
  rw [Page.lines_drawText] at drawn ⊢
  rw [kept_flatMap_of_length_eq (wrapLine_ne_nil _ positive) (withoutBlanks_wrapLine _ positive)
      printed,
    kept_flatMap_of_length_eq (Page.pieceLines_ne_nil _ _) (Page.withoutBlanks_pieceLines _ _) drawn]
  exact kept_sourceLines_iff content

/-! ## Wide boxes -/

theorem takeFitting_of_le {room : Nat} {chunks : List (List Char)}
    (fits : chunks.flatten.length ≤ room) : takeFitting room chunks = (chunks, []) := by
  induction chunks generalizing room with
  | nil => rfl
  | cons chunk chunks ih =>
    rw [List.flatten_cons, List.length_append] at fits
    rw [takeFitting, if_pos (by omega), ih (by omega)]

/-- A line that fits is not wrapped. -/
theorem length_wrapLine_of_le {width : Nat} {positive : 0 < width} {line : List Char}
    (fits : (levelSpacing line).length ≤ width) : (wrapLine width positive line).length = 1 := by
  have filled : fillLine width (chunksOf (levelSpacing line)) =
      (chunksOf (levelSpacing line), []) := by
    unfold fillLine
    rw [takeFitting_of_le (by rwa [flatten_chunksOf])]
  unfold wrapLine
  generalize chunksOf (levelSpacing line) = chunks at filled
  cases chunks with
  | nil => rw [wrapChunks_of_nil rfl]; rfl
  | cons chunk rest =>
    have left : dropLeading false (chunk :: rest) = chunk :: rest := rfl
    have behind (started : Bool) : wrapChunks width positive started [] = [] :=
      wrapChunks_of_nil rfl
    rw [wrapChunks_of_cons left, filled]
    simp only [behind]
    by_cases empty : (dropTrailing (chunk :: rest)).isEmpty
    · rw [if_pos empty]
      rfl
    · rw [if_neg empty]
      rfl

end Text

namespace Page

variable {measure : List Char → Rat} {space width : Rat}

theorem spread_le_spread_append (spaced : 0 ≤ space) (nonneg : ∀ word, 0 ≤ measure word)
    (line words : List (List Char)) :
    spread measure space line ≤ spread measure space (line ++ words) := by
  have more := List.sum_nonneg (taken_nonneg spaced nonneg words)
  unfold spread
  rw [List.map_append, List.sum_append]
  linarith

/-- Words that fit on one line together are put on one. -/
theorem fillLines_of_le (spaced : 0 ≤ space) (nonneg : ∀ word, 0 ≤ measure word)
    {line words : List (List Char)} (fits : spread measure space (line ++ words) ≤ width) :
    fillLines measure space width (spread measure space line) line words =
      if (line ++ words).isEmpty then [] else [line ++ words] := by
  induction words generalizing line with
  | nil => rw [fillLines, List.append_nil]
  | cons word words ih =>
    rw [← List.singleton_append, ← List.append_assoc] at fits ⊢
    have enters : spread measure space line + space + measure word ≤ width := by
      rw [← spread_concat]
      exact (spread_le_spread_append spaced nonneg _ words).trans fits
    rw [List.singleton_append, fillLines, if_pos (by rw [decide_eq_true enters, Bool.or_true]),
      ← spread_concat]
    exact ih fits

/-- A piece whose words fit on one line gives one. -/
theorem length_pieceLines_of_le {bold : Bool} {size : Rat} (upright : 0 ≤ size) {piece : List Char}
    (fits : ((Text.words piece).map fun word =>
      charsWidth bold size [' '] + charsWidth bold size word).sum ≤ width) :
    (pieceLines (charsWidth bold size) width piece).length = 1 := by
  have space := charsWidth_nonneg upright bold [' ']
  have line : spread (charsWidth bold size) (charsWidth bold size [' '])
      ([] ++ Text.words piece) ≤ width := by
    rw [List.nil_append, spread]
    linarith
  have short : (wrapWords (charsWidth bold size) width piece).length ≤ 1 := by
    unfold wrapWords
    split
    · exact le_rfl
    · simp only
      rw [← spread_nil (charsWidth bold size),
        fillLines_of_le space (charsWidth_nonneg upright bold) line, List.length_map]
      split
      · exact Nat.zero_le 1
      · exact le_rfl
  unfold pieceLines
  split
  · rfl
  · next some =>
    have one := List.length_pos_iff.2 some
    omega

end Page

namespace Text

/-- Wide boxes do not wrap a text. -/
theorem exists_unwrapped (content : String) (look face : TextLook Rat)
    (sized : 0 < look.size.width) (upright : 0 ≤ face.pointSize) :
    ∃ enough : Rat, ∀ (registers : Registers) (extent : Extent Rat) (setting : Page.Setting Rat)
      (pen : Pen Rat) (box : Extent Rat), enough ≤ extent.width →
      enough ≤ box.width - face.paddingLeft - face.paddingRight →
      Unwrapped content (Printer.printText registers content look extent).lines
        (Page.drawText setting pen content face box).lines := by
  have spaced := Page.charsWidth_nonneg upright face.bold
  -- What the longest line and the longest piece take is no more than what all of them do.
  let columns : Nat := ((sourceLines content).map fun line => (levelSpacing line).length).sum
  let points : Rat := ((splitFeeds content.toList).map fun piece => ((words piece).map fun word =>
    Page.charsWidth face.bold face.pointSize [' '] +
      Page.charsWidth face.bold face.pointSize word).sum).sum
  refine ⟨max ((columns : Rat) * look.size.width) points,
    fun registers extent setting pen box wide broad => ⟨?_, ?_⟩⟩
  · rw [Printer.lines_printText registers content (Printer.columns_rat extent sized),
      toList_wrapText content (by omega), length_flatMap_of_single fun line member => ?_]
    apply length_wrapLine_of_le
    have most : (levelSpacing line).length ≤ columns :=
      List.single_le_sum (fun _ _ => Nat.zero_le _) _ (List.mem_map_of_mem member)
    have floor : (columns : Int) * look.size.width ≤ extent.width.floor := by
      rw [Rat.le_floor_iff]
      push_cast
      exact (le_max_left _ _).trans wide
    have count : (columns : Int) ≤ extent.width.floor.fdiv look.size.width := by
      rw [Int.fdiv_eq_ediv_of_nonneg _ sized.le]
      exact (Int.le_ediv_iff_mul_le sized).2 floor
    omega
  · rw [Page.lines_drawText]
    refine length_flatMap_of_single fun piece member => ?_
    apply Page.length_pieceLines_of_le upright
    rw [Scalar.max_rat]
    refine le_trans ?_ (((le_max_right _ _).trans broad).trans (le_max_right _ _))
    refine List.single_le_sum (fun taken inside => ?_) _ (List.mem_map_of_mem member)
    obtain ⟨other, _, rfl⟩ := List.mem_map.1 inside
    exact List.sum_nonneg (Page.taken_nonneg (spaced [' ']) spaced (words other))

/-- At all widths that do not wrap a text, the lines that are printed print what the lines that are
drawn do exactly when the text breaks alike; and all widths from some width on do not wrap it. -/
theorem sameLines_iff_breaksAlike (content : String) :
    (∀ {α : Type} [Scalar α] (registers : Registers) (look : TextLook α) (extent : Extent α)
      (setting : Page.Setting α) (pen : Pen α) (face : TextLook α) (box : Extent α),
      Unwrapped content (Printer.printText registers content look extent).lines
        (Page.drawText setting pen content face box).lines →
      ((Printer.printText registers content look extent).lines.map withoutBlanks =
          (Page.drawText setting pen content face box).lines.map withoutBlanks ↔
        BreaksAlike content.toList)) ∧
    ∀ look face : TextLook Rat, 0 < look.size.width → 0 ≤ face.pointSize →
      ∃ enough : Rat, ∀ (registers : Registers) (extent : Extent Rat) (setting : Page.Setting Rat)
        (pen : Pen Rat) (box : Extent Rat), enough ≤ extent.width →
        enough ≤ box.width - face.paddingLeft - face.paddingRight →
        Unwrapped content (Printer.printText registers content look extent).lines
          (Page.drawText setting pen content face box).lines :=
  ⟨kept_lines_iff, exists_unwrapped content⟩

/-- The lines of a plain text on paper of so many characters. -/
def plainPrint (content : String) (width : Rat) : List (List Char) :=
  (Printer.printText .unknown content (Page.plainLook .left) ⟨width, []⟩).lines

/-- The lines of a plain text on a page of so many points. -/
def plainDraw (content : String) (width : Rat) : List (List Char) :=
  (Page.drawText .usual .atTop content (Page.plainLook .left) ⟨width, []⟩).lines

theorem le_width_plain (width : Rat) : width ≤ (⟨width, []⟩ : Extent Rat).width := by
  rw [Extent.width_rat]
  refine le_trans ?_ (le_max_right _ _)
  simp

theorem sameLines_iff_breaksAlike_twoLines :
    ∃ width : Rat, Unwrapped "Total\r\n4.50" (plainPrint "Total\r\n4.50" width)
        (plainDraw "Total\r\n4.50" width) ∧
      (plainPrint "Total\r\n4.50" width).map withoutBlanks =
        (plainDraw "Total\r\n4.50" width).map withoutBlanks := by
  obtain ⟨same, wide⟩ := sameLines_iff_breaksAlike "Total\r\n4.50"
  obtain ⟨enough, unwrapped⟩ := wide (Page.plainLook .left) (Page.plainLook .left) (by decide)
    (by decide)
  have broad := le_width_plain enough
  have shown := unwrapped .unknown ⟨enough, []⟩ .usual .atTop ⟨enough, []⟩ broad
    (by show enough ≤ _ - 0 - 0; linarith)
  exact ⟨enough, shown, (same .unknown _ _ .usual .atTop _ _ shown).2 (by decide)⟩

/-- However wide paper and page are, a line feed at the end of a text makes a line on the page only,
and a carriage return in its middle makes one on paper only. -/
theorem not_sameLines_strayEnds :
    ∃ enough : Rat, ∀ width : Rat, enough ≤ width →
      Unwrapped "Total\n" (plainPrint "Total\n" width) (plainDraw "Total\n" width) ∧
      (plainPrint "Total\n" width).length = 1 ∧ (plainDraw "Total\n" width).length = 2 ∧
      Unwrapped "Total\r4.50" (plainPrint "Total\r4.50" width) (plainDraw "Total\r4.50" width) ∧
      (plainPrint "Total\r4.50" width).length = 2 ∧ (plainDraw "Total\r4.50" width).length = 1 := by
  have wide (content : String) : ∃ enough : Rat, ∀ width : Rat, enough ≤ width →
      Unwrapped content (plainPrint content width) (plainDraw content width) := by
    obtain ⟨enough, unwrapped⟩ := exists_unwrapped content (Page.plainLook .left)
      (Page.plainLook .left) (by decide) (by decide)
    refine ⟨enough, fun width broad => ?_⟩
    have inner := broad.trans (le_width_plain width)
    exact unwrapped .unknown ⟨width, []⟩ .usual .atTop ⟨width, []⟩ inner
      (by show enough ≤ _ - 0 - 0; linarith)
  obtain ⟨least, feed⟩ := wide "Total\n"
  obtain ⟨most, carriage⟩ := wide "Total\r4.50"
  refine ⟨max least most, fun width broad => ?_⟩
  have first := feed width ((le_max_left _ _).trans broad)
  have second := carriage width ((le_max_right _ _).trans broad)
  exact ⟨first, first.printed.trans (by decide), first.drawn.trans (by decide), second,
    second.printed.trans (by decide), second.drawn.trans (by decide)⟩

end Text

end Receipt
