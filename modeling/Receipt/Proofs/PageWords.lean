import Receipt.Proofs.Boxes
import Receipt.Proofs.PageHeight
import Receipt.Proofs.RowExtents

/-!
# Texts of a page between their edges

A page breaks a text between words and nowhere else. The words of a line, one space between each two,
take what they measure and the spaces (`spread`), and a line takes a word as long as that fits; but a
line has at least one word. So the lines of a text fit a width when its words do, and a word that is
too wide is on some line (`fits_wrapWords_iff`).

`texts_fit_iff_words` says so of whole texts, and of the lines that are drawn in a content box: they
stay inside the box exactly when no word is wider than it.
-/

namespace Receipt

namespace Text

open Receipt.Character (isBlank)

/-! ## Words -/

theorem splitFeeds_cons {c : Char} (stays : c ≠ '\n') (rest : List Char) :
    splitFeeds (c :: rest) = consFirst c (splitFeeds rest) := by
  rw [splitFeeds]
  exact stays

/-- Reading words goes on behind a line feed as it begins. -/
theorem wordsFrom_splitFeeds (word text : List Char) :
    ∃ piece pieces, splitFeeds text = piece :: pieces ∧
      wordsFrom word text = wordsFrom word piece ++ pieces.flatMap words := by
  induction text generalizing word with
  | nil => exact ⟨[], [], rfl, (List.append_nil _).symm⟩
  | cons c rest ih =>
    by_cases feed : c = '\n'
    · subst feed
      obtain ⟨piece, pieces, cut, read⟩ := ih []
      refine ⟨[], piece :: pieces, congrArg _ cut, ?_⟩
      show (if word.isEmpty then wordsFrom [] rest else word :: wordsFrom [] rest) =
        (if word.isEmpty then [] else [word]) ++ _
      rw [read, List.flatMap_cons]
      split <;> rfl
    · rw [splitFeeds_cons feed, wordsFrom]
      split
      · next blank =>
        obtain ⟨piece, pieces, cut, read⟩ := ih []
        refine ⟨c :: piece, pieces, by rw [cut]; rfl, ?_⟩
        rw [read, wordsFrom, if_pos blank]
        split <;> rfl
      · next letter =>
        obtain ⟨piece, pieces, cut, read⟩ := ih (word ++ [c])
        refine ⟨c :: piece, pieces, by rw [cut]; rfl, ?_⟩
        rw [read, wordsFrom, if_neg letter]

/-- No word crosses a line feed. -/
theorem words_splitFeeds (text : List Char) : words text = (splitFeeds text).flatMap words := by
  obtain ⟨piece, pieces, cut, read⟩ := wordsFrom_splitFeeds [] text
  rw [cut, List.flatMap_cons]
  exact read

end Text

namespace Page

/-! ## Filling lines -/

section Words

variable {α : Type} [Scalar α] {measure : List Char → α} {space width : α}

/-- Lines are filled with the words in their order. -/
theorem flatten_fillLines (measure : List Char → α) (space width used : α)
    (line words : List (List Char)) :
    (fillLines measure space width used line words).flatten = line ++ words := by
  induction words generalizing used line with
  | nil =>
    unfold fillLines
    cases line with
    | nil => rfl
    | cons word line => simp
  | cons word words ih =>
    unfold fillLines
    simp only
    split
    · rw [ih, List.append_assoc, List.singleton_append]
    · rw [List.flatten_cons, ih, List.singleton_append]

theorem ne_nil_of_mem_fillLines {used : α} {line made : List (List Char)}
    {words : List (List Char)} (member : made ∈ fillLines measure space width used line words) :
    made ≠ [] := by
  induction words generalizing used line with
  | nil =>
    unfold fillLines at member
    split at member
    · cases member
    · next some =>
      rw [List.mem_singleton.1 member]
      rintro rfl
      exact some rfl
  | cons word words ih =>
    unfold fillLines at member
    simp only at member
    split at member
    · exact ih member
    · next full =>
      rcases List.mem_cons.1 member with rfl | later
      · rintro rfl
        exact full rfl
      · exact ih later

/-- The lines of a piece of text; one without words gives one empty line. -/
def pieceLines (measure : List Char → α) (width : α) (piece : List Char) : List (List Char) :=
  match wrapWords measure width piece with
  | [] => [[]]
  | lines => lines

theorem wrapText_eq (content : String) (bold : Bool) (size width : α) :
    wrapText content bold size width =
      ((Text.splitFeeds content.toList).flatMap (pieceLines (charsWidth bold size) width)).map
        String.ofList := rfl

end Words

section Fill

variable {measure : List Char → Rat} {space width : Rat}

/-- What the words of a line take, with a space between each two. -/
def spread (measure : List Char → Rat) (space : Rat) (line : List (List Char)) : Rat :=
  (line.map fun word => space + measure word).sum - space

theorem spread_nil (measure : List Char → Rat) (space : Rat) :
    spread measure space [] = Scalar.zero - space := rfl

theorem spread_concat (line : List (List Char)) (word : List Char) :
    spread measure space (line ++ [word]) = spread measure space line + space + measure word := by
  unfold spread
  rw [List.map_append, List.sum_append, List.map_singleton, List.sum_singleton]
  ring

theorem spread_singleton (measure : List Char → Rat) (space : Rat) (word : List Char) :
    spread measure space [word] = measure word := by
  unfold spread
  rw [List.map_singleton, List.sum_singleton]
  ring

theorem taken_nonneg (spaced : 0 ≤ space) (nonneg : ∀ word, 0 ≤ measure word)
    (line : List (List Char)) : ∀ taken ∈ line.map fun word => space + measure word, 0 ≤ taken := by
  intro taken inside
  obtain ⟨word, _, rfl⟩ := List.mem_map.1 inside
  exact add_nonneg spaced (nonneg word)

/-- A word takes no more than its line. -/
theorem le_spread_of_mem (spaced : 0 ≤ space) (nonneg : ∀ word, 0 ≤ measure word)
    {word : List Char} {line : List (List Char)} (member : word ∈ line) :
    measure word ≤ spread measure space line := by
  have single := List.single_le_sum (taken_nonneg spaced nonneg line) _ (List.mem_map_of_mem member)
  unfold spread
  linarith

/-- Where measures add up, a line measures what its words take. -/
theorem measure_joinSpaced
    (adds : ∀ first second, measure (first ++ second) = measure first + measure second)
    {line : List (List Char)} (some : line ≠ []) :
    measure (Text.joinSpaced line) = spread measure (measure [' ']) line := by
  induction line with
  | nil => exact absurd rfl some
  | cons word line ih =>
    cases line with
    | nil => exact (spread_singleton measure (measure [' ']) word).symm
    | cons next line =>
      have joined : Text.joinSpaced (word :: next :: line) =
          word ++ ([' '] ++ Text.joinSpaced (next :: line)) := rfl
      rw [joined, adds, adds, ih (List.cons_ne_nil _ _)]
      simp only [spread, List.map_cons, List.sum_cons]
      ring

/-- A line is filled as long as it fits, so when every word fits alone every line does. -/
theorem fits_of_mem_fillLines {line words : List (List Char)}
    (own : line = [] ∨ spread measure space line ≤ width)
    (fits : ∀ word ∈ words, measure word ≤ width) :
    ∀ made ∈ fillLines measure space width (spread measure space line) line words,
      spread measure space made ≤ width := by
  induction words generalizing line with
  | nil =>
    intro made member
    unfold fillLines at member
    split at member
    · cases member
    · next some =>
      rw [List.mem_singleton.1 member]
      exact own.resolve_left fun none => some (by rw [none]; rfl)
  | cons word words ih =>
    obtain ⟨first, others⟩ := List.forall_mem_cons.1 fits
    have alone : spread measure space [word] ≤ width :=
      (spread_singleton measure space word).trans_le first
    unfold fillLines
    simp only [← spread_concat]
    split
    · next enters =>
      refine ih (Or.inr ?_) others
      rcases Bool.or_eq_true_iff.1 enters with none | fitting
      · rw [List.isEmpty_iff.1 none]
        exact alone
      · exact of_decide_eq_true fitting
    · next full =>
      intro made member
      rcases List.mem_cons.1 member with rfl | later
      · refine own.resolve_left ?_
        rintro rfl
        exact full rfl
      · rw [← spread_singleton measure space word] at later
        exact ih (Or.inr alone) others made later

end Fill

/-! ## Measures -/

section Widths

variable {bold : Bool} {size : Rat}

theorem glyphSum_append (bold : Bool) (first second : List Char) :
    glyphSum bold (first ++ second) = glyphSum bold first + glyphSum bold second := by
  induction first with
  | nil => exact (Nat.zero_add _).symm
  | cons c first ih => rw [List.cons_append, glyphSum, glyphSum, ih, Nat.add_assoc]

theorem charsWidth_rat (bold : Bool) (size : Rat) (text : List Char) :
    charsWidth bold size text = glyphSum bold text * (1 / 1000) * size := by
  have thousandth : (Scalar.ofRatio 1 1000 : Rat) = 1 / 1000 := by decide +kernel
  unfold charsWidth
  rw [Scalar.ofNat_rat, thousandth]

theorem charsWidth_append (bold : Bool) (size : Rat) (first second : List Char) :
    charsWidth bold size (first ++ second) =
      charsWidth bold size first + charsWidth bold size second := by
  rw [charsWidth_rat, charsWidth_rat, charsWidth_rat, glyphSum_append, Nat.cast_add]
  ring

theorem charsWidth_nil (bold : Bool) (size : Rat) : charsWidth bold size [] = 0 := by
  rw [charsWidth_rat, glyphSum, Nat.cast_zero, zero_mul, zero_mul]

theorem charsWidth_nonneg (upright : 0 ≤ size) (bold : Bool) (text : List Char) :
    0 ≤ charsWidth bold size text := by
  rw [charsWidth_rat]
  positivity

/-- The lines of a piece of text fit a width exactly when its words do. -/
theorem fits_wrapWords_iff (upright : 0 ≤ size) {width : Rat} (positive : 0 < width)
    (text : List Char) :
    (∀ line ∈ wrapWords (charsWidth bold size) width text, charsWidth bold size line ≤ width) ↔
      ∀ word ∈ Text.words text, charsWidth bold size word ≤ width := by
  have lines : wrapWords (charsWidth bold size) width text =
      (fillLines (charsWidth bold size) (charsWidth bold size [' ']) width
        (spread (charsWidth bold size) (charsWidth bold size [' ']) []) []
          (Text.words text)).map Text.joinSpaced := by
    unfold wrapWords
    rw [if_neg fun zero => absurd zero.1 (not_le.2 positive), spread_nil]
  have line {made : List (List Char)} (some : made ≠ []) :=
    measure_joinSpaced (charsWidth_append bold size) some
  rw [lines, List.forall_mem_map]
  constructor
  · intro fits word member
    rw [← List.nil_append (Text.words text), ← flatten_fillLines (charsWidth bold size),
      List.mem_flatten] at member
    obtain ⟨made, among, inside⟩ := member
    have nonneg := charsWidth_nonneg upright bold
    have joined := fits made among
    rw [line (List.ne_nil_of_mem inside)] at joined
    exact (le_spread_of_mem (nonneg [' ']) nonneg inside).trans joined
  · intro fits made among
    rw [line (ne_nil_of_mem_fillLines among)]
    exact fits_of_mem_fillLines (Or.inl rfl) fits made among

/-- The glyphs that are kept by code point are those of the table. -/
theorem mem_glyphTable_of_mem_lowGlyphs {glyph : Nat × Nat × Nat} (member : some glyph ∈ lowGlyphs) :
    ∃ code, (code, glyph) ∈ glyphTable := by
  have kept (table : List (Nat × Nat × Nat × Nat)) (low : Array (Option (Nat × Nat × Nat)))
      (member : some glyph ∈ table.foldl
        (fun low entry => if entry.1 < 256 then low.set! entry.1 (some entry.2) else low) low) :
      some glyph ∈ low ∨ ∃ code, (code, glyph) ∈ table := by
    induction table generalizing low with
    | nil => exact Or.inl member
    | cons entry table ih =>
      rw [List.foldl_cons] at member
      rcases ih _ member with before | ⟨code, later⟩
      · split at before
        · rcases Array.mem_or_eq_of_mem_setIfInBounds before with old | new
          · exact Or.inl old
          · refine Or.inr ⟨entry.1, ?_⟩
            rw [Option.some.inj new]
            exact List.mem_cons_self ..
        · exact Or.inl before
      · exact Or.inr ⟨code, List.mem_cons_of_mem _ later⟩
  unfold lowGlyphs at member
  rcases kept _ _ member with start | listed
  · exact absurd (Array.eq_of_mem_replicate start) nofun
  · exact listed

/-- Every glyph of the encoding has a width. -/
theorem glyph_widths_pos {c : Char} {byte regular heavy : Nat}
    (known : glyph? c = some (byte, regular, heavy)) : 0 < regular ∧ 0 < heavy := by
  have positive : ∀ entry ∈ glyphTable, 0 < entry.2.2.1 ∧ 0 < entry.2.2.2 := by decide +kernel
  suffices listed : ∃ code, (code, byte, regular, heavy) ∈ glyphTable by
    obtain ⟨code, member⟩ := listed
    exact positive _ member
  unfold glyph? at known
  split at known
  · exact mem_glyphTable_of_mem_lowGlyphs
      (Array.mem_of_getElem? (Option.join_eq_some_iff.1 known))
  · obtain ⟨before, after, whole, _⟩ := List.lookup_eq_some_iff.1 known
    exact ⟨c.toNat, by rw [whole]; simp⟩

theorem glyphWidth_pos (bold : Bool) (c : Char) : 0 < glyphWidth bold c := by
  unfold glyphWidth
  split
  · next known =>
    obtain ⟨regular, heavy⟩ := glyph_widths_pos known
    split
    · exact heavy
    · exact regular
  · exact Nat.succ_pos _

theorem charsWidth_singleton_pos (sized : 0 < size) (bold : Bool) (c : Char) :
    0 < charsWidth bold size [c] := by
  have some : 0 < glyphSum bold [c] := glyphWidth_pos bold c
  rw [charsWidth_rat]
  positivity

end Widths

/-! ## Texts -/

/-- The lines of a text fit a width above zero exactly when its words do. -/
theorem fits_wrapText_iff {size width : Rat} (upright : 0 ≤ size) (positive : 0 < width)
    (content : String) (bold : Bool) :
    (∀ line ∈ wrapText content bold size width, textWidth line bold size ≤ width) ↔
      ∀ word ∈ Text.words content.toList, charsWidth bold size word ≤ width := by
  -- A piece without words gives an empty line, which fits.
  have piece (text : List Char) :
      (∀ line ∈ pieceLines (charsWidth bold size) width text, charsWidth bold size line ≤ width) ↔
        ∀ word ∈ Text.words text, charsWidth bold size word ≤ width := by
    rw [← fits_wrapWords_iff upright positive]
    unfold pieceLines
    split
    · next none =>
      rw [none, List.forall_mem_singleton, charsWidth_nil]
      exact ⟨fun _ => nofun, fun _ => positive.le⟩
    · exact Iff.rfl
  unfold textWidth
  rw [wrapText_eq, List.forall_mem_map, Text.words_splitFeeds]
  simp only [String.toList_ofList, List.forall_mem_flatMap, piece]

/-! ## Drawn lines -/

end Page

/-- A text stands between two edges; other marks do not matter. -/
def Mark.TextBetween (left right : Rat) : Mark Rat → Prop
  | .text content x _ bold size anchor =>
    left ≤ anchor.leftEnd x (Page.textWidth content bold size) ∧
      anchor.leftEnd x (Page.textWidth content bold size) + Page.textWidth content bold size ≤ right
  | .line _ _ _ _ | .picture _ _ _ _ _ | .symbol _ _ _ _ => True

instance (left right : Rat) : (mark : Mark Rat) → Decidable (mark.TextBetween left right)
  | .text .. => inferInstanceAs (Decidable (_ ∧ _))
  | .line .. | .picture .. | .symbol .. => isTrue trivial

namespace Page

/-- A text that stands at its anchor between two edges stays between them when it is no wider than
they are apart. -/
theorem leftEnd_anchorX_iff (align : Alignment) (left right width : Rat) :
    left ≤ align.leftEnd (anchorX align left right) width ∧
        align.leftEnd (anchorX align left right) width + width ≤ right ↔
      width ≤ right - left := by
  have two : (Scalar.ofNat 2 : Rat) = 2 := Scalar.ofNat_rat 2
  cases align with
  | left =>
    simp only [anchorX, Alignment.leftEnd]
    constructor
    · rintro ⟨_, ends⟩
      linarith
    · intro fits
      exact ⟨le_rfl, by linarith⟩
  | center =>
    simp only [anchorX, Alignment.leftEnd, two]
    constructor
    · rintro ⟨_, ends⟩
      linarith
    · intro fits
      exact ⟨by linarith, by linarith⟩
  | right =>
    simp only [anchorX, Alignment.leftEnd]
    constructor
    · rintro ⟨starts, _⟩
      linarith
    · intro fits
      exact ⟨by linarith, by linarith⟩

/-- Lines that are drawn stay between the edges of the padded box exactly when they are no wider than
it. -/
theorem textBetween_drawLines_iff (setting : Setting Rat) (extent : Extent Rat)
    (look : TextLook Rat) (pen : Pen Rat) {left right : Rat}
    (leftEdge : extent.left + look.paddingLeft = left)
    (rightEdge : extent.right - look.paddingRight = right) (wide : left ≤ right)
    (lines : List String) :
    (∀ mark ∈ (drawLines setting extent look pen lines).marks, mark.TextBetween left right) ↔
      ∀ line ∈ lines, textWidth line look.bold look.pointSize ≤ right - left := by
  induction lines generalizing pen with
  | nil => exact ⟨fun _ => nofun, fun _ => nofun⟩
  | cons line lines ih =>
    unfold drawLines
    rw [Drawing.marks_andThen rfl, List.forall_mem_append, List.forall_mem_cons, ih]
    refine and_congr_left fun _ => ?_
    unfold drawLine
    simp only [leftEdge, rightEdge]
    rw [Drawing.marks_draw]
    split
    · next empty =>
      have none : textWidth line look.bold look.pointSize = 0 := by
        obtain rfl := String.isEmpty_iff.1 empty
        exact charsWidth_nil look.bold look.pointSize
      rw [none, sub_nonneg]
      exact ⟨fun _ => wide, fun _ => nofun⟩
    · rw [List.forall_mem_singleton]
      exact leftEnd_anchorX_iff look.align left right _

/-- What is drawn of a text stays in its padded box, when that is a point wide at least, exactly when
the lines it is broken to are no wider than the box. -/
theorem textBetween_drawText_iff (setting : Setting Rat) (pen : Pen Rat) (content : String)
    {look : TextLook Rat} {extent : Extent Rat} {left right width : Rat}
    (leftEdge : extent.left + look.paddingLeft = left)
    (rightEdge : extent.right - look.paddingRight = right) (paddingLeft : 0 ≤ look.paddingLeft)
    (paddingRight : 0 ≤ look.paddingRight) (apart : right - left = width) (point : 1 ≤ width) :
    (∀ mark ∈ (drawText setting pen content look extent).marks, mark.TextBetween left right) ↔
      ∀ line ∈ wrapText content look.bold look.pointSize width,
        textWidth line look.bold look.pointSize ≤ width := by
  have box : Scalar.max Scalar.one (extent.width - look.paddingLeft - look.paddingRight) =
      width := by
    have one : (Scalar.one : Rat) = 1 := Scalar.ofNat_rat 1
    have inner : extent.width = extent.right - extent.left := by
      unfold Extent.width
      rw [Scalar.max_rat, Scalar.zero_rat, max_eq_right (by linarith)]
    rw [Scalar.max_rat, one, inner, max_eq_right (by linarith)]
    linarith
  unfold drawText
  simp only [box, ← apart]
  exact textBetween_drawLines_iff setting extent look pen leftEdge rightEdge (by linarith) _

/-- The lines of a text fit a width that each of its characters fits exactly when its words do, and so
do the lines that are drawn of it in a padded box of that width. -/
theorem texts_fit_iff_words (content : String) (bold : Bool) {size width : Rat} (sized : 0 < size)
    (nonneg : 0 ≤ width) (wide : ∀ c ∈ content.toList, charsWidth bold size [c] ≤ width) :
    ((∀ line ∈ wrapText content bold size width, textWidth line bold size ≤ width) ↔
      ∀ word ∈ Text.words content.toList, charsWidth bold size word ≤ width) ∧
    ∀ (setting : Setting Rat) (pen : Pen Rat) (extent : Extent Rat) (look : TextLook Rat),
      look.bold = bold → look.pointSize = size → 0 ≤ look.paddingLeft → 0 ≤ look.paddingRight →
      extent.right - look.paddingRight - (extent.left + look.paddingLeft) = width → 1 ≤ width →
      ((∀ mark ∈ (drawText setting pen content look extent).marks,
          mark.TextBetween (extent.left + look.paddingLeft) (extent.right - look.paddingRight)) ↔
        ∀ word ∈ Text.words content.toList, charsWidth bold size word ≤ width) := by
  refine ⟨?_, ?_⟩
  · rcases nonneg.eq_or_lt with none | positive
    · -- Every character has a width, so a text that fits no width at all is empty.
      have empty : content = "" := by
        apply String.toList_eq_nil_iff.1
        apply List.eq_nil_iff_forall_not_mem.2
        intro c member
        have narrow := wide c member
        rw [← none] at narrow
        exact absurd narrow (not_le.2 (charsWidth_singleton_pos sized bold c))
      subst empty none
      refine ⟨fun _ => nofun, fun _ line member => ?_⟩
      obtain rfl : line = "" := List.mem_singleton.1 member
      exact (charsWidth_nil bold size).le
    · exact fits_wrapText_iff sized.le positive content bold
  · rintro setting pen extent look rfl rfl paddingLeft paddingRight rfl point
    rw [textBetween_drawText_iff setting pen content rfl rfl paddingLeft paddingRight rfl point]
    exact fits_wrapText_iff sized.le (by linarith) content look.bold

/-- The look of a plain text of ten points. -/
def plainLook (align : Alignment) : TextLook Rat := ⟨align, false, .normal, 10, 0, 0⟩

theorem plainLook_edges (align : Alignment) (width : Rat) :
    (⟨width, []⟩ : Extent Rat).left + (plainLook align).paddingLeft = 0 ∧
      (⟨width, []⟩ : Extent Rat).right - (plainLook align).paddingRight = width :=
  ⟨add_zero 0, (sub_zero _).trans (sub_zero width)⟩

theorem charsWidth_w : charsWidth false (10 : Rat) ['W'] = 944 / 100 := by decide +kernel

theorem charsWidth_ww : charsWidth false (10 : Rat) ['W', 'W'] = 1888 / 100 := by
  have both := charsWidth_append false 10 ['W'] ['W']
  rw [charsWidth_w] at both
  exact both.trans (by norm_num)

theorem words_ww : Text.words "WW".toList = [['W', 'W']] := by decide +kernel

theorem texts_fit_iff_words_wideBox :
    (∀ c ∈ "WW".toList, charsWidth false (10 : Rat) [c] ≤ 20) ∧
      (∀ line ∈ wrapText "WW" false (10 : Rat) 20, textWidth line false (10 : Rat) ≤ 20) ∧
      ∀ mark ∈ (drawText .usual .atTop "WW" (plainLook .right) ⟨20, []⟩).marks,
        mark.TextBetween 0 20 := by
  have wide : ∀ c ∈ "WW".toList, charsWidth false (10 : Rat) [c] ≤ 20 := by
    intro c member
    obtain rfl : c = 'W' := by simpa using member
    rw [charsWidth_w]
    norm_num
  have words : ∀ word ∈ Text.words "WW".toList, charsWidth false (10 : Rat) word ≤ 20 := by
    rw [words_ww, List.forall_mem_singleton, charsWidth_ww]
    norm_num
  obtain ⟨lines, drawn⟩ := texts_fit_iff_words "WW" false (by decide) (by decide) wide
  refine ⟨wide, lines.2 words, ?_⟩
  obtain ⟨left, right⟩ := plainLook_edges .right 20
  have box := drawn .usual .atTop ⟨20, []⟩ (plainLook .right) rfl rfl le_rfl le_rfl
  rw [left, right] at box
  exact (box (by norm_num) (by norm_num)).2 words

/-- A word of two letters is left whole in a box that has room for either letter alone. -/
theorem not_texts_fit_wideWord :
    (∀ c ∈ "WW".toList, charsWidth false (10 : Rat) [c] ≤ 10) ∧
      ¬ (∀ line ∈ wrapText "WW" false (10 : Rat) 10, textWidth line false (10 : Rat) ≤ 10) ∧
      ∀ align, ¬ ∀ mark ∈ (drawText .usual .atTop "WW" (plainLook align) ⟨10, []⟩).marks,
        mark.TextBetween 0 10 := by
  have overflows : ¬ ∀ line ∈ wrapText "WW" false (10 : Rat) 10,
      textWidth line false (10 : Rat) ≤ 10 := by
    rw [fits_wrapText_iff (by decide) (by decide), words_ww, List.forall_mem_singleton,
      charsWidth_ww]
    norm_num
  refine ⟨fun c member => ?_, overflows, fun align => ?_⟩
  · obtain rfl : c = 'W' := by simpa using member
    rw [charsWidth_w]
    norm_num
  · obtain ⟨left, right⟩ := plainLook_edges align 10
    rw [textBetween_drawText_iff .usual .atTop "WW" left right le_rfl le_rfl (sub_zero 10)
      (by norm_num)]
    exact overflows

end Page

end Receipt
