import Mathlib.Data.List.Flatten
import Receipt.Text.Wrap

/-!
# Wrapped lines fit

Each line that `wrapText` gives has at most as many characters as there are columns, and no line
feed: what is printed as one line stays one line. A line is made of pieces of chunks, and the chunks
are made of text in which every spacing character has become a space.

`mem_of_mem_wrapText` says which characters a line is made of: spaces, and characters of the text that
end no line.
-/

namespace Receipt.Text

/-! ## Chunks are made of the text -/

theorem mem_of_mem_consChunk {c d : Char} {chunks : List (List Char)}
    (member : d ∈ (consChunk c chunks).flatten) : d = c ∨ d ∈ chunks.flatten := by
  unfold consChunk at member
  split at member
  · exact Or.inl (by simpa using member)
  · simpa using member
  · split at member
    · simpa using member
    · simpa using member

theorem mem_of_mem_chunksOf {d : Char} {text : List Char}
    (member : d ∈ (chunksOf text).flatten) : d ∈ text := by
  induction text with
  | nil => cases member
  | cons c rest ih =>
    rcases mem_of_mem_consChunk member with rfl | inside
    · exact List.mem_cons_self ..
    · exact List.mem_cons_of_mem _ (ih inside)

/-- No line feed is left where spacing has become spaces. -/
theorem lineFeed_not_mem_levelSpacing (text : List Char) : '\n' ∉ levelSpacing text := by
  intro member
  obtain ⟨c, _, same⟩ := List.mem_map.1 member
  split at same
  · exact absurd same (by decide)
  · rename_i printing
    exact printing (by rw [same]; decide)

/-! ## Lines are made of chunks -/

theorem mem_of_mem_fillLine {width : Nat} {c : Char} {chunks : List (List Char)}
    (member : c ∈ (fillLine width chunks).1.flatten ∨ c ∈ (fillLine width chunks).2.flatten) :
    c ∈ chunks.flatten := by
  have whole : ((takeFitting width chunks).1 ++ (takeFitting width chunks).2).flatten =
      chunks.flatten := by rw [takeFitting_append]
  rw [← whole, List.flatten_append, List.mem_append]
  unfold fillLine at member
  simp only at member
  split at member
  · rename_i chunk rest left
    rw [left]
    split at member
    · simp only [List.flatten_append, List.flatten_cons, List.flatten_nil, List.append_nil,
        List.mem_append] at member ⊢
      rcases member with (taken | cut) | kept | later
      · exact Or.inl taken
      · exact Or.inr (Or.inl (List.mem_of_mem_take cut))
      · exact Or.inr (Or.inl (List.mem_of_mem_drop kept))
      · exact Or.inr (Or.inr later)
    · rw [← left]
      exact member
  · rename_i left
    rw [left]
    exact member

/-- A line that is filled has at most `width` characters. -/
theorem length_fillLine_le (width : Nat) (chunks : List (List Char)) :
    (fillLine width chunks).1.flatten.length ≤ width := by
  have taken := takeFitting_length_le width chunks
  unfold fillLine
  simp only
  split
  · split
    · simp only [List.flatten_append, List.flatten_cons, List.flatten_nil, List.append_nil,
        List.length_append, List.length_take]
      omega
    · exact taken
  · exact taken

theorem mem_of_mem_dropTrailing {chunk : List Char} {line : List (List Char)}
    (member : chunk ∈ dropTrailing line) : chunk ∈ line := by
  unfold dropTrailing at member
  split at member
  · split at member
    · exact List.dropLast_subset line member
    · exact member
  · exact member

theorem length_dropTrailing_le (line : List (List Char)) :
    (dropTrailing line).flatten.length ≤ line.flatten.length := by
  unfold dropTrailing
  split
  · split
    · exact (List.dropLast_sublist line).flatten.length_le
    · exact Nat.le_refl _
  · exact Nat.le_refl _

theorem mem_of_mem_dropLeading {started : Bool} {c : Char} {chunks : List (List Char)}
    (member : c ∈ (dropLeading started chunks).flatten) : c ∈ chunks.flatten := by
  unfold dropLeading at member
  split at member
  · exact member
  · split at member
    · exact List.mem_append_right _ member
    · exact member

theorem wrapChunks_of_nil {width : Nat} {positive : 0 < width} {started : Bool}
    {chunks : List (List Char)} (left : dropLeading started chunks = []) :
    wrapChunks width positive started chunks = [] := by
  rw [wrapChunks]
  split
  · rfl
  · rename_i other
    rw [left] at other
    cases other

theorem wrapChunks_of_cons {width : Nat} {positive : 0 < width} {started : Bool}
    {chunks rest : List (List Char)} {chunk : List Char}
    (left : dropLeading started chunks = chunk :: rest) :
    wrapChunks width positive started chunks =
      if (dropTrailing (fillLine width (chunk :: rest)).1).isEmpty then
        wrapChunks width positive started (fillLine width (chunk :: rest)).2
      else
        (dropTrailing (fillLine width (chunk :: rest)).1).flatten ::
          wrapChunks width positive true (fillLine width (chunk :: rest)).2 := by
  rw [wrapChunks]
  split
  · rename_i other
    rw [left] at other
    cases other
  · rename_i other
    rw [left] at other
    obtain ⟨rfl, rfl⟩ := List.cons.inj other
    rfl

/-- Each wrapped line fits, and its characters are those of the chunks. -/
theorem fits_of_mem_wrapChunks {width : Nat} {positive : 0 < width} {started : Bool}
    {chunks : List (List Char)} {line : List Char}
    (member : line ∈ wrapChunks width positive started chunks) :
    line.length ≤ width ∧ ∀ c ∈ line, c ∈ chunks.flatten := by
  induction started, chunks using wrapChunks.induct width positive with
  | case1 started chunks left =>
    rw [wrapChunks_of_nil left] at member
    cases member
  | case2 started chunks chunk rest left filled current empty ih =>
    rw [wrapChunks_of_cons left, if_pos empty] at member
    refine ⟨(ih member).1, fun c inside => ?_⟩
    have kept := mem_of_mem_fillLine (Or.inr ((ih member).2 c inside))
    rw [← left] at kept
    exact mem_of_mem_dropLeading kept
  | case3 started chunks chunk rest left filled current shows ih =>
    rw [wrapChunks_of_cons left, if_neg shows] at member
    rcases List.mem_cons.1 member with rfl | later
    · refine ⟨Nat.le_trans (length_dropTrailing_le _) (length_fillLine_le width _),
        fun c inside => ?_⟩
      obtain ⟨piece, inLine, inPiece⟩ := List.mem_flatten.1 inside
      have kept : c ∈ (fillLine width (chunk :: rest)).1.flatten :=
        List.mem_flatten.2 ⟨piece, mem_of_mem_dropTrailing inLine, inPiece⟩
      have used := mem_of_mem_fillLine (Or.inl kept)
      rw [← left] at used
      exact mem_of_mem_dropLeading used
    · refine ⟨(ih later).1, fun c inside => ?_⟩
      have kept := mem_of_mem_fillLine (Or.inr ((ih later).2 c inside))
      rw [← left] at kept
      exact mem_of_mem_dropLeading kept

/-- Each line of a wrapped source line fits and has no line feed. -/
theorem fits_of_mem_wrapLine {width : Nat} {positive : 0 < width} {source line : List Char}
    (member : line ∈ wrapLine width positive source) : line.length ≤ width ∧ '\n' ∉ line := by
  unfold wrapLine at member
  split at member
  · rw [List.mem_singleton.1 member]
    exact ⟨Nat.zero_le _, by simp⟩
  · obtain ⟨short, made⟩ := fits_of_mem_wrapChunks member
    refine ⟨short, fun feed => ?_⟩
    exact lineFeed_not_mem_levelSpacing source (mem_of_mem_chunksOf (made _ feed))

/-- Each line of a wrapped text fits the columns and has no line feed. -/
theorem fits_of_mem_wrapText {content line : String} {columns : Int} (positive : 1 ≤ columns)
    (member : line ∈ wrapText content columns) :
    (line.toList.length : Int) ≤ columns ∧ '\n' ∉ line.toList := by
  unfold wrapText at member
  obtain ⟨text, wrapped, rfl⟩ := List.mem_map.1 member
  obtain ⟨source, _, inside⟩ := List.mem_flatMap.1 wrapped
  obtain ⟨short, printing⟩ := fits_of_mem_wrapLine inside
  rw [String.toList_ofList]
  exact ⟨by omega, printing⟩

/-! ## The characters of a line -/

theorem mem_of_mem_expandTabs {c : Char} {column : Nat} {text : List Char}
    (member : c ∈ expandTabs column text) : c = ' ' ∨ c ∈ text := by
  fun_induction expandTabs column text with
  | case1 => cases member
  | case2 column rest width ih =>
    rcases List.mem_append.1 member with blank | later
    · exact Or.inl (List.eq_of_mem_replicate blank)
    · exact (ih later).imp_right (List.mem_cons_of_mem _)
  | case3 column d rest _ _ ih =>
    rcases List.mem_cons.1 member with rfl | later
    · exact Or.inr (List.mem_cons_self ..)
    · exact (ih later).imp_right (List.mem_cons_of_mem _)
  | case4 column d rest _ _ ih =>
    rcases List.mem_cons.1 member with rfl | later
    · exact Or.inr (List.mem_cons_self ..)
    · exact (ih later).imp_right (List.mem_cons_of_mem _)

theorem mem_of_mem_levelSpacing {c : Char} {text : List Char} (member : c ∈ levelSpacing text) :
    c = ' ' ∨ c ∈ text := by
  obtain ⟨d, inside, same⟩ := List.mem_map.1 member
  split at same
  · exact Or.inl same.symm
  · exact same ▸ mem_of_mem_expandTabs inside

/-- A line that was cut at line ends has none. -/
theorem mem_of_mem_splitLines {c : Char} {text line : List Char} (member : line ∈ splitLines text)
    (inside : c ∈ line) : c ∈ text ∧ Character.isLineEnd c = false := by
  fun_induction splitLines text generalizing line with
  | case1 => cases member
  | case2 rest ih =>
    rcases List.mem_cons.1 member with rfl | later
    · cases inside
    · obtain ⟨own, stays⟩ := ih later inside
      exact ⟨List.mem_cons_of_mem _ (List.mem_cons_of_mem _ own), stays⟩
  | case3 d rest _ _ ih =>
    rcases List.mem_cons.1 member with rfl | later
    · cases inside
    · obtain ⟨own, stays⟩ := ih later inside
      exact ⟨List.mem_cons_of_mem _ own, stays⟩
  | case4 d rest _ stays ih =>
    have first : c = d → c ∈ d :: rest ∧ Character.isLineEnd c = false := by
      rintro rfl
      exact ⟨List.mem_cons_self .., Bool.eq_false_iff.2 stays⟩
    cases lines : splitLines rest with
    | nil =>
      rw [lines] at member
      obtain rfl := List.mem_singleton.1 member
      exact first (List.mem_singleton.1 inside)
    | cons piece pieces =>
      rw [lines] at member ih
      have kept (other : List Char) (among : other ∈ piece :: pieces) (own : c ∈ other) :
          c ∈ d :: rest ∧ Character.isLineEnd c = false :=
        (ih among own).imp_left (List.mem_cons_of_mem _)
      rcases List.mem_cons.1 member with rfl | later
      · rcases List.mem_cons.1 inside with same | own
        · exact first same
        · exact kept piece (List.mem_cons_self ..) own
      · exact kept line (List.mem_cons_of_mem _ later) inside

theorem mem_of_mem_wrapLine {c : Char} {width : Nat} {positive : 0 < width}
    {source line : List Char} (member : line ∈ wrapLine width positive source) (inside : c ∈ line) :
    c = ' ' ∨ c ∈ source := by
  unfold wrapLine at member
  split at member
  · rw [List.mem_singleton.1 member] at inside
    cases inside
  · have made := (fits_of_mem_wrapChunks member).2 c inside
    exact mem_of_mem_levelSpacing (mem_of_mem_chunksOf made)

/-- A wrapped text has no other characters than spaces and those of the text that end no line. -/
theorem mem_of_mem_wrapText {c : Char} {content line : String} {columns : Int}
    (member : line ∈ wrapText content columns) (inside : c ∈ line.toList) :
    c = ' ' ∨ c ∈ content.toList ∧ Character.isLineEnd c = false := by
  unfold wrapText at member
  obtain ⟨text, wrapped, rfl⟩ := List.mem_map.1 member
  obtain ⟨source, among, wraps⟩ := List.mem_flatMap.1 wrapped
  rw [String.toList_ofList] at inside
  refine (mem_of_mem_wrapLine wraps inside).imp_right fun own => ?_
  split at among
  · rw [List.mem_singleton.1 among] at own
    cases own
  · exact mem_of_mem_splitLines among own

end Receipt.Text
