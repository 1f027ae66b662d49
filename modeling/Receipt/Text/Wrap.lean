import Receipt.Text.Lines

/-!
# Word wrapping in character cells

A source line is made of *chunks*: runs of spacing characters, turned into spaces after tabs have
been expanded to columns that are multiples of eight, and the runs between them. Chunks are put on a
line as long as they fit. A chunk longer than a whole line is cut at the room that is left. Blank
chunks are dropped at the end of a line, and at its start from the second line on.

A line that is full exactly when a chunk longer than a line follows keeps its trailing blank chunk:
the long chunk contributes an empty piece, and it is that piece that is dropped.

`wrapLine` is a recursion on the chunks that are left, measured by their characters and their
number: every line takes away at least one of the two.
-/

namespace Receipt.Text

open Receipt.Character (isSpacing)

/-- Expands tabs to the next column that is a multiple of eight. -/
def expandTabs (column : Nat) : List Char → List Char
  | [] => []
  | '\t' :: rest =>
    let width := 8 - column % 8
    List.replicate width ' ' ++ expandTabs (column + width) rest
  | c :: rest =>
    if c = '\n' ∨ c = '\r' then c :: expandTabs 0 rest else c :: expandTabs (column + 1) rest

/-- Tabs expanded and every spacing character turned into a space. -/
def levelSpacing (text : List Char) : List Char :=
  (expandTabs 0 text).map fun c => if isSpacing c then ' ' else c

/-- Puts a character into the first chunk when it is of the same kind, and else before it. -/
def consChunk (c : Char) : List (List Char) → List (List Char)
  | [] => [[c]]
  | [] :: chunks => [c] :: chunks
  | (d :: chunk) :: chunks =>
    if (c == ' ') == (d == ' ') then (c :: d :: chunk) :: chunks
    else [c] :: (d :: chunk) :: chunks

/-- The longest runs of spaces and of other characters, in order. -/
def chunksOf : List Char → List (List Char)
  | [] => []
  | c :: rest => consChunk c (chunksOf rest)

/-- What the chunks left to place weigh: their characters and their number. -/
def chunkWeight (chunks : List (List Char)) : Nat := chunks.flatten.length + chunks.length

/-- The chunks that fit into `room` cells one after the other, and those that are left. -/
def takeFitting : Nat → List (List Char) → List (List Char) × List (List Char)
  | _, [] => ([], [])
  | room, chunk :: chunks =>
    if chunk.length ≤ room then
      let (taken, left) := takeFitting (room - chunk.length) chunks
      (chunk :: taken, left)
    else ([], chunk :: chunks)

/-- Drops the first chunk when it is blank and a line has been written before. -/
def dropLeading (started : Bool) : List (List Char) → List (List Char)
  | [] => []
  | chunk :: chunks => if started && isBlankText chunk then chunks else chunk :: chunks

/-- Drops the last chunk of a line when it is blank. -/
def dropTrailing (line : List (List Char)) : List (List Char) :=
  match line.getLast? with
  | some chunk => if isBlankText chunk then line.dropLast else line
  | none => line

/-- One line of at most `width` cells: the chunks that fit, then the beginning of a chunk that is
longer than a whole line; and the chunks left for the next lines. -/
def fillLine (width : Nat) (chunks : List (List Char)) : List (List Char) × List (List Char) :=
  let (taken, left) := takeFitting width chunks
  match left with
  | chunk :: rest =>
    if width < chunk.length then
      let room := width - taken.flatten.length
      (taken ++ [chunk.take room], chunk.drop room :: rest)
    else (taken, left)
  | [] => (taken, [])

theorem chunkWeight_cons (chunk : List Char) (chunks : List (List Char)) :
    chunkWeight (chunk :: chunks) = chunk.length + 1 + chunkWeight chunks := by
  simp [chunkWeight]
  omega

theorem chunkWeight_append (first second : List (List Char)) :
    chunkWeight (first ++ second) = chunkWeight first + chunkWeight second := by
  simp [chunkWeight]
  omega

theorem takeFitting_append (room : Nat) (chunks : List (List Char)) :
    (takeFitting room chunks).1 ++ (takeFitting room chunks).2 = chunks := by
  induction chunks generalizing room with
  | nil => rfl
  | cons chunk chunks ih =>
    by_cases fits : chunk.length ≤ room
    · simp [takeFitting, fits, ih]
    · simp [takeFitting, fits]

theorem takeFitting_length_le (room : Nat) (chunks : List (List Char)) :
    (takeFitting room chunks).1.flatten.length ≤ room := by
  induction chunks generalizing room with
  | nil => simp [takeFitting]
  | cons chunk chunks ih =>
    by_cases fits : chunk.length ≤ room
    · have := ih (room - chunk.length)
      simp [takeFitting, fits] at this ⊢
      omega
    · simp [takeFitting, fits]

theorem chunkWeight_dropLeading (started : Bool) (chunks : List (List Char)) :
    chunkWeight (dropLeading started chunks) ≤ chunkWeight chunks := by
  cases chunks with
  | nil => simp [dropLeading]
  | cons chunk chunks =>
    simp only [dropLeading]
    split <;> simp [chunkWeight_cons]

/-- A line of at least one cell takes something away from the chunks. -/
theorem chunkWeight_fillLine (width : Nat) (positive : 0 < width) (chunk : List Char)
    (chunks : List (List Char)) :
    chunkWeight (fillLine width (chunk :: chunks)).2 < chunkWeight (chunk :: chunks) := by
  have split := takeFitting_append width (chunk :: chunks)
  have weight := congrArg chunkWeight split
  rw [chunkWeight_append] at weight
  by_cases fits : chunk.length ≤ width
  · have taken : 0 < chunkWeight (takeFitting width (chunk :: chunks)).1 := by
      simp only [takeFitting, fits, if_true, chunkWeight_cons]
      omega
    simp only [fillLine]
    split
    · rename_i next rest left
      split
      · rw [left] at weight
        simp only [chunkWeight_cons, List.length_drop] at weight ⊢
        omega
      · show chunkWeight (takeFitting width (chunk :: chunks)).2 < _
        omega
    · rename_i left
      rw [left] at weight
      show chunkWeight ([] : List (List Char)) < _
      omega
  · have long : width < chunk.length := by omega
    simp only [fillLine, takeFitting, fits, if_false, long, if_true, List.flatten_nil,
      List.length_nil, Nat.sub_zero, chunkWeight_cons, List.length_drop]
    omega

/-- The lines of the chunks that are left; `started` says that a line has been written. -/
def wrapChunks (width : Nat) (positive : 0 < width) (started : Bool)
    (chunks : List (List Char)) : List (List Char) :=
  match _left : dropLeading started chunks with
  | [] => []
  | chunk :: rest =>
    let filled := fillLine width (chunk :: rest)
    let line := dropTrailing filled.1
    if line.isEmpty then wrapChunks width positive started filled.2
    else line.flatten :: wrapChunks width positive true filled.2
termination_by chunkWeight chunks
decreasing_by
  all_goals
    have lighter := chunkWeight_fillLine width positive chunk rest
    have dropped := chunkWeight_dropLeading started chunks
    rw [_left] at dropped
    omega

/-- The lines of one source line; a line without a printing chunk gives one empty line. -/
def wrapLine (width : Nat) (positive : 0 < width) (line : List Char) : List (List Char) :=
  match wrapChunks width positive false (chunksOf (levelSpacing line)) with
  | [] => [[]]
  | lines => lines

/-- Cuts a text at its line ends and wraps each line to `columns` cells, at least one. -/
def wrapText (text : String) (columns : Int) : List String :=
  let lines := match splitLines text.toList with
    | [] => [[]]
    | lines => lines
  let width := max 1 columns.toNat
  have positive : 0 < width := by omega
  (lines.flatMap (wrapLine width positive)).map String.ofList

end Receipt.Text
