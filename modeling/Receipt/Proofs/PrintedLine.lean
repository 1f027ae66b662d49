import Receipt.Proofs.Faithful

/-!
# The lines of a receipt

A printed line is what stands between two line ends: texts, each in its face. `printedLines` cuts
the pieces of a receipt into lines. `Leaves` says which lines some pieces leave whatever follows
them, so it holds only of pieces that end the lines they begin, and the lines of a receipt are put
together from those of its sheets.
-/

namespace Receipt

/-- A line on the paper: its texts, each with the face it is printed in. -/
abbrev PrintedLine := List (List UInt8 × Face)

/-- How many bytes of text a line has. -/
def PrintedLine.glyphs : PrintedLine → Nat
  | [] => 0
  | piece :: line => piece.1.length + glyphs line

theorem PrintedLine.glyphs_append (first second : PrintedLine) :
    glyphs (first ++ second) = first.glyphs + second.glyphs := by
  induction first with
  | nil => exact (Nat.zero_add _).symm
  | cons piece first ih => rw [List.cons_append, glyphs, glyphs, ih, Nat.add_assoc]

/-- The lines of some pieces, behind what already stands on the first of them. A last line that
nothing ends is a line when it has text. -/
def linesBehind (line : PrintedLine) : List Imprint → List PrintedLine
  | [] => if line.isEmpty then [] else [line]
  | .text bytes face :: rest => linesBehind (line ++ [(bytes, face)]) rest
  | .lineEnd :: rest => line :: linesBehind [] rest
  | .raster _ _ _ _ :: rest | .symbol _ _ :: rest => linesBehind line rest

/-- The lines of a receipt. -/
def printedLines (imprints : List Imprint) : List PrintedLine := linesBehind [] imprints

/-- Some pieces leave lines, and end the last of them. -/
def Leaves (imprints : List Imprint) (lines : List PrintedLine) : Prop :=
  ∀ rest, printedLines (imprints ++ rest) = lines ++ printedLines rest

namespace Leaves

theorem printedLines_eq {imprints : List Imprint} {lines : List PrintedLine}
    (leaves : Leaves imprints lines) : printedLines imprints = lines := by
  have whole := leaves []
  rw [List.append_nil] at whole
  rw [whole]
  exact List.append_nil lines

theorem nil : Leaves [] [] := fun _ => rfl

theorem append {first second : List Imprint} {before behind : List PrintedLine}
    (former : Leaves first before) (latter : Leaves second behind) :
    Leaves (first ++ second) (before ++ behind) := by
  intro rest
  rw [List.append_assoc, former, latter, List.append_assoc]

theorem lineEnds (count : Nat) :
    Leaves (List.replicate count .lineEnd) (List.replicate count []) := by
  induction count with
  | zero => exact nil
  | succ count ih =>
    intro rest
    rw [List.replicate_succ, List.replicate_succ, List.cons_append, List.cons_append, ← ih]
    rfl

theorem raster (rowBytes rows : Nat) (data : List UInt8) (align : Alignment) :
    Leaves [.raster rowBytes rows data align] [] := fun _ => rfl

theorem symbol (functions : List UInt8) (align : Alignment) :
    Leaves [.symbol functions align] [] := fun _ => rfl

/-- Entries that end their lines leave theirs one behind the other. -/
theorem flatMap {ι : Type} {entries : List ι} {imprints : ι → List Imprint}
    (each : ∀ entry ∈ entries, Leaves (imprints entry) (printedLines (imprints entry))) :
    printedLines (entries.flatMap imprints) =
      entries.flatMap fun entry => printedLines (imprints entry) := by
  induction entries with
  | nil => rfl
  | cons entry entries ih =>
    rw [List.flatMap_cons, List.flatMap_cons, each entry (List.mem_cons_self ..),
      ih fun other member => each other (List.mem_cons_of_mem _ member)]

end Leaves

namespace Sheet

/-- The texts that a line of its own shows. -/
def pieces (face : Face) (content : String) : PrintedLine :=
  if content.isEmpty then [] else [(Codepage.encode content.toList, face)]

theorem linesBehind_part (line : PrintedLine) (face : Face) (content : String)
    (rest : List Imprint) :
    linesBehind line (part face content ++ rest) =
      linesBehind (line ++ pieces face content) rest := by
  unfold part pieces
  split
  · rw [List.append_nil]
    rfl
  · rfl

theorem leaves_line (face : Face) (content : String) :
    Leaves (line face content) [pieces face content] := by
  intro rest
  unfold line printedLines
  rw [List.append_assoc, linesBehind_part]
  rfl

theorem leaves_lines (face : Face) (contents : List String) :
    Leaves (contents.flatMap (line face)) (contents.map (pieces face)) := by
  induction contents with
  | nil => exact Leaves.nil
  | cons content contents ih =>
    rw [List.flatMap_cons, List.map_cons]
    exact (leaves_line face content).append ih

/-- One byte for each character. -/
theorem glyphs_pieces (face : Face) (content : String) :
    (pieces face content).glyphs = content.toList.length := by
  unfold pieces
  split
  · rename_i empty
    rw [String.isEmpty_iff.1 empty]
    rfl
  · simp [PrintedLine.glyphs, Codepage.encode]

theorem face_of_mem_pieces {face : Face} {content : String} {piece : List UInt8 × Face}
    (member : piece ∈ pieces face content) : piece.2 = face := by
  unfold pieces at member
  split at member
  · cases member
  · rw [List.mem_singleton.1 member]

/-- The texts of the parts of a row. -/
def segmentPieces (weight : Bool) : List Segment → PrintedLine
  | [] => []
  | segment :: segments =>
    let own := if Text.isBlankText segment.text.toList then weight else segment.bold
    pieces ⟨.left, .normal, own⟩ segment.text ++ segmentPieces own segments

theorem linesBehind_ofSegments (line : PrintedLine) (weight : Bool) (segments : List Segment)
    (rest : List Imprint) :
    linesBehind line ((ofSegments weight segments).imprints ++ rest) =
      linesBehind (line ++ segmentPieces weight segments) rest := by
  induction segments generalizing line weight with
  | nil => exact congrArg (fun line => linesBehind line rest) (List.append_nil line).symm
  | cons segment segments ih =>
    unfold ofSegments segmentPieces
    simp only
    rw [List.append_assoc, linesBehind_part, ih, List.append_assoc]

/-- The parts of a row and the line end behind them are one line. -/
theorem leaves_ofSegments (weight : Bool) (segments : List Segment) :
    Leaves ((ofSegments weight segments).imprints ++ [.lineEnd])
      [segmentPieces weight segments] := by
  intro rest
  unfold printedLines
  rw [List.append_assoc, linesBehind_ofSegments]
  rfl

theorem face_of_mem_segmentPieces {weight : Bool} {segments : List Segment}
    {piece : List UInt8 × Face} (member : piece ∈ segmentPieces weight segments) :
    piece.2.size = .normal := by
  induction segments generalizing weight with
  | nil => cases member
  | cons segment segments ih =>
    rcases List.mem_append.1 member with own | later
    · rw [face_of_mem_pieces own]
    · exact ih later

end Sheet

/-! ## Line feeds -/

namespace Codepage

theorem length_upperHalf : upperHalf.length = 128 := by decide +kernel

/-- Apart from the bytes that stand for others as well, an ASCII byte is printed for its own
character only. -/
theorem printedByte_eq_iff {c : Char} {byte : UInt8} (ascii : byte.toNat < 128)
    (noSpace : byte ≠ 0x20) (noFallback : byte ≠ fallback) :
    printedByte c = byte ↔ c.toNat = byte.toNat := by
  unfold printedByte byte?
  split
  · next noBreak =>
    refine ⟨fun same => absurd same.symm noSpace, fun same => ?_⟩
    omega
  · split
    · next below =>
      have fits : c.toNat < 256 := by omega
      refine ⟨fun same => ?_, fun same => ?_⟩
      · rw [← same]
        exact (UInt8.toNat_ofNat_of_lt' fits).symm
      · rw [same]
        exact UInt8.ofNat_toNat
    · next above =>
      have differs : c.toNat ≠ byte.toNat := by omega
      refine ⟨fun same => ?_, fun same => absurd same differs⟩
      cases found : upperHalf.findIdx? (· == c.toNat) with
      | none =>
        rw [found] at same
        exact absurd same.symm noFallback
      | some i =>
        obtain ⟨inside, _⟩ := List.findIdx?_eq_some_iff_getElem.1 found
        rw [length_upperHalf] at inside
        have fits : 128 + i < 256 := by omega
        rw [found] at same
        have value : (UInt8.ofNat (128 + i)).toNat = byte.toNat := congrArg UInt8.toNat same
        rw [UInt8.toNat_ofNat_of_lt' fits] at value
        omega

/-- Only the line feed is printed as one. -/
theorem eq_lineFeed_of_printedByte {c : Char} (feeds : printedByte c = 0x0A) : c = '\n' :=
  Char.toNat_inj.1 ((printedByte_eq_iff (by decide) (by decide) (by decide)).1 feeds)

theorem lineFeed_not_mem_encode {text : List Char} (printing : '\n' ∉ text) :
    (0x0A : UInt8) ∉ encode text := by
  intro member
  obtain ⟨c, inside, feeds⟩ := List.mem_map.1 member
  exact printing (eq_lineFeed_of_printedByte feeds ▸ inside)

end Codepage

end Receipt
