import Receipt.Proofs.Boxes
import Receipt.Proofs.PrintedLine
import Receipt.Proofs.RowLine
import Receipt.Proofs.Wrap

/-!
# No line overflows

With widths that are exact, no line of a receipt is wider than the paper, nor than any page or view
around the element that printed it; only a single character in a size that is too wide for its box
sticks out. `Scheme.FitsAround` says this of a line, `printTree_fits` of every line of a tree.

Each kind of step has a lemma that its sheet is `Neat`: it ends the lines it begins, all of them
fit, and no text contains a line feed that would split one.
-/

namespace Receipt

/-- A line is printed in characters of one width, and is no wider than any width around its site,
a single character apart. -/
def Scheme.FitsAround (scheme : Scheme Rat) (pageWidth : Rat) (site : Site) (line : PrintedLine) :
    Prop :=
  ∃ multiplier : Int, 1 ≤ multiplier ∧ (∀ piece ∈ line, piece.2.size.width = multiplier) ∧
    ∀ width, scheme.Encloses pageWidth site.chain width →
      (line.glyphs : Rat) * multiplier ≤ max width multiplier

/-- Some pieces end the lines they begin, their lines have a property, and their texts have no line
feed. -/
structure Neat (property : PrintedLine → Prop) (imprints : List Imprint) : Prop where
  lines : ∃ lines, Leaves imprints lines ∧ ∀ line ∈ lines, property line
  feeds : ∀ bytes face, .text bytes face ∈ imprints → (0x0A : UInt8) ∉ bytes

namespace Neat

variable {property : PrintedLine → Prop}

theorem nil : Neat property [] where
  lines := ⟨[], Leaves.nil, fun line member => by cases member⟩
  feeds bytes face member := by cases member

theorem lineEnds (empty : property []) (count : Nat) :
    Neat property (List.replicate count .lineEnd) where
  lines := ⟨_, Leaves.lineEnds count, fun line member => by
    rw [List.eq_of_mem_replicate member]
    exact empty⟩
  feeds bytes face member := by cases List.eq_of_mem_replicate member

theorem raster (rowBytes rows : Nat) (data : List UInt8) (align : Alignment) :
    Neat property [.raster rowBytes rows data align] where
  lines := ⟨[], Leaves.raster rowBytes rows data align, fun line member => by cases member⟩
  feeds bytes face member := by cases List.mem_singleton.1 member

theorem symbol (functions : List UInt8) (align : Alignment) :
    Neat property [.symbol functions align] where
  lines := ⟨[], Leaves.symbol functions align, fun line member => by cases member⟩
  feeds bytes face member := by cases List.mem_singleton.1 member

theorem leaves {imprints : List Imprint} (neat : Neat property imprints) :
    Leaves imprints (printedLines imprints) := by
  obtain ⟨lines, leaves, _⟩ := neat.lines
  rw [leaves.printedLines_eq]
  exact leaves

theorem of_mem {imprints : List Imprint} (neat : Neat property imprints) {line : PrintedLine}
    (member : line ∈ printedLines imprints) : property line := by
  obtain ⟨lines, leaves, each⟩ := neat.lines
  rw [leaves.printedLines_eq] at member
  exact each line member

end Neat

namespace Sheet

theorem lineFeed_not_mem_line {face other : Face} {content : String} {bytes : List UInt8}
    (printing : '\n' ∉ content.toList) (member : .text bytes other ∈ line face content) :
    (0x0A : UInt8) ∉ bytes := by
  rcases mem_line member with ended | same
  · cases ended
  · obtain ⟨rfl, rfl⟩ := Imprint.text.inj same
    exact Codepage.lineFeed_not_mem_encode printing

theorem lineFeed_not_mem_ofSegments {weight : Bool} {segments : List Segment} {face : Face}
    {bytes : List UInt8} (printing : ∀ segment ∈ segments, '\n' ∉ segment.text.toList)
    (member : .text bytes face ∈ (ofSegments weight segments).imprints) :
    (0x0A : UInt8) ∉ bytes := by
  obtain ⟨segment, inside, bold, same⟩ := mem_ofSegments member
  obtain ⟨rfl, rfl⟩ := Imprint.text.inj same
  exact Codepage.lineFeed_not_mem_encode (printing segment inside)

/-- One byte for each character of the parts. -/
theorem glyphs_segmentPieces (weight : Bool) (segments : List Segment) :
    (segmentPieces weight segments).glyphs = Row.lineLength segments := by
  induction segments generalizing weight with
  | nil => rfl
  | cons segment segments ih =>
    unfold segmentPieces Row.lineLength
    simp only
    rw [PrintedLine.glyphs_append, glyphs_pieces, ih]

end Sheet

namespace Sheet

variable {property : PrintedLine → Prop}

theorem neat_ofSpace (empty : property []) (weight : Bool) (amount : Rat) :
    Neat property (ofSpace weight amount).imprints := by
  unfold ofSpace
  rcases withNumber_cases weight (Scalar.truncate amount) _ with blank | ⟨lines, _, given⟩
  · rw [blank]
    exact Neat.nil
  · rw [given]
    exact Neat.lineEnds empty lines.toNat

/-- A picture leaves no line. -/
theorem neat_ofPicture (printer : Printer Rat) (weight : Bool) (source : Value)
    (align : Alignment) (extent : Extent Rat) :
    Neat property (ofPicture printer weight source align extent).imprints := by
  unfold ofPicture
  rcases withNumber_cases weight (Scalar.truncate extent.width) _ with blank | ⟨width, _, given⟩
  · rw [blank]
    exact Neat.nil
  · rw [given]
    split
    · exact Neat.nil
    · split
      · exact Neat.nil
      · exact Neat.raster ..

theorem neat_ofSymbol (printer : Printer Rat) (weight : Bool) (data : String) (size : Int)
    (align : Alignment) : Neat property (ofSymbol printer weight data size align).imprints := by
  unfold ofSymbol
  split
  · exact Neat.nil
  · exact Neat.symbol ..

end Sheet

theorem toList_dividerText (border : Border) (width : Int) :
    (dividerText border width).toList.length = width.toNat ∧
      '\n' ∉ (dividerText border width).toList := by
  unfold dividerText
  rw [String.toList_ofList]
  refine ⟨List.length_replicate, fun member => ?_⟩
  have feeds := List.eq_of_mem_replicate member
  cases border with
  | dashed => exact absurd feeds (by decide)
  | solid => exact absurd feeds (by decide)

/-! ## Each step -/

namespace Scheme

variable {scheme : Scheme Rat} {pageWidth : Int} {site : Site}

theorem fitsAround_nil (scheme : Scheme Rat) (pageWidth : Rat) (site : Site) :
    scheme.FitsAround pageWidth site [] := by
  refine ⟨1, le_refl 1, fun piece member => (by cases member), fun width _ => ?_⟩
  simp [PrintedLine.glyphs]

/-- What fits the content box fits everything around it. -/
theorem fitsAround_of_box (cells : scheme.resolver.target = .cells) {box : Extent Rat}
    (known : scheme.extentWithin (pageWidth : Rat) site.chain = .ok box) {line : PrintedLine}
    {multiplier : Int} (positive : 1 ≤ multiplier)
    (same : ∀ piece ∈ line, piece.2.size.width = multiplier)
    (short : (line.glyphs : Rat) * multiplier ≤ max box.width multiplier) :
    scheme.FitsAround pageWidth site line := by
  refine ⟨multiplier, positive, same, fun width encloses => short.trans (max_le ?_ ?_)⟩
  · have above : (0 : Rat) ≤ multiplier := by exact_mod_cast (by omega : (0 : Int) ≤ multiplier)
    refine (width_le_of_encloses cells encloses known).trans (max_le ?_ (le_max_left _ _))
    exact le_max_of_le_right above
  · exact le_max_right _ _

/-- As many characters of a size as fill a width, or one. -/
theorem mul_le_of_columns {length n : Nat} {multiplier : Int} (positive : 1 ≤ multiplier)
    (short : (length : Int) ≤ max 1 ((n : Int).fdiv multiplier)) :
    (length : Int) * multiplier ≤ max (n : Int) multiplier := by
  have size : 0 ≤ multiplier := by omega
  rw [Int.fdiv_eq_ediv_of_nonneg _ size] at short
  rcases le_max_iff.1 short with single | several
  · refine le_max_of_le_right ?_
    calc (length : Int) * multiplier ≤ 1 * multiplier := Int.mul_le_mul_of_nonneg_right single size
      _ = multiplier := Int.one_mul _
  · refine le_max_of_le_left ?_
    calc (length : Int) * multiplier ≤ n / multiplier * multiplier :=
        Int.mul_le_mul_of_nonneg_right several size
      _ ≤ n := Int.ediv_mul_le _ (by omega)

/-- A text is wrapped to as many characters of its size as fill the box, and to one at least. -/
theorem neat_ofText (cells : scheme.resolver.target = .cells) {extent : Extent Rat}
    (known : scheme.extentWithin (pageWidth : Rat) site.chain = .ok extent) {look : TextLook Rat}
    (printable : look.size.Printable) (weight : Bool) (content : String) :
    Neat (scheme.FitsAround pageWidth site) (Sheet.ofText weight content look extent).imprints := by
  obtain ⟨n, whole⟩ := whole_extentWithin cells known
  unfold Sheet.ofText
  split
  · exact Neat.lineEnds (fitsAround_nil ..) 1
  · cases filled : Printer.columns extent look.size with
    | error fault => exact Neat.nil
    | ok columns =>
      have count : columns = max 1 ((n : Int).fdiv look.size.width) := by
        unfold Printer.columns at filled
        rw [whole, Scalar.truncate_natCast] at filled
        simp only at filled
        split at filled
        · cases filled
        · exact (Except.ok.inj filled).symm
      have lines : ∀ line ∈ Text.wrapText content columns,
          (line.toList.length : Int) ≤ columns ∧ '\n' ∉ line.toList :=
        fun line member => Text.fits_of_mem_wrapText (by omega) member
      refine ⟨⟨_, Sheet.leaves_lines _ _, fun line member => ?_⟩, fun bytes face member => ?_⟩
      · obtain ⟨text, inside, rfl⟩ := List.mem_map.1 member
        have positive : 1 ≤ look.size.width := by
          obtain ⟨one | two, _⟩ := printable <;> omega
        refine fitsAround_of_box cells known positive (fun piece member => ?_) ?_
        · rw [Sheet.face_of_mem_pieces member]
        · rw [Sheet.glyphs_pieces, whole]
          exact_mod_cast mul_le_of_columns positive (count ▸ (lines text inside).1)
      · obtain ⟨text, inside, own⟩ := List.mem_flatMap.1 member
        exact Sheet.lineFeed_not_mem_line (lines text inside).2 own

/-- A row is one line across the box. -/
theorem neat_ofRow (cells : scheme.resolver.target = .cells) {extent : Extent Rat}
    (known : scheme.extentWithin (pageWidth : Rat) site.chain = .ok extent) {children : List Node}
    {content : List (Cell Rat)} (flattened : scheme.cells children = .ok content) (weight : Bool)
    (justify : Value) :
    Neat (scheme.FitsAround pageWidth site)
      (Sheet.ofRow scheme.resolver weight content justify extent).imprints := by
  obtain ⟨n, whole⟩ := whole_extentWithin cells known
  unfold Sheet.ofRow
  rw [whole, Scalar.truncate_natCast]
  simp only [Sheet.withNumber]
  cases made : Row.segments scheme.resolver content n justify with
  | error fault => exact Neat.nil
  | ok segments =>
    have fits := Row.fits_segments (Int.natCast_nonneg n)
      (fun cell member feeds => (Scheme.mem_of_cells flattened member feeds).1 rfl) made
    refine ⟨⟨_, Sheet.leaves_ofSegments weight segments, fun line member => ?_⟩,
      fun bytes face member => ?_⟩
    · rw [List.mem_singleton.1 member]
      refine fitsAround_of_box cells known (le_refl 1) (fun piece member => ?_) ?_
      · rw [Sheet.face_of_mem_segmentPieces member]
        rfl
      · rw [Sheet.glyphs_segmentPieces, whole, Int.cast_one, mul_one]
        exact le_max_of_le_left (by exact_mod_cast fits.short)
    · rcases List.mem_append.1 member with member | member
      · exact Sheet.lineFeed_not_mem_ofSegments fits.printing member
      · cases List.mem_singleton.1 member

/-- A divider has as many glyphs as the content box is wide. -/
theorem leaves_ofDivider {extent : Extent Rat} (whole : Whole extent.width) (weight : Bool)
    (border : Border) :
    ∃ line : PrintedLine, Leaves (Sheet.ofDivider weight border extent).imprints [line] ∧
      (line.glyphs : Rat) = extent.width ∧ (∀ piece ∈ line, piece.2.size = .normal) ∧
      ∀ bytes face, .text bytes face ∈ (Sheet.ofDivider weight border extent).imprints →
        (0x0A : UInt8) ∉ bytes := by
  obtain ⟨n, whole⟩ := whole
  obtain ⟨length, printing⟩ := toList_dividerText border n
  have sheet : (Sheet.ofDivider weight border extent).imprints =
      Sheet.line ⟨.left, .normal, weight⟩ (dividerText border n) := by
    unfold Sheet.ofDivider
    rw [whole, Scalar.truncate_natCast]
    rfl
  rw [sheet]
  refine ⟨_, Sheet.leaves_line _ _, ?_, fun piece member => ?_, fun bytes face member => ?_⟩
  · rw [Sheet.glyphs_pieces, length, whole]
    rfl
  · rw [Sheet.face_of_mem_pieces member]
  · exact Sheet.lineFeed_not_mem_line printing member

/-- The content box of a border is as wide as that inside its container. -/
theorem exists_box_of_divider (cells : scheme.resolver.target = .cells) {outer : Extent Rat}
    {look : BoxLook Rat} (kind : scheme.isBox site.node)
    (known : scheme.extentWithin (pageWidth : Rat) site.around = .ok outer)
    (resolved : scheme.lookOf site.node outer = .ok look) :
    scheme.extentWithin (pageWidth : Rat) site.chain = .ok (look.inner outer) ∧
      (look.inner outer).width = (look.bordered outer).width := by
  have plain := cellBox_of_lookOf cells resolved
  refine ⟨extentWithin_cons kind known resolved, ?_⟩
  rw [BoxLook.width_inner plain, BoxLook.width_bordered plain]

end Scheme

namespace Scheme

variable {scheme : Scheme Rat}

theorem not_isBox_of_isTextual {node : Node} (textual : Node.isTextual scheme.naming node.type) :
    ¬ scheme.isBox node := by
  intro kind
  unfold Node.isTextual at textual
  unfold isBox Node.kind? at kind
  rcases kind with page | view
  · rw [page] at textual
    cases textual
  · rw [view] at textual
    cases textual

end Scheme

variable {options : Options} {protocol : Protocol} {root : Node}

/-- The sheet of a step that an element of a tree asks for is neat. -/
theorem Entry.neat_of_placed {entry : Entry Site Rat} {weight : Bool}
    (placed : options.cellScheme.Placed (options.paperWidth : Rat) root entry.mark entry.step)
    (sheet : entry.imprints =
      (Sheet.ofStep (options.printer protocol : Printer Rat) weight entry.step).imprints) :
    Neat (options.cellScheme.FitsAround options.paperWidth entry.mark) entry.imprints := by
  obtain ⟨site, step, imprints⟩ := entry
  obtain ⟨_, places⟩ := placed
  have empty := Scheme.fitsAround_nil options.cellScheme options.paperWidth site
  simp only at places sheet
  subst sheet
  cases places with
  | reset => exact Neat.nil
  | text kind style box =>
    have known := (Scheme.extentWithin_cons_of_not site.around
      (Scheme.not_isBox_of_isTextual kind)).trans box
    exact Scheme.neat_ofText rfl known (CharSize.printable_clamp_largest _) weight _
  | row kind content box => exact Scheme.neat_ofRow rfl box content weight _
  | divider kind box resolved asked =>
    obtain ⟨known, same⟩ := Scheme.exists_box_of_divider rfl kind box resolved
    have whole := Scheme.whole_extentWithin rfl known
    rw [same] at whole
    obtain ⟨line, leaves, glyphs, size, feeds⟩ := Scheme.leaves_ofDivider whole weight _
    refine ⟨⟨[line], leaves, fun other member => ?_⟩, feeds⟩
    rw [List.mem_singleton.1 member]
    refine Scheme.fitsAround_of_box rfl known (le_refl 1) (fun piece inside => ?_) ?_
    · rw [size piece inside]
      rfl
    · rw [glyphs, same, Int.cast_one, mul_one]
      exact le_max_left _ _
  | space kind amount => exact Sheet.neat_ofSpace empty weight amount
  | picture kind aligned path framed extent => exact Sheet.neat_ofPicture _ weight _ _ extent
  | symbol kind aligned size path extent => exact Sheet.neat_ofSymbol _ weight _ size _
  | sourceless kind path => exact Neat.nil

/-- A divider is a line of its own, across the content box of its container. -/
theorem Entry.glyphs_of_divider {entry : Entry Site Rat} {weight : Bool}
    (placed : options.cellScheme.Placed (options.paperWidth : Rat) root entry.mark entry.step)
    (sheet : entry.imprints =
      (Sheet.ofStep (options.printer protocol : Printer Rat) weight entry.step).imprints)
    {border : Border} {extent : Extent Rat} (own : entry.step = .divider border extent) :
    ∃ box line, options.cellScheme.extentWithin (options.paperWidth : Rat) entry.mark.chain =
        .ok box ∧
      extent.width = box.width ∧ printedLines entry.imprints = [line] ∧
      (line.glyphs : Rat) = box.width := by
  obtain ⟨_, places⟩ := placed
  rw [own] at places sheet
  cases places with
  | divider kind box resolved asked =>
    obtain ⟨known, same⟩ := Scheme.exists_box_of_divider rfl kind box resolved
    have whole := Scheme.whole_extentWithin rfl known
    rw [same] at whole
    obtain ⟨line, leaves, glyphs, _, _⟩ := Scheme.leaves_ofDivider whole weight border
    refine ⟨_, line, known, same.symm, ?_, glyphs.trans same.symm⟩
    rw [sheet]
    exact leaves.printedLines_eq

/-- The lines of a tree are those of its entries. No text has a line feed, every line fits the
widths around its site, and a divider has as many glyphs as the content box of its container is
wide. -/
theorem printTree_fits (options : Options) (protocol : Protocol) (root : Node) (device : Device) :
    printedLines (device.record protocol
        (printTree options protocol (options.paperWidth : Rat) root).commands) =
        (options.replay protocol (options.paperWidth : Rat) root device).flatMap
          (fun entry => printedLines entry.imprints) ∧
      ∀ entry ∈ options.replay protocol (options.paperWidth : Rat) root device,
        (∀ bytes face, .text bytes face ∈ entry.imprints → (0x0A : UInt8) ∉ bytes) ∧
        (∀ line ∈ printedLines entry.imprints,
          options.cellScheme.FitsAround options.paperWidth entry.mark line) ∧
        (∀ border extent, entry.step = .divider border extent →
          ∃ box line, options.cellScheme.extentWithin (options.paperWidth : Rat)
              entry.mark.chain = .ok box ∧
            extent.width = box.width ∧ printedLines entry.imprints = [line] ∧
            (line.glyphs : Rat) = box.width) := by
  constructor
  · rw [← flatMap_imprints_replay]
    refine Leaves.flatMap fun entry member => ?_
    obtain ⟨stands, weight, sheet⟩ := sheet_of_mem_replay member
    exact (Entry.neat_of_placed stands sheet).leaves
  · intro entry member
    obtain ⟨stands, weight, sheet⟩ := sheet_of_mem_replay member
    have neat := Entry.neat_of_placed stands sheet
    refine ⟨neat.feeds, fun line inside => neat.of_mem inside, fun border extent own => ?_⟩
    exact Entry.glyphs_of_divider stands sheet own

end Receipt
