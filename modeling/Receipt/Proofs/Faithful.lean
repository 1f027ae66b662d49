import Receipt.Proofs.Placement
import Receipt.Proofs.Replay
import Receipt.Proofs.RowLine

/-!
# What is printed is what was asked for

`Options.replay` prints a tree and cuts the record of the printer at the other end into entries,
each with the site that asked for it. `Entry.Faithful` says what an entry may hold: a text in the
face that its own style and the elements around it give, each part of a row left-aligned, in the
plain size and in its own weight, a divider left-aligned in the plain size, a picture or a symbol in
its own alignment.

`printTree_faithful`: whatever the printer was set to at the start, and whatever each of its resets
leaves behind, the record of a tree is made of faithful entries.
-/

namespace Receipt

variable {α : Type} [Scalar α]

namespace Options

/-- How trees are laid out for a receipt printer. -/
def cellScheme (options : Options) : Scheme α := ⟨options.naming, cellResolver⟩

/-- The entries of a tree that is printed, on a printer at the other end. -/
def replay (options : Options) (protocol : Protocol) (pageWidth : α) (root : Node)
    (device : Device) : List (Entry Site α) :=
  (options.printer protocol).entries .unknown device
    (options.cellScheme.trace (.start pageWidth) root).steps

end Options

/-- Printing a tree is carrying out its trace. -/
theorem printTree_eq (options : Options) (protocol : Protocol) (pageWidth : α) (root : Node) :
    printTree options protocol pageWidth root =
      (options.printer protocol).print .unknown
        (options.cellScheme.trace (.start pageWidth) root).plain := by
  rw [Scheme.plain_trace]
  rfl

namespace Site

/-- The face that a text at a site asks for: its own alignment, or else the implied one, or else
left, the size of its font and its own weight. -/
def textFace (naming : Naming) (site : Site) (style : TextStyle α) : Face where
  align := ((Alignment.ofValue? style.align).or (impliedAlignment naming site.around)).getD .left
  size := CharSize.clamp (CharSize.ofFontSize style.fontSize) .largest
  bold := style.isBold

end Site

namespace Segment

/-- What a part of a row leaves on the paper: nothing when it is empty, and else its text,
left-aligned in the plain size, in its own weight when it shows something. -/
def PrintedAs (segment : Segment) (imprints : List Imprint) : Prop :=
  (segment.text.isEmpty ∧ imprints = []) ∨
    ∃ bold, imprints = [.text (Codepage.encode segment.text.toList) ⟨.left, .normal, bold⟩] ∧
      (¬ Text.isBlankText segment.text.toList → bold = segment.bold)

end Segment

namespace Entry

/-- An entry holds what the step at its site may leave on the paper. -/
def Faithful (naming : Naming) (entry : Entry Site α) : Prop :=
  match entry.step with
  | .text _ _ _ =>
    ∃ style : TextStyle α,
      TextStyle.ofFields (Scheme.fieldsOf entry.mark.node.style) = .ok style ∧
        ∀ imprint ∈ entry.imprints, imprint = .lineEnd ∨
          ∃ bytes, imprint = .text bytes (entry.mark.textFace naming style)
  | .row cells justify _ =>
    entry.imprints = [] ∨
      ∃ width segments parts,
        Row.segments (Options.cellResolver : Resolver α) cells width justify = .ok segments ∧
          (∀ segment ∈ segments, segment.OfCell cells) ∧
          List.Forall₂ Segment.PrintedAs segments parts ∧
          entry.imprints = parts.flatten ++ [.lineEnd]
  | .divider _ _ =>
    ∀ imprint ∈ entry.imprints, imprint = .lineEnd ∨
      ∃ bytes bold, imprint = .text bytes ⟨.left, .normal, bold⟩
  | .picture _ align _ _ _ =>
    ∀ imprint ∈ entry.imprints, ∃ rowBytes rows data, imprint = .raster rowBytes rows data align
  | .symbol _ _ align _ _ =>
    ∀ imprint ∈ entry.imprints, ∃ functions, imprint = .symbol functions align
  | .space _ => ∀ imprint ∈ entry.imprints, imprint = .lineEnd
  | .reset | .page _ _ | .sourceless _ => entry.imprints = []

end Entry

namespace Sheet

theorem eq_of_mem_part {face : Face} {content : String} {imprint : Imprint}
    (member : imprint ∈ part face content) :
    imprint = .text (Codepage.encode content.toList) face := by
  unfold part at member
  split at member
  · cases member
  · exact List.mem_singleton.1 member

theorem mem_line {face : Face} {content : String} {imprint : Imprint}
    (member : imprint ∈ line face content) :
    imprint = .lineEnd ∨ imprint = .text (Codepage.encode content.toList) face := by
  rcases List.mem_append.1 member with shown | ended
  · exact Or.inr (eq_of_mem_part shown)
  · exact Or.inl (List.mem_singleton.1 ended)

theorem mem_ofSegments {weight : Bool} {segments : List Segment} {imprint : Imprint}
    (member : imprint ∈ (ofSegments weight segments).imprints) :
    ∃ segment ∈ segments, ∃ bold,
      imprint = .text (Codepage.encode segment.text.toList) ⟨.left, .normal, bold⟩ := by
  induction segments generalizing weight with
  | nil => cases member
  | cons segment segments ih =>
    rcases List.mem_append.1 member with own | later
    · exact ⟨segment, List.mem_cons_self .., _, eq_of_mem_part own⟩
    · obtain ⟨other, inside, same⟩ := ih later
      exact ⟨other, List.mem_cons_of_mem _ inside, same⟩

/-- A text leaves line ends, and lines in the face that it names. -/
theorem mem_ofText {weight : Bool} {content : String} {look : TextLook α} {extent : Extent α}
    {imprint : Imprint} (member : imprint ∈ (ofText weight content look extent).imprints) :
    imprint = .lineEnd ∨ ∃ bytes, imprint = .text bytes ⟨look.align, look.size, look.bold⟩ := by
  unfold ofText at member
  split at member
  · exact Or.inl (List.mem_singleton.1 member)
  · cases columns : Printer.columns extent look.size with
    | error fault =>
      rw [columns] at member
      cases member
    | ok columns =>
      simp only [columns] at member
      obtain ⟨text, _, inside⟩ := List.mem_flatMap.1 member
      rcases mem_line inside with ended | shown
      · exact Or.inl ended
      · exact Or.inr ⟨_, shown⟩

/-- Each part of a row is printed in the face that a part of a row has. -/
theorem exists_parts_ofSegments (weight : Bool) (segments : List Segment) :
    ∃ parts, List.Forall₂ Segment.PrintedAs segments parts ∧
      (ofSegments weight segments).imprints = parts.flatten := by
  induction segments generalizing weight with
  | nil => exact ⟨[], List.Forall₂.nil, rfl⟩
  | cons segment segments ih =>
    let own := if Text.isBlankText segment.text.toList then weight else segment.bold
    obtain ⟨parts, printed, same⟩ := ih own
    refine ⟨part ⟨.left, .normal, own⟩ segment.text :: parts, List.Forall₂.cons ?_ printed, ?_⟩
    · unfold part
      split
      · rename_i empty
        exact Or.inl ⟨empty, rfl⟩
      · exact Or.inr ⟨own, rfl, fun shows => if_neg shows⟩
    · show part _ segment.text ++ (ofSegments own segments).imprints = _
      rw [same, List.flatten_cons]

/-- A row leaves nothing, or all its parts and a line end. -/
theorem ofRow_cases (resolver : Resolver α) (weight : Bool) (cells : List (Cell α))
    (justify : Value) (extent : Extent α) :
    (ofRow resolver weight cells justify extent).imprints = [] ∨
      ∃ width segments parts, Scalar.truncate extent.width = .ok width ∧
        Row.segments resolver cells width justify = .ok segments ∧
        List.Forall₂ Segment.PrintedAs segments parts ∧
        (ofRow resolver weight cells justify extent).imprints = parts.flatten ++ [.lineEnd] := by
  unfold ofRow
  rcases withNumber_cases weight (Scalar.truncate extent.width) _ with
    blank | ⟨width, known, given⟩
  · rw [blank]
    exact Or.inl rfl
  · rw [given]
    cases made : Row.segments resolver cells width justify with
    | error fault => exact Or.inl rfl
    | ok segments =>
      obtain ⟨parts, printed, same⟩ := exists_parts_ofSegments weight segments
      refine Or.inr ⟨width, segments, parts, known, made, printed, ?_⟩
      simp only
      rw [same]

theorem mem_ofDivider {weight : Bool} {border : Border} {extent : Extent α} {imprint : Imprint}
    (member : imprint ∈ (ofDivider weight border extent).imprints) :
    imprint = .lineEnd ∨ ∃ bytes, imprint = .text bytes ⟨.left, .normal, weight⟩ := by
  unfold ofDivider at member
  rcases withNumber_cases weight (Scalar.truncate extent.width) _ with blank | ⟨width, _, given⟩
  · rw [blank] at member
    cases member
  · rw [given] at member
    rcases mem_line member with ended | shown
    · exact Or.inl ended
    · exact Or.inr ⟨_, shown⟩

theorem mem_ofSpace {weight : Bool} {amount : α} {imprint : Imprint}
    (member : imprint ∈ (ofSpace weight amount).imprints) : imprint = .lineEnd := by
  unfold ofSpace at member
  rcases withNumber_cases weight (Scalar.truncate amount) _ with blank | ⟨lines, _, given⟩
  · rw [blank] at member
    cases member
  · rw [given] at member
    exact List.eq_of_mem_replicate member

theorem mem_ofPicture {printer : Printer α} {weight : Bool} {source : Value} {align : Alignment}
    {extent : Extent α} {imprint : Imprint}
    (member : imprint ∈ (ofPicture printer weight source align extent).imprints) :
    ∃ rowBytes rows data, imprint = .raster rowBytes rows data align := by
  unfold ofPicture at member
  rcases withNumber_cases weight (Scalar.truncate extent.width) _ with blank | ⟨width, _, given⟩
  · rw [blank] at member
    cases member
  · rw [given] at member
    split at member
    · cases member
    · split at member
      · cases member
      · exact ⟨_, _, _, List.mem_singleton.1 member⟩

omit [Scalar α] in
theorem mem_ofSymbol {printer : Printer α} {weight : Bool} {data : String} {size : Int}
    {align : Alignment} {imprint : Imprint}
    (member : imprint ∈ (ofSymbol printer weight data size align).imprints) :
    ∃ functions, imprint = .symbol functions align := by
  unfold ofSymbol at member
  split at member
  · cases member
  · exact ⟨_, List.mem_singleton.1 member⟩

end Sheet

/-- The steps of a tree ask for sizes that a printer can be set to. -/
theorem printable_of_placed {options : Options} {pageWidth : α} {root : Node} {site : Site}
    {step : Step α} (placed : options.cellScheme.Placed pageWidth root site step) :
    step.Printable := by
  obtain ⟨_, places⟩ := placed
  cases places with
  | text kind style box => exact CharSize.printable_clamp_largest _
  | reset | row _ _ _ | divider _ _ _ _ | space _ _ | picture _ _ _ _ _ | symbol _ _ _ _ _
  | sourceless _ _ => trivial

/-- A sheet is faithful to its step where the step is placed. -/
theorem Entry.faithful_of_placed {options : Options} {protocol : Protocol} {pageWidth : α}
    {root : Node} {entry : Entry Site α} {weight : Bool}
    (placed : options.cellScheme.Placed pageWidth root entry.mark entry.step)
    (sheet : entry.imprints =
      (Sheet.ofStep (options.printer protocol : Printer α) weight entry.step).imprints) :
    entry.Faithful options.naming := by
  obtain ⟨site, step, imprints⟩ := entry
  obtain ⟨_, places⟩ := placed
  simp only at places sheet
  subst sheet
  cases places with
  | reset => rfl
  | text kind style box => exact ⟨_, style, fun imprint member => Sheet.mem_ofText member⟩
  | row kind content box =>
    rcases Sheet.ofRow_cases (options.printer protocol : Printer α).resolver weight _ _ _ with
      nothing | ⟨width, segments, parts, _, made, printed, same⟩
    · exact Or.inl nothing
    · exact Or.inr ⟨width, segments, parts, made, Row.ofCell_segments made, printed, same⟩
  | divider kind box resolved asked =>
    intro imprint member
    rcases Sheet.mem_ofDivider member with ended | ⟨bytes, text⟩
    · exact Or.inl ended
    · exact Or.inr ⟨bytes, weight, text⟩
  | space kind amount => exact fun imprint member => Sheet.mem_ofSpace member
  | picture kind aligned path framed extent =>
    exact fun imprint member => Sheet.mem_ofPicture member
  | symbol kind aligned size path extent => exact fun imprint member => Sheet.mem_ofSymbol member
  | sourceless kind path => rfl

/-- The entries of a tree, one behind the other, are its record. -/
theorem flatMap_imprints_replay (options : Options) (protocol : Protocol) (pageWidth : α)
    (root : Node) (device : Device) :
    (options.replay protocol pageWidth root device).flatMap (·.imprints) =
      device.record protocol (printTree options protocol pageWidth root).commands := by
  rw [printTree_eq, Printer.commands_print]
  exact Printer.flatMap_imprints_entries ..

/-- Each entry stands at the site of the tree that asked for it, and holds the whole sheet of its
step. -/
theorem sheet_of_mem_replay {options : Options} {protocol : Protocol} {pageWidth : α} {root : Node}
    {device : Device} {entry : Entry Site α}
    (member : entry ∈ options.replay protocol pageWidth root device) :
    options.cellScheme.Placed pageWidth root entry.mark entry.step ∧
      ∃ weight, entry.imprints =
        (Sheet.ofStep (options.printer protocol) weight entry.step).imprints := by
  have placed : ∀ marked ∈ (options.cellScheme.trace (.start pageWidth) root).steps,
      options.cellScheme.Placed pageWidth root marked.1 marked.2 :=
    Scheme.placed_trace rfl root (.start pageWidth)
  refine ⟨placed _ (Printer.mem_of_mem_entries _ member), ?_⟩
  exact Printer.sheet_of_mem_entries _ (Mirrors.unknown device)
    (fun marked inside => printable_of_placed (placed marked inside)) member

/-- The record of a tree is made of faithful entries on every printer. Each stands at the site of
the tree that asked for it and holds the whole sheet of its step. -/
theorem printTree_faithful (options : Options) (protocol : Protocol) (pageWidth : α) (root : Node)
    (device : Device) :
    (options.replay protocol pageWidth root device).flatMap (·.imprints) =
        device.record protocol (printTree options protocol pageWidth root).commands ∧
      ∀ entry ∈ options.replay protocol pageWidth root device,
        options.cellScheme.Placed pageWidth root entry.mark entry.step ∧
          entry.Faithful options.naming ∧
          ∃ weight, entry.imprints =
            (Sheet.ofStep (options.printer protocol) weight entry.step).imprints := by
  refine ⟨flatMap_imprints_replay options protocol pageWidth root device, fun entry member => ?_⟩
  obtain ⟨stands, weight, sheet⟩ := sheet_of_mem_replay member
  exact ⟨stands, Entry.faithful_of_placed stands sheet, weight, sheet⟩

end Receipt
