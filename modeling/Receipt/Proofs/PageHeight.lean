import Receipt.Proofs.Absent
import Receipt.Proofs.Agree
import Receipt.Proofs.Degrade
import Receipt.Proofs.Exact
import Receipt.Proofs.RowLine

/-!
# A page holds what is drawn on it

The height of a page that is not fixed is the lowest height of the pen and a margin. Everything that a
step draws lies above the pen behind it (`covers_draw`), and the lowest height only grows, except at the
beginning of a document, where it starts from the top again. So of all marks only those are in doubt
behind which a document begins: `Drawing.leftBehind`.

`contains_drawTree_iff` is the main statement: over exact numbers a page of that height contains a
drawing exactly when no mark that was left behind lies below the pen, and a drawing leaves nothing
behind unless the walk begins a document inside the tree (`Node.restarts`).
-/

namespace Receipt

/-! ## Marks and beginnings -/

namespace Mark

variable {α : Type} [Scalar α]

/-- The lowest height of a mark: the baseline of a text, the stroke of a line, the lower edge of a
picture or symbol. -/
def bottom : Mark α → α
  | .text _ _ y _ _ _ => y
  | .line _ _ y _ => y
  | .picture _ _ y _ height => y + height
  | .symbol _ _ y side => y + side

end Mark

namespace DrawEvent

variable {α : Type}

/-- The marks of an event. -/
def marks : DrawEvent α → List (Mark α)
  | .drawn _ marks => marks
  | .noted _ => []

/-- Whether a document begins. -/
def isStart : DrawEvent α → Bool
  | .drawn part _ => part == .start
  | .noted _ => false

/-- The marks behind which a document begins. -/
def leftBehind : List (DrawEvent α) → List (Mark α)
  | [] => []
  | event :: events =>
    (if events.any isStart then event.marks else []) ++ leftBehind events

theorem leftBehind_eq_nil {events : List (DrawEvent α)} (noStart : events.any isStart = false) :
    leftBehind events = [] := by
  induction events with
  | nil => rfl
  | cons event events ih =>
    rw [List.any_cons, Bool.or_eq_false_iff] at noStart
    rw [leftBehind, noStart.2, ih noStart.2]
    rfl

theorem leftBehind_append (first second : List (DrawEvent α)) :
    leftBehind (first ++ second) =
      (if second.any isStart then first.flatMap marks else leftBehind first) ++
        leftBehind second := by
  induction first with
  | nil =>
    cases starts : second.any isStart with
    | true => rfl
    | false => rfl
  | cons event events ih =>
    rw [List.cons_append, leftBehind, List.any_append, ih, leftBehind]
    cases second.any isStart with
    | true => simp
    | false => simp

end DrawEvent

namespace Drawing

variable {α : Type}

/-- The marks behind which a document begins. -/
def leftBehind (drawing : Drawing α) : List (Mark α) := DrawEvent.leftBehind drawing.events

theorem marks_eq (drawing : Drawing α) : drawing.marks = drawing.events.flatMap DrawEvent.marks := by
  unfold marks
  congr 1

theorem marks_draw (pen : Pen α) (part : Part) (marks : List (Mark α)) :
    (Drawing.draw pen part marks).marks = marks := List.append_nil marks

theorem mem_marks_of_mem_leftBehind {drawing : Drawing α} {mark : Mark α}
    (member : mark ∈ drawing.leftBehind) : mark ∈ drawing.marks := by
  rw [marks_eq]
  unfold leftBehind at member
  generalize drawing.events = events at member
  induction events with
  | nil => cases member
  | cons event events ih =>
    rw [List.flatMap_cons]
    rcases List.mem_append.1 member with own | later
    · split at own
      · exact List.mem_append_left _ own
      · cases own
    · exact List.mem_append_right _ (ih later)

/-- From a pen on, all marks are above the lowest height behind them, unless a document begins in
between. -/
structure Covers (pen : Pen Rat) (drawing : Drawing Rat) : Prop where
  lowest : drawing.events.any (·.isStart) = false → pen.lowest ≤ drawing.pen.lowest
  marks : ∀ mark ∈ drawing.marks, mark ∈ drawing.leftBehind ∨ mark.bottom ≤ drawing.pen.lowest

namespace Covers

variable {pen : Pen Rat}

/-- A part without marks, behind which the lowest height is no less. -/
theorem nothing {drawing : Drawing Rat} (none : drawing.marks = [])
    (lowest : pen.lowest ≤ drawing.pen.lowest) : Covers pen drawing := by
  refine ⟨fun _ => lowest, fun mark member => ?_⟩
  rw [none] at member
  cases member

theorem andThen {first : Drawing Rat} {next : Pen Rat → Drawing Rat} (former : Covers pen first)
    (latter : ∀ pen, Covers pen (next pen)) : Covers pen (first.andThen next) := by
  cases ended : first.fault with
  | some fault =>
    rw [andThen_of_fault ended]
    exact former
  | none =>
    have rest := latter first.pen
    refine ⟨fun noStart => ?_, fun mark member => ?_⟩
    · rw [andThen_of_none ended] at noStart ⊢
      rw [List.any_append, Bool.or_eq_false_iff] at noStart
      exact (former.lowest noStart.1).trans (rest.lowest noStart.2)
    · rw [marks_andThen ended] at member
      have left : (first.andThen next).leftBehind =
          (if (next first.pen).events.any (·.isStart) then first.marks else first.leftBehind) ++
            (next first.pen).leftBehind := by
        rw [andThen_of_none ended, marks_eq]
        exact DrawEvent.leftBehind_append ..
      have pen : (first.andThen next).pen = (next first.pen).pen := by rw [andThen_of_none ended]
      rw [left, pen]
      rcases List.mem_append.1 member with own | later
      · cases starts : (next first.pen).events.any (·.isStart) with
        | true => exact Or.inl (List.mem_append_left _ own)
        | false =>
          rcases former.marks mark own with behind | above
          · exact Or.inl (List.mem_append_left _ behind)
          · exact Or.inr (above.trans (rest.lowest starts))
      · rcases rest.marks mark later with behind | above
        · exact Or.inl (List.mem_append_right _ behind)
        · exact Or.inr above

end Covers

end Drawing

/-! ## One step -/

/-- No text of a step has a size below zero. -/
def Step.Upright : Step Rat → Prop
  | .text _ look _ => 0 ≤ look.pointSize
  | .row cells _ _ => ∀ cell ∈ cells, 0 ≤ cell.pointSize
  | .reset | .page _ _ | .divider _ _ | .space _ | .picture _ _ _ _ _ | .symbol _ _ _ _ _
  | .sourceless _ => True

namespace Pen

theorem lowest_advance (pen : Pen Rat) (amount : Rat) :
    pen.lowest ≤ (pen.advance amount).lowest ∧ pen.y + amount ≤ (pen.advance amount).lowest := by
  unfold advance
  simp only [Scalar.max_rat]
  exact ⟨le_max_left _ _, le_max_right _ _⟩

end Pen

namespace Row

variable {α : Type} [Scalar α] {measure : Measure α}

theorem exists_cell_of_mem_placeInTurn {x : α} {cells : List (Cell α)} {placement : Placement α}
    (member : placement ∈ placeInTurn measure x cells) :
    ∃ cell ∈ cells, placement.pointSize = cell.pointSize := by
  induction cells generalizing x with
  | nil => cases member
  | cons cell cells ih =>
    rcases List.mem_cons.1 member with rfl | later
    · exact ⟨cell, List.mem_cons_self .., rfl⟩
    · obtain ⟨other, inside, size⟩ := ih later
      exact ⟨other, List.mem_cons_of_mem _ inside, size⟩

theorem exists_cell_of_mem_placeColumns {x : α} {columns : List (Cell α × α)}
    {placement : Placement α} (member : placement ∈ placeColumns measure x columns) :
    ∃ column ∈ columns, placement.pointSize = column.1.pointSize := by
  induction columns generalizing x with
  | nil => cases member
  | cons column columns ih =>
    obtain ⟨cell, width⟩ := column
    rcases List.mem_cons.1 member with rfl | later
    · exact ⟨(cell, width), List.mem_cons_self .., rfl⟩
    · obtain ⟨other, inside, size⟩ := ih later
      exact ⟨other, List.mem_cons_of_mem _ inside, size⟩

/-- A cell is placed in its own size. -/
theorem exists_cell_of_mem_placements {resolver : Resolver α} {cells : List (Cell α)} {width : α}
    {justify : Value} {placements : List (Placement α)}
    (placed : Row.placements resolver measure cells width justify = .ok placements)
    {placement : Placement α} (member : placement ∈ placements) :
    ∃ cell ∈ cells, placement.pointSize = cell.pointSize := by
  have inColumns {placements : List (Placement α)} (member : placement ∈ placements)
      (placed : (do
        let widths ← resolver.widths (cells.map Cell.width) width
        return placeColumns measure Scalar.zero (cells.zip widths)) = .ok placements) :
      ∃ cell ∈ cells, placement.pointSize = cell.pointSize := by
    obtain ⟨widths, _, made⟩ := Outcome.bind_eq_ok_iff.1 placed
    obtain rfl := Outcome.pure_eq_ok_iff.1 made
    obtain ⟨⟨cell, columnWidth⟩, inside, size⟩ := exists_cell_of_mem_placeColumns member
    exact ⟨cell, (List.of_mem_zip inside).1, size⟩
  unfold Row.placements at placed
  simp only at placed
  split at placed
  · obtain rfl := Except.ok.inj placed
    cases member
  · split at placed
    · rename_i first second pushed
      obtain rfl := eq_of_ends? pushed
      split at placed
      · obtain rfl := Except.ok.inj placed
        rcases List.mem_cons.1 member with rfl | later
        · exact ⟨first, List.mem_cons_self .., rfl⟩
        · rw [List.mem_singleton.1 later]
          exact ⟨second, List.mem_cons_of_mem _ (List.mem_cons_self ..), rfl⟩
      · exact inColumns member placed
    · split at placed
      · obtain rfl := Except.ok.inj placed
        exact exists_cell_of_mem_placeInTurn member
      · exact inColumns member placed

end Row

namespace Page

open Drawing

variable {resolver : Resolver Rat} {pen : Pen Rat}

/-- A part whose marks lie no lower than the pen is moved. -/
theorem covers_advance {amount : Rat} {part : Part} {marks : List (Mark Rat)}
    (above : ∀ mark ∈ marks, mark.bottom ≤ pen.y + amount) :
    Covers pen (Drawing.draw (pen.advance amount) part marks) := by
  obtain ⟨kept, reached⟩ := pen.lowest_advance amount
  refine ⟨fun _ => kept, fun mark member => Or.inr ?_⟩
  rw [marks_draw] at member
  exact (above mark member).trans reached

/-- A line is no less high than the text on it. -/
theorem le_lineAdvance {setting : Setting Rat} (spaced : 1 ≤ setting.lineHeight) {size : Rat}
    (upright : 0 ≤ size) : size ≤ setting.lineAdvance size := le_mul_of_one_le_right upright spaced

theorem one_le_lineHeight_usual : 1 ≤ (Setting.usual : Setting Rat).lineHeight := by decide +kernel

theorem covers_drawLines (extent : Extent Rat) {look : TextLook Rat} (upright : 0 ≤ look.pointSize)
    (lines : List String) : Covers pen (drawLines .usual extent look pen lines) := by
  induction lines generalizing pen with
  | nil => exact Covers.nothing rfl le_rfl
  | cons line lines ih =>
    refine Covers.andThen (covers_advance fun mark member => ?_) fun pen => ih
    split at member
    · cases member
    · rw [List.mem_singleton.1 member]
      have fits := le_lineAdvance one_le_lineHeight_usual upright
      show pen.y + look.pointSize ≤ _
      linarith

/-- The tallest of some placements is no smaller than the first of them. -/
theorem le_tallest (first : Placement Rat) (rest : List (Placement Rat)) :
    first.pointSize ≤ tallest first rest := by
  have grows (size : Rat) : size ≤
      rest.foldl (fun size placement => Scalar.max size placement.pointSize) size := by
    induction rest generalizing size with
    | nil => exact le_rfl
    | cons placement rest ih =>
      rw [List.foldl_cons]
      refine le_trans ?_ (ih _)
      rw [Scalar.max_rat]
      exact le_max_left _ _
  exact grows first.pointSize

theorem covers_drawPlacements (extent : Extent Rat) {placements : List (Placement Rat)}
    (upright : ∀ placement ∈ placements, 0 ≤ placement.pointSize) :
    Covers pen (drawPlacements .usual extent pen placements) := by
  cases placements with
  | nil => exact Covers.nothing rfl le_rfl
  | cons first rest =>
    have size : 0 ≤ tallest first rest :=
      (upright first (List.mem_cons_self ..)).trans (le_tallest first rest)
    refine covers_advance fun mark member => ?_
    obtain ⟨placement, _, rfl⟩ := List.mem_map.1 member
    have fits := le_lineAdvance one_le_lineHeight_usual size
    show pen.y + tallest first rest ≤ _
    linarith

theorem covers_drawPicture (extent : Extent Rat) (picture : Picture) (width : Rat)
    (align : Option Alignment) : Covers pen (drawPicture extent pen picture width align) := by
  unfold drawPicture
  split
  · exact Covers.nothing rfl le_rfl
  · refine covers_advance fun mark member => ?_
    rw [List.mem_singleton.1 member]
    exact le_rfl

theorem covers_drawSource (extent : Extent Rat) (source : Value) (align : Alignment)
    (path : String) (framed : Bool) :
    Covers pen (drawSource extent pen source align path framed) := by
  unfold drawSource
  split
  · split
    · exact Covers.nothing rfl le_rfl
    · exact Covers.nothing rfl le_rfl
  · exact covers_drawPicture extent _ _ _

theorem covers_drawSymbol (extent : Extent Rat) (data : String) (size : Int)
    (align : Option Alignment) : Covers pen (drawSymbol extent pen data size align) := by
  unfold drawSymbol
  split
  · exact Covers.nothing rfl le_rfl
  · refine covers_advance fun mark member => ?_
    rw [List.mem_singleton.1 member]
    exact le_rfl

/-- What an upright step draws lies above the pen behind it. -/
theorem covers_draw {step : Step Rat} (upright : step.Upright) :
    Covers pen (draw .usual resolver pen step) := by
  cases step with
  | reset => exact ⟨nofun, nofun⟩
  | page height wraps => exact Covers.nothing rfl le_rfl
  | text content look extent => exact covers_drawLines extent upright _
  | row cells justify extent =>
    unfold draw
    simp only
    split
    · exact Covers.nothing rfl le_rfl
    · rename_i placements placed
      refine covers_drawPlacements extent fun placement member => ?_
      obtain ⟨cell, inside, size⟩ := Row.exists_cell_of_mem_placements placed member
      rw [size]
      exact upright cell inside
  | divider border extent =>
    refine covers_advance fun mark member => ?_
    rw [List.mem_singleton.1 member]
    have half : (dividerAdvance : Rat) / Scalar.ofNat 2 ≤ dividerAdvance := by decide +kernel
    show pen.y + _ ≤ _
    linarith
  | space amount =>
    refine Covers.nothing rfl ?_
    show pen.lowest ≤ (if Scalar.zero < amount then pen.advance amount else pen).lowest
    split
    · exact (pen.lowest_advance amount).1
    · exact le_rfl
  | picture source align path framed extent => exact covers_drawSource extent source align path framed
  | symbol data size align path extent =>
    have covers : Covers { pen with align := some align }
        (drawSymbol extent { pen with align := some align } data size (some align)) :=
      covers_drawSymbol extent data size (some align)
    exact ⟨covers.lowest, covers.marks⟩
  | sourceless path => exact Covers.nothing rfl le_rfl

/-- All marks of a run lie above the lowest height behind it, unless a document begins behind
them. -/
theorem covers_drawAll {steps : List (Step Rat)} (upright : ∀ step ∈ steps, step.Upright) :
    Covers pen (drawAll .usual resolver pen steps) := by
  induction steps generalizing pen with
  | nil => exact Covers.nothing rfl le_rfl
  | cons step steps ih =>
    refine (covers_draw (upright step (List.mem_cons_self ..))).andThen fun pen => ?_
    exact ih fun other member => upright other (List.mem_cons_of_mem _ member)

theorem covers_drawLayout {layout : Layout Rat} (upright : ∀ step ∈ layout.steps, step.Upright) :
    Covers pen (drawLayout .usual resolver pen layout) := by
  refine (covers_drawAll upright).andThen fun pen => ?_
  cases layout.fault with
  | some fault => exact Covers.nothing rfl le_rfl
  | none => exact Covers.nothing rfl le_rfl

/-! ## Beginnings -/

theorem noStart_andThen {first : Drawing Rat} {next : Pen Rat → Drawing Rat}
    (former : first.events.any (·.isStart) = false)
    (latter : ∀ pen, (next pen).events.any (·.isStart) = false) :
    (first.andThen next).events.any (·.isStart) = false := by
  cases ended : first.fault with
  | some fault =>
    rw [andThen_of_fault ended]
    exact former
  | none =>
    rw [andThen_of_none ended, List.any_append, former, latter]
    rfl

/-- Only a reset begins a document. -/
theorem noStart_draw {step : Step Rat} (other : step ≠ .reset) :
    (draw .usual resolver pen step).events.any (·.isStart) = false := by
  have lines (extent : Extent Rat) (look : TextLook Rat) (pen : Pen Rat) (lines : List String) :
      (drawLines .usual extent look pen lines).events.any (·.isStart) = false := by
    induction lines generalizing pen with
    | nil => rfl
    | cons line lines ih => exact noStart_andThen rfl ih
  cases step with
  | reset => exact absurd rfl other
  | page height wraps => rfl
  | text content look extent => exact lines extent look pen _
  | row cells justify extent =>
    unfold draw
    simp only
    split
    · rfl
    · unfold drawPlacements
      split
      · rfl
      · rfl
  | divider border extent => rfl
  | space amount => rfl
  | picture source align path framed extent =>
    have drawn (picture : Picture) (width : Rat) (align : Option Alignment) :
        (drawPicture extent pen picture width align).events.any (·.isStart) = false := by
      unfold drawPicture
      split
      · rfl
      · rfl
    unfold draw
    simp only
    unfold drawSource
    split
    · split
      · rfl
      · rfl
    · exact drawn ..
  | symbol data size align path extent =>
    unfold draw
    simp only
    unfold drawSymbol
    split
    · rfl
    · rfl
  | sourceless path => rfl

theorem noStart_drawLayout {layout : Layout Rat} (others : ∀ step ∈ layout.steps, step ≠ .reset) :
    (drawLayout .usual resolver pen layout).events.any (·.isStart) = false := by
  have all (steps : List (Step Rat)) (others : ∀ step ∈ steps, step ≠ .reset) (pen : Pen Rat) :
      (drawAll .usual resolver pen steps).events.any (·.isStart) = false := by
    induction steps generalizing pen with
    | nil => rfl
    | cons step steps ih =>
      refine noStart_andThen (noStart_draw (others step (List.mem_cons_self ..))) ?_
      exact ih fun other member => others other (List.mem_cons_of_mem _ member)
  refine noStart_andThen (all layout.steps others pen) fun pen => ?_
  cases layout.fault with
  | some fault => rfl
  | none => rfl

end Page

/-! ## The steps of a plan -/

namespace Node

mutual

/-- Whether the walk through an element begins a document. -/
def begins (naming : Naming) : Node → Bool
  | ⟨type, _, style, children⟩ =>
    match naming.kind? type with
    | some .document => true
    | some .page => beginsAny naming children
    | some .view => !isRowOf style children && beginsAny naming children
    | some .text | some .run | some .image => false
    | none => beginsAny naming children

/-- Whether the walk through several elements begins a document. -/
def beginsAny (naming : Naming) : List Node → Bool
  | [] => false
  | node :: nodes => begins naming node || beginsAny naming nodes

end

/-- Whether the walk through the pages among several elements begins a document. -/
def beginsPages (naming : Naming) (nodes : List Node) : Bool :=
  nodes.any fun node => node.kind? naming == some .page && node.begins naming

/-- Whether the walk begins a document inside a tree, and not only around it. -/
def restarts (naming : Naming) (root : Node) : Bool :=
  if root.kind? naming = some .document then beginsPages naming root.children
  else root.begins naming

end Node

namespace Layout

variable {α : Type}

/-- All steps of a layout have a property. -/
def All (good : Step α → Prop) (layout : Layout α) : Prop := ∀ step ∈ layout.steps, good step

namespace All

variable {good : Step α → Prop} {anchors : Anchors α}

theorem done (anchors : Anchors α) : All good (Layout.done anchors) :=
  fun _ member => absurd member List.not_mem_nil

theorem step {step : Step α} (own : good step) : All good (Layout.step anchors step) := by
  intro other member
  rw [List.mem_singleton.1 member]
  exact own

theorem andThen {first : Layout α} {next : Anchors α → Layout α} (former : All good first)
    (latter : ∀ anchors, All good (next anchors)) : All good (first.andThen next) := by
  intro step member
  rcases mem_andThen member with own | ⟨anchors, later⟩
  · exact former step own
  · exact latter anchors step later

theorem withResolved {β : Type} {resolved : Except NumberFault β} {next : β → Layout α}
    (later : ∀ value, resolved = .ok value → All good (next value)) :
    All good (Layout.withResolved anchors resolved next) := by
  intro step member
  obtain ⟨value, made, own⟩ := exists_of_mem_withResolved member
  exact later value made step own

end All

end Layout

namespace Scheme

open Layout

variable {α : Type} [Scalar α]

/-- A property of every step that an element can ask for, apart from the beginning of a document. -/
structure Yields (scheme : Scheme α) (good : Step α → Prop) : Prop where
  page (height : Option α) (wraps : Option Bool) : good (.page height wraps)
  text (content : String) (written : TextStyle α) (inherited : Option Alignment)
    (extent : Extent α) : good (.text content (scheme.resolver.text written inherited) extent)
  row (children : List Node) (cells : List (Cell α)) (justify : Value) (extent : Extent α)
    (made : scheme.cells children = .ok cells) : good (.row cells justify extent)
  divider (border : Border) (extent : Extent α) : good (.divider border extent)
  space (amount : α) : good (.space amount)
  picture (source : Value) (align : Alignment) (path : String) (framed : Bool)
    (extent : Extent α) : good (.picture source align path framed extent)
  symbol (data : String) (size : Int) (align : Alignment) (path : String) (extent : Extent α) :
    good (.symbol data size align path extent)
  sourceless (path : String) : good (.sourceless path)

variable {scheme : Scheme α} {good : Step α → Prop}

theorem all_beginPage (yields : scheme.Yields good) (props : Fields) (anchors : Anchors α) :
    All good (scheme.beginPage props anchors) := by
  unfold beginPage
  cases scheme.resolver.target with
  | cells => exact All.done anchors
  | points =>
    refine All.withResolved fun width _ => All.withResolved fun height _ => ?_
    exact All.step (yields.page ..)

theorem all_boxed (yields : scheme.Yields good) (look : BoxLook α) (insets : List (α × α))
    (anchors : Anchors α) {content : List (α × α) → Anchors α → Layout α}
    (inside : ∀ inner anchors, All good (content inner anchors)) :
    All good (boxed look insets anchors content) := by
  have space (amount : α) (anchors : Anchors α) : All good (Layout.step anchors (.space amount)) :=
    All.step (yields.space amount)
  have border (insets : List (α × α)) (asked : Option Border) (anchors : Anchors α) :
      All good (border insets asked anchors) := by
    cases asked with
    | none => exact All.done anchors
    | some found => exact All.step (yields.divider ..)
  unfold boxed
  refine (space _ _).andThen fun anchors => (border _ _ anchors).andThen fun anchors => ?_
  refine (space _ anchors).andThen fun anchors => (inside _ anchors).andThen fun anchors => ?_
  exact (space _ anchors).andThen fun anchors => (border _ _ anchors).andThen (space _)

theorem all_picture (yields : scheme.Yields good) (anchors : Anchors α) (path : String)
    (props style : Fields) : All good (picture anchors path props style) := by
  unfold picture
  refine All.withResolved fun align _ => ?_
  simp only
  split
  · split
    · exact All.step (yields.sourceless ..)
    · exact All.step (yields.picture ..)
  · refine All.withResolved fun payload _ => All.withResolved fun size _ => ?_
    exact All.step (yields.symbol ..)

theorem all_emptyView (yields : scheme.Yields good) (height : Option α) (anchors : Anchors α) :
    All good (scheme.emptyView height anchors) := by
  unfold emptyView
  cases scheme.resolver.target with
  | cells => exact All.done anchors
  | points => exact All.step (yields.space ..)

mutual

/-- What an element asks for has a property of all that can be asked for; the beginning of a document
must have it only where there is one. -/
theorem all_node (yields : scheme.Yields good) (insets : List (α × α)) (path : String)
    (inherited : Option Alignment) (anchors : Anchors α) :
    ∀ node, good .reset ∨ Node.begins scheme.naming node = false →
      All good (scheme.node insets path inherited anchors node)
  | ⟨type, props, style, children⟩, resets => by
    unfold Node.begins at resets
    cases known : scheme.naming.kind? type with
    | none =>
      rw [known] at resets
      rw [node_unknown _ _ _ _ _ _ _ known]
      exact all_nodes yields insets path 0 inherited anchors children resets
    | some kind =>
      rw [known] at resets
      cases kind with
      | document =>
        have reset : good .reset := resets.resolve_right nofun
        rw [node_document _ _ _ _ _ _ _ known]
        refine (All.step reset).andThen fun anchors => ?_
        exact all_pages yields insets path 0 anchors children (Or.inl reset)
      | page =>
        rw [node_page _ _ _ _ _ _ _ known]
        refine (all_beginPage yields props anchors).andThen fun anchors => ?_
        refine All.withResolved fun written _ => All.withResolved fun look _ => ?_
        refine all_boxed yields look insets anchors fun inner anchors => ?_
        exact all_nodes yields inner path 0 none _ children resets
      | view =>
        rw [node_view _ _ _ _ _ _ _ known]
        refine All.withResolved fun written read => All.withResolved fun look _ => ?_
        refine all_boxed yields look insets anchors fun inner anchors => ?_
        unfold viewContent
        simp only
        split
        · exact all_emptyView yields written.height anchors
        · split
          · exact All.withResolved fun cells made => All.step (yields.row _ _ _ _ made)
          · rename_i column
            have inside : good .reset ∨ Node.beginsAny scheme.naming children = false := by
              refine resets.imp_right fun none => ?_
              rw [isRow_of_ofFields read] at column
              have noRow : Node.isRowOf style children = false := by
                rw [Bool.eq_false_iff]
                exact column
              simp only [noRow, Bool.not_false, Bool.true_and] at none
              exact none
            exact all_nodes yields inner path 0 _ _ children inside
      | text | run =>
        rw [node]
        simp only [known]
        refine All.withResolved fun written _ => All.withResolved fun content _ => ?_
        exact All.step (yields.text ..)
      | image =>
        rw [node]
        simp only [known]
        exact all_picture yields anchors path props _

/-- The same of several elements. -/
theorem all_nodes (yields : scheme.Yields good) (insets : List (α × α)) (path : String)
    (index : Nat) (inherited : Option Alignment) (anchors : Anchors α) :
    ∀ children, good .reset ∨ Node.beginsAny scheme.naming children = false →
      All good (scheme.nodes insets path index inherited anchors children)
  | [], _ => by
    unfold nodes
    exact All.done anchors
  | child :: rest, resets => by
    have both : good .reset ∨ Node.begins scheme.naming child = false ∧
        Node.beginsAny scheme.naming rest = false :=
      resets.imp_right fun none => Bool.or_eq_false_iff.1 none
    rw [nodes_cons]
    refine (all_node yields insets _ inherited anchors child (both.imp_right And.left)).andThen
      fun anchors => ?_
    exact all_nodes yields insets path (index + 1) inherited anchors rest (both.imp_right And.right)

/-- The same of the pages of a document. -/
theorem all_pages (yields : scheme.Yields good) (insets : List (α × α)) (path : String)
    (index : Nat) (anchors : Anchors α) :
    ∀ children, good .reset ∨ Node.beginsPages scheme.naming children = false →
      All good (scheme.pages insets path index anchors children)
  | [], _ => by
    unfold pages
    exact All.done anchors
  | child :: rest, resets => by
    have both : good .reset ∨ (child.kind? scheme.naming == some .page &&
        Node.begins scheme.naming child) = false ∧ Node.beginsPages scheme.naming rest = false :=
      resets.imp_right fun none => Bool.or_eq_false_iff.1 none
    have later (anchors : Anchors α) :
        All good (scheme.pages insets path (index + 1) anchors rest) :=
      all_pages yields insets path (index + 1) anchors rest (both.imp_right And.right)
    rw [pages_cons]
    split
    · rename_i isPage
      refine (all_node yields insets _ none anchors child (both.imp_right fun none => ?_)).andThen
        later
      rw [isPage] at none
      exact none.1
    · exact later anchors

end

/-- No text has a size below zero: a font size that is not above zero counts for nothing. -/
theorem yields_upright (naming : Naming) :
    (⟨naming, Options.pointResolver⟩ : Scheme Rat).Yields Step.Upright := by
  have size (fontSize : Option Rat) :
      0 ≤ (Options.pointResolver : Resolver Rat).pointSizeOf fontSize := by
    have standard : 0 ≤ (Options.pointResolver : Resolver Rat).pointSize := by decide +kernel
    have points : (0 : Rat) ≤ Scalar.ofRatio 3 4 := by decide +kernel
    unfold Resolver.pointSizeOf
    split
    · exact standard
    · rename_i pixels
      split
      · exact standard
      · rename_i positive
        exact mul_nonneg (le_of_lt (lt_of_not_ge positive)) points
  refine ⟨fun _ _ => trivial, fun _ written _ _ => size written.fontSize, ?_, fun _ _ => trivial,
    fun _ => trivial, fun _ _ _ _ _ => trivial, fun _ _ _ _ _ => trivial, fun _ => trivial⟩
  intro children cells justify extent made cell member
  obtain ⟨child, _, own⟩ := Outcome.exists_of_mem_mapM made member
  unfold Scheme.cell at own
  obtain ⟨written, _, own⟩ := Outcome.bind_eq_ok_iff.1 own
  obtain ⟨inherited, _, own⟩ := Outcome.bind_eq_ok_iff.1 own
  obtain ⟨content, _, own⟩ := Outcome.bind_eq_ok_iff.1 own
  obtain rfl := Outcome.pure_eq_ok_iff.1 own
  exact size written.fontSize

end Scheme

/-! ## The page of a tree -/

namespace Page

open Drawing

/-- A page of this height holds everything that is drawn, above the margin at its bottom. -/
def Contains (drawing : Drawing Rat) (height : Rat) : Prop :=
  ∀ mark ∈ drawing.marks, mark.bottom + bottomMargin ≤ height

instance (drawing : Drawing Rat) (height : Rat) : Decidable (Contains drawing height) :=
  inferInstanceAs (Decidable (∀ mark ∈ drawing.marks, _))

/-- What is left behind is all that a page without a fixed height may cut off. -/
theorem contains_iff {pen : Pen Rat} {drawing : Drawing Rat} (covers : Covers pen drawing) :
    Contains drawing (height drawing.pen none) ↔
      ∀ mark ∈ drawing.leftBehind, mark.bottom ≤ drawing.pen.lowest := by
  constructor
  · intro contains mark member
    exact le_of_add_le_add_right (contains mark (mem_marks_of_mem_leftBehind member))
  · intro kept mark member
    apply add_le_add_left
    rcases covers.marks mark member with behind | above
    · exact kept mark behind
    · exact above

end Page

/-- A document begins in front of everything else, and what follows has a property of all that can be
asked for, the beginning of a document only where there is one inside the tree. -/
theorem Scheme.exists_inside {α : Type} [Scalar α] {scheme : Scheme α} {good : Step α → Prop}
    (yields : scheme.Yields good) (anchors : Anchors α) {root : Node}
    (resets : good .reset ∨ root.restarts scheme.naming = false) :
    ∃ inside : Layout α, inside.All good ∧
      scheme.tree [] anchors root = (Layout.step anchors .reset).andThen fun _ => inside := by
  unfold Node.restarts at resets
  unfold tree
  split
  · rename_i document
    rw [if_pos document] at resets
    obtain ⟨type, props, style, children⟩ := root
    refine ⟨_, all_pages yields [] type 0 anchors children resets, ?_⟩
    rw [node_document _ _ _ _ _ _ _ document]
    rfl
  · rename_i bare
    rw [if_neg bare] at resets
    exact ⟨_, all_node yields [] root.type none anchors root resets, rfl⟩

theorem Page.drawLayout_reset_andThen (pen : Pen Rat) (resolver : Resolver Rat)
    (anchors : Anchors Rat) (inside : Layout Rat) :
    drawLayout .usual resolver pen ((Layout.step anchors .reset).andThen fun _ => inside) =
      (draw .usual resolver pen .reset).andThen fun pen =>
        drawLayout .usual resolver pen inside := by
  unfold drawLayout
  show ((draw .usual resolver pen .reset).andThen fun pen =>
    drawAll .usual resolver pen inside.steps).andThen _ = _
  rw [Drawing.andThen_assoc]
  rfl

namespace Options

variable {options : Options} {pageWidth : Rat} {root : Node}

theorem covers_drawTree (options : Options) (pageWidth : Rat) (root : Node) :
    Drawing.Covers .atTop (drawTree options pageWidth root).1 := by
  have upright : (Step.reset : Step Rat).Upright := trivial
  obtain ⟨inside, sound, plan⟩ := Scheme.exists_inside (Scheme.yields_upright options.naming)
    (.start pageWidth) (Or.inl upright : _ ∨ root.restarts options.naming = false)
  unfold drawTree
  simp only
  rw [plan, Page.drawLayout_reset_andThen]
  exact (Page.covers_draw upright).andThen fun pen => Page.covers_drawLayout sound

/-- Without a document inside the tree nothing is left behind. -/
theorem leftBehind_drawTree (single : root.restarts options.naming = false) :
    (drawTree options pageWidth root).1.leftBehind = [] := by
  have yields : (⟨options.naming, pointResolver⟩ : Scheme Rat).Yields (· ≠ .reset) :=
    ⟨nofun, nofun, nofun, nofun, nofun, nofun, nofun, nofun⟩
  obtain ⟨inside, others, plan⟩ := Scheme.exists_inside yields (.start pageWidth) (Or.inr single)
  have noStart (pen : Pen Rat) :
      (Page.drawLayout .usual pointResolver pen inside).events.any (·.isStart) = false :=
    Page.noStart_drawLayout others
  unfold drawTree
  simp only
  rw [plan, Page.drawLayout_reset_andThen]
  unfold Drawing.leftBehind
  rw [Drawing.andThen_of_none rfl, DrawEvent.leftBehind_append, noStart,
    DrawEvent.leftBehind_eq_nil (noStart _)]
  rfl

/-- A page without a fixed height contains the drawing of a tree exactly when no mark that was left
behind lies below the pen, and nothing is left behind when the walk begins no document inside the
tree. -/
theorem contains_drawTree_iff (options : Options) (pageWidth : Rat) (root : Node)
    {asked : Option Rat}
    (dynamic : Page.fixedHeight (drawTree options pageWidth root).1.pen asked = none) :
    let drawing := (drawTree options pageWidth root).1
    let height := Page.height drawing.pen (Page.fixedHeight drawing.pen asked)
    (Page.Contains drawing height ↔
      ∀ mark ∈ drawing.leftBehind, mark.bottom ≤ drawing.pen.lowest) ∧
      (root.restarts options.naming = false → Page.Contains drawing height) := by
  intro drawing height
  have contains : Page.Contains drawing height ↔
      ∀ mark ∈ drawing.leftBehind, mark.bottom ≤ drawing.pen.lowest := by
    show Page.Contains drawing (Page.height drawing.pen (Page.fixedHeight drawing.pen asked)) ↔ _
    rw [dynamic]
    exact Page.contains_iff (covers_drawTree options pageWidth root)
  refine ⟨contains, fun single => contains.2 fun mark member => ?_⟩
  rw [leftBehind_drawTree single] at member
  cases member

/-- A page with a text and an empty document below it. -/
def reopenedReceipt : Node :=
  ⟨"Document", [], none,
    [⟨"Page", [], none,
      [⟨"Text", [("children", .text "Total")], none, []⟩, ⟨"Document", [], none, []⟩]⟩]⟩

/-- The same page without the document. -/
def plainReceipt : Node :=
  ⟨"Document", [], none,
    [⟨"Page", [], none, [⟨"Text", [("children", .text "Total")], none, []⟩]⟩]⟩

theorem contains_drawTree_iff_plainReceipt :
    let drawing := (drawTree standardPage (205 : Rat) plainReceipt).1
    Page.fixedHeight drawing.pen none = none ∧ drawing.marks.length = 1 ∧
      Page.Contains drawing (Page.height drawing.pen (Page.fixedHeight drawing.pen none)) := by
  intro drawing
  have dynamic : Page.fixedHeight drawing.pen none = none := by decide +kernel
  exact ⟨dynamic, by decide +kernel,
    (contains_drawTree_iff standardPage 205 plainReceipt dynamic).2 (by decide +kernel)⟩

/-- The text lies below the page, which is as high as the empty document alone. -/
theorem not_contains_reopenedReceipt :
    let drawing := (drawTree standardPage (205 : Rat) reopenedReceipt).1
    drawing.fault = none ∧ Page.fixedHeight drawing.pen none = none ∧
      ¬ Page.Contains drawing (Page.height drawing.pen (Page.fixedHeight drawing.pen none)) := by
  decide +kernel

end Options

end Receipt
