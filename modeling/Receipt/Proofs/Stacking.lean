import Receipt.Page.Device
import Receipt.Proofs.Boxes
import Receipt.Proofs.PageHeight

/-!
# Drawing goes down the page

A page is drawn on by single calls, between which boxes are entered and left (`Page.Canvas`). Each
kind of call finds its own way from the height of the pen to the place of its marks and to the
height behind it: a baseline by the size of the text, a stroke by half a divider, a picture by its
shape, a symbol by its side.

Whatever the call and the box, the pen moves down over what it has drawn, or not at all
(`Page.descends_of_drawing?`). So in every run the marks of one call end where those of a later call
may begin, and the pen is nowhere but at the lowest point it has reached: `Page.Canvas.stacks_run`.
-/

namespace Receipt

namespace Mark

variable {α : Type}

/-- The upper edge of a mark: the baseline of a text, the stroke of a line, the upper edge of a
picture or symbol. -/
def top : Mark α → α
  | .text _ _ y _ _ _ => y
  | .line _ _ y _ => y
  | .picture _ _ y _ _ => y
  | .symbol _ _ y _ => y

end Mark

namespace Page

/-- A call that draws on a page or moves the pen. -/
inductive Call (α : Type) where
  | line (text : String) (align : Alignment) (bold : Bool) (size paddingLeft paddingRight : α)
  | row (placements : List (Placement α))
  | divider (dashed : Bool)
  | space (amount : α)
  | picture (picture : Picture) (width : α) (align : Option Alignment)
  /-- A command of a receipt printer. -/
  | order (command : Command)

/-- What happens between the calls as well: boxes are entered and left, and an alignment is set. -/
inductive Move (α : Type) where
  | call (call : Call α)
  | push (left right : α)
  | narrow (width : Option α)
  | frame (left width : α)
  | leave
  | setAlign (align : Option Alignment)

/-- A page while it is drawn on: the box in force, the boxes to go back to, and the pen. -/
structure Canvas (α : Type) where
  extent : Extent α
  entered : List (Extent α)
  pen : Pen α

/-- What one call has drawn, and the pen before and behind it. -/
structure Stroke (α : Type) where
  before : Pen α
  marks : List (Mark α)
  behind : Pen α

section Machine

variable {α : Type} [Scalar α]

/-- The drawing of a call; none when the page refuses it. -/
def Call.drawing? (setting : Setting α) (extent : Extent α) (pen : Pen α) :
    Call α → Option (Drawing α)
  | .line text align bold size paddingLeft paddingRight =>
    some (drawLine setting extent text align bold size paddingLeft paddingRight pen)
  | .row placements => some (drawPlacements setting extent pen placements)
  | .divider dashed => some (drawDivider extent pen dashed)
  | .space amount => some (drawSpace pen amount)
  | .picture shown width align => some (drawPicture extent pen shown width align)
  | .order command => obey? setting extent pen command

namespace Canvas

/-- Enters a box. -/
def enter (canvas : Canvas α) (inner : Extent α) : Canvas α :=
  { canvas with extent := inner, entered := canvas.extent :: canvas.entered }

/-- Goes back to the box around. -/
def leave (canvas : Canvas α) : Canvas α :=
  match canvas.entered with
  | [] => canvas
  | outer :: entered => { canvas with extent := outer, entered := entered }

/-- The page behind a move, and what was drawn. A call that is refused changes nothing. -/
def move (setting : Setting α) (canvas : Canvas α) : Move α → Canvas α × List (Stroke α)
  | .call call =>
    match call.drawing? setting canvas.extent canvas.pen with
    | none => (canvas, [])
    | some drawing =>
      ({ canvas with pen := drawing.pen }, [⟨canvas.pen, drawing.marks, drawing.pen⟩])
  | .push left right => (canvas.enter (canvas.extent.inset left right), [])
  | .narrow width => (canvas.enter (canvas.extent.narrowed width), [])
  | .frame left width => (canvas.enter (canvas.extent.framed left width), [])
  | .leave => (canvas.leave, [])
  | .setAlign align => ({ canvas with pen := { canvas.pen with align := align } }, [])

/-- The page behind the beginning of a document. -/
def begun (setting : Setting α) (canvas : Canvas α) : Canvas α :=
  (canvas.move setting (.call (.order .init))).1

/-- The page behind a run of moves, and what was drawn in order. -/
def run (setting : Setting α) (canvas : Canvas α) : List (Move α) → Canvas α × List (Stroke α)
  | [] => (canvas, [])
  | next :: moves =>
    let (between, first) := canvas.move setting next
    let (last, strokes) := between.run setting moves
    (last, first ++ strokes)

end Canvas

end Machine

/-! ## One call -/

/-- No text has a size below zero, and the page is not begun again. -/
def Call.Upright : Call Rat → Prop
  | .line _ _ _ size _ _ => 0 ≤ size
  | .row placements => ∀ placement ∈ placements, 0 ≤ placement.pointSize
  | .order command => command ≠ .init
  | .divider _ | .space _ | .picture _ _ _ => True

def Move.Upright : Move Rat → Prop
  | .call asked => asked.Upright
  | .push _ _ | .narrow _ | .frame _ _ | .leave | .setAlign _ => True

/-- The height of a drawing. The pen moves down, and is at the lowest point it has reached; what is
drawn lies between the pen before and behind it. -/
structure Descends (before : Pen Rat) (marks : List (Mark Rat)) (behind : Pen Rat) : Prop where
  level : behind.lowest = behind.y
  down : before.y ≤ behind.y
  between : ∀ mark ∈ marks, before.y ≤ mark.top ∧ mark.top ≤ mark.bottom ∧ mark.bottom ≤ behind.y

section Calls

variable {pen : Pen Rat} (level : pen.lowest = pen.y)

include level

theorem descends_still : Descends pen [] pen := ⟨level, le_rfl, nofun⟩

theorem descends_advance {amount : Rat} (nonneg : 0 ≤ amount) {marks : List (Mark Rat)}
    (between : ∀ mark ∈ marks,
      pen.y ≤ mark.top ∧ mark.top ≤ mark.bottom ∧ mark.bottom ≤ pen.y + amount) :
    Descends pen marks (pen.advance amount) := by
  have down : pen.y ≤ pen.y + amount := le_add_of_nonneg_right nonneg
  refine ⟨?_, down, between⟩
  show Scalar.max pen.lowest (pen.y + amount) = pen.y + amount
  rw [Scalar.max_rat, level, max_eq_right down]

/-- A text whose size is no more than its line stands on the line. -/
theorem descends_baseline {setting : Setting Rat} (spaced : 1 ≤ setting.lineHeight) {size : Rat}
    (upright : 0 ≤ size) {marks : List (Mark Rat)}
    (baseline : ∀ mark ∈ marks, mark.top = pen.y + size ∧ mark.bottom = pen.y + size) :
    Descends pen marks (pen.advance (setting.lineAdvance size)) := by
  have fits := le_lineAdvance spaced upright
  refine descends_advance level (upright.trans fits) fun mark member => ?_
  obtain ⟨top, bottom⟩ := baseline mark member
  rw [top, bottom]
  exact ⟨le_add_of_nonneg_right upright, le_rfl, add_le_add_right fits _⟩

theorem descends_drawPicture (extent : Extent Rat) (picture : Picture) (width : Rat)
    (align : Option Alignment) :
    Descends pen (drawPicture extent pen picture width align).marks
      (drawPicture extent pen picture width align).pen := by
  unfold drawPicture
  split
  · exact descends_still level
  · next shown =>
    have positive : 0 < width := by
      by_contra none
      exact shown (Bool.or_eq_true_iff.2 (.inr (decide_eq_true (not_lt.1 none))))
    have height : 0 ≤ width * Scalar.ofNat picture.height / Scalar.ofNat picture.width := by
      rw [Scalar.ofNat_rat, Scalar.ofNat_rat]
      positivity
    refine descends_advance level height fun mark member => ?_
    rw [List.mem_singleton.1 member]
    exact ⟨le_rfl, le_add_of_nonneg_right height, le_rfl⟩

theorem descends_drawSymbol (extent : Extent Rat) (data : String) (size : Int)
    (align : Option Alignment) :
    Descends pen (drawSymbol extent pen data size align).marks
      (drawSymbol extent pen data size align).pen := by
  unfold drawSymbol
  split
  · exact descends_still level
  · next modules made =>
    obtain rfl := Except.ok.inj made
    have some : 0 ≤ max 1 size * symbolModules :=
      mul_nonneg (zero_le_one.trans (le_max_left 1 size)) (by decide)
    have dot : 0 ≤ (dotSize : Rat) := by decide +kernel
    have side : 0 ≤ Scalar.min extent.width
        (((max 1 size * symbolModules : Int) : Rat) * dotSize) := by
      rw [Scalar.min_rat]
      exact le_min (extent.width_nonneg) (mul_nonneg (Int.cast_nonneg some) dot)
    refine descends_advance level side fun mark member => ?_
    rw [List.mem_singleton.1 member]
    exact ⟨le_rfl, le_add_of_nonneg_right side, le_rfl⟩

theorem descends_drawBitmap? {extent : Extent Rat} {bytes : List UInt8} {width height : Int}
    {drawing : Drawing Rat} (drawn : drawBitmap? extent pen bytes width height = some drawing) :
    Descends pen drawing.marks drawing.pen := by
  unfold drawBitmap? at drawn
  split at drawn
  · cases drawn
  · obtain ⟨bitmap, _, rfl⟩ := Option.map_eq_some_iff.1 drawn
    exact descends_drawPicture level extent _ _ _

/-- A command that does not begin the page again moves the pen down over what it draws. -/
theorem descends_obey? {setting : Setting Rat} (spaced : 1 ≤ setting.lineHeight)
    (upright : 0 ≤ setting.fontSize) {extent : Extent Rat} {command : Command}
    (going : command ≠ .init) {drawing : Drawing Rat}
    (drawn : obey? setting extent pen command = some drawing) :
    Descends pen drawing.marks drawing.pen := by
  have feeds (lines : Int) : Descends pen [] (feed setting pen lines) := by
    refine descends_advance level (mul_nonneg ?_ ?_) nofun
    · rw [Scalar.ofNat_rat]
      exact Nat.cast_nonneg _
    · exact upright.trans (le_lineAdvance spaced upright)
  cases command with
  | init => exact absurd rfl going
  | align _ | characterSize _ _ | emphasis _ | lineSpacing _ | text _ | cut _ _ =>
    obtain rfl := Option.some.inj drawn
    exact descends_still level
  | lineFeed lines | feed lines =>
    obtain rfl := Option.some.inj drawn
    exact feeds lines
  | raster bytes width height => exact descends_drawBitmap? level drawn
  | symbol data size =>
    obtain rfl := Option.some.inj drawn
    exact descends_drawSymbol level extent data size pen.align

/-- Whatever a call draws, the pen moves down over it. -/
theorem descends_of_drawing? {setting : Setting Rat} (spaced : 1 ≤ setting.lineHeight)
    (upright : 0 ≤ setting.fontSize) {extent : Extent Rat} {call : Call Rat} (own : call.Upright)
    {drawing : Drawing Rat} (drawn : call.drawing? setting extent pen = some drawing) :
    Descends pen drawing.marks drawing.pen := by
  cases call with
  | line text align bold size paddingLeft paddingRight =>
    obtain rfl := Option.some.inj drawn
    refine descends_baseline level spaced own fun mark member => ?_
    rw [drawLine, Drawing.marks_draw] at member
    split at member
    · cases member
    · rw [List.mem_singleton.1 member]
      exact ⟨rfl, rfl⟩
  | row placements =>
    obtain rfl := Option.some.inj drawn
    cases placements with
    | nil => exact descends_still level
    | cons first rest =>
      have size : 0 ≤ tallest first rest :=
        (own first (List.mem_cons_self ..)).trans (le_tallest first rest)
      refine descends_baseline level spaced size fun mark member => ?_
      rw [drawPlacements, Drawing.marks_draw] at member
      obtain ⟨placement, _, rfl⟩ := List.mem_map.1 member
      exact ⟨rfl, rfl⟩
  | divider dashed =>
    obtain rfl := Option.some.inj drawn
    have half : 0 ≤ (dividerAdvance : Rat) / Scalar.ofNat 2 := by decide +kernel
    have rest : (dividerAdvance : Rat) / Scalar.ofNat 2 ≤ dividerAdvance := by decide +kernel
    refine descends_advance level (half.trans rest) fun mark member => ?_
    rw [List.mem_singleton.1 member]
    exact ⟨le_add_of_nonneg_right half, le_rfl, add_le_add_right rest _⟩
  | space amount =>
    obtain rfl := Option.some.inj drawn
    show Descends pen [] (if Scalar.zero < amount then pen.advance amount else pen)
    split
    · next more => exact descends_advance level more.le nofun
    · exact descends_still level
  | picture shown width align =>
    obtain rfl := Option.some.inj drawn
    exact descends_drawPicture level extent shown width align
  | order command => exact descends_obey? level spaced upright own drawn

end Calls

/-! ## Runs -/

/-- A run from a pen on: it goes down from there, each of its calls does, and the marks of one call
end where those of a later call may begin. -/
structure Stacks (start : Pen Rat) (run : Canvas Rat × List (Stroke Rat)) : Prop where
  level : run.1.pen.lowest = run.1.pen.y
  down : start.y ≤ run.1.pen.y
  each : ∀ stroke ∈ run.2, stroke.before.lowest = stroke.before.y ∧
    Descends stroke.before stroke.marks stroke.behind
  within : ∀ stroke ∈ run.2, start.y ≤ stroke.before.y ∧ stroke.behind.y ≤ run.1.pen.y
  apart : run.2.Pairwise fun earlier later => earlier.behind.y ≤ later.before.y ∧
    ∀ mark ∈ earlier.marks, ∀ other ∈ later.marks, mark.bottom ≤ other.top

/-- Runs one behind the other. -/
theorem Stacks.append {start : Pen Rat} {between last : Canvas Rat}
    {first second : List (Stroke Rat)} (former : Stacks start (between, first))
    (latter : Stacks between.pen (last, second)) : Stacks start (last, first ++ second) where
  level := latter.level
  down := former.down.trans latter.down
  each stroke member := (List.mem_append.1 member).elim (former.each stroke) (latter.each stroke)
  within stroke member := by
    rcases List.mem_append.1 member with early | late
    · obtain ⟨top, bottom⟩ := former.within stroke early
      exact ⟨top, bottom.trans latter.down⟩
    · obtain ⟨top, bottom⟩ := latter.within stroke late
      exact ⟨former.down.trans top, bottom⟩
  apart := by
    refine List.pairwise_append.2 ⟨former.apart, latter.apart, fun earlier early later late => ?_⟩
    have order : earlier.behind.y ≤ later.before.y :=
      (former.within earlier early).2.trans (latter.within later late).1
    refine ⟨order, fun mark member other also => ?_⟩
    exact ((former.each earlier early).2.between mark member).2.2.trans
      (order.trans ((latter.each later late).2.between other also).1)

namespace Canvas

variable {setting : Setting Rat} {canvas : Canvas Rat}

/-- A move without a mark, which leaves the pen where it is. -/
theorem stacks_still {next : Canvas Rat} (level : canvas.pen.lowest = canvas.pen.y)
    (same : next.pen.y = canvas.pen.y) (also : next.pen.lowest = canvas.pen.lowest) :
    Stacks canvas.pen (next, []) := by
  refine ⟨?_, ?_, fun stroke member => absurd member List.not_mem_nil,
    fun stroke member => absurd member List.not_mem_nil, .nil⟩
  · show next.pen.lowest = next.pen.y
    rw [also, same, level]
  · show canvas.pen.y ≤ next.pen.y
    rw [same]

/-- One move goes down. -/
theorem stacks_move (spaced : 1 ≤ setting.lineHeight) (upright : 0 ≤ setting.fontSize)
    (level : canvas.pen.lowest = canvas.pen.y) {move : Move Rat} (own : move.Upright) :
    Stacks canvas.pen (canvas.move setting move) := by
  cases move with
  | call call =>
    unfold Canvas.move
    cases drawn : call.drawing? setting canvas.extent canvas.pen with
    | none =>
      simp only [drawn]
      exact stacks_still level rfl rfl
    | some drawing =>
      simp only [drawn]
      have descends := descends_of_drawing? level spaced upright own drawn
      refine ⟨descends.level, descends.down, fun stroke member => ?_, fun stroke member => ?_,
        List.pairwise_singleton _ _⟩
      · rw [List.mem_singleton.1 member]
        exact ⟨level, descends⟩
      · rw [List.mem_singleton.1 member]
        exact ⟨le_rfl, le_rfl⟩
  | push left right => exact stacks_still level rfl rfl
  | narrow width => exact stacks_still level rfl rfl
  | frame left width => exact stacks_still level rfl rfl
  | setAlign align => exact stacks_still level rfl rfl
  | leave =>
    have same : canvas.leave.pen = canvas.pen := by
      unfold Canvas.leave
      split <;> rfl
    exact stacks_still level (congrArg Pen.y same) (congrArg Pen.lowest same)

theorem stacks_run_of_level (spaced : 1 ≤ setting.lineHeight) (upright : 0 ≤ setting.fontSize)
    (level : canvas.pen.lowest = canvas.pen.y) {moves : List (Move Rat)}
    (own : ∀ move ∈ moves, move.Upright) : Stacks canvas.pen (canvas.run setting moves) := by
  induction moves generalizing canvas with
  | nil => exact stacks_still level rfl rfl
  | cons move moves ih =>
    have first := stacks_move spaced upright level (own move (List.mem_cons_self ..))
    exact first.append
      (ih first.level fun other member => own other (List.mem_cons_of_mem _ member))

/-- Behind the beginning of a document, a run of calls goes down the page, in whatever order and in
whatever boxes they are made. -/
theorem stacks_run (setting : Setting Rat) (canvas : Canvas Rat) (moves : List (Move Rat))
    (spaced : 1 ≤ setting.lineHeight) (upright : 0 ≤ setting.fontSize)
    (own : ∀ move ∈ moves, move.Upright) :
    Stacks (canvas.begun setting).pen ((canvas.begun setting).run setting moves) :=
  stacks_run_of_level spaced upright rfl own

/-- A heading in a box with margins, a stroke below it, and a symbol in a frame. -/
def ticketMoves : List (Move Rat) :=
  [.push 10 10, .call (.line "Ticket" .center true 12 0 0), .call (.divider true), .leave,
    .frame 20 50, .call (.order (.symbol "A1" 3)), .leave]

theorem stacks_run_ticketMoves :
    Stacks ((⟨⟨200, []⟩, [], .atTop⟩ : Canvas Rat).begun .usual).pen
      (((⟨⟨200, []⟩, [], .atTop⟩ : Canvas Rat).begun .usual).run .usual ticketMoves) :=
  stacks_run .usual _ ticketMoves one_le_lineHeight_usual (by decide +kernel) (by
    simp only [ticketMoves, List.forall_mem_cons, Move.Upright, Call.Upright]
    refine ⟨trivial, by decide, trivial, trivial, trivial, nofun, trivial, nofun⟩)

end Canvas

end Page

end Receipt
