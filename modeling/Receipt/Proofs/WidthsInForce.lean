import Receipt.Proofs.PictureBox
import Receipt.Proofs.Reached
import Receipt.Proofs.Zero

/-!
# The page width in force

A page that states a width brings it into force for all steps behind its beginning, and nothing
takes it back. `Scheme.Follows` is the invariant of the walk through a tree: every step rests on the
width in force in front of it, and the width behind the walk is the last one that the pages it began
state. `Node.opened` lists these pages.

`follows_trace` is the main statement. `edges_of_flush` adds where the dividers are that go across
the whole page.
-/

namespace Receipt

namespace Node

mutual

/-- The pages that the walk through an element begins, in document order. -/
def opened (naming : Naming) : Node → List Node
  | ⟨type, props, style, children⟩ =>
    match naming.kind? type with
    | some .document => openedPages naming children
    | some .page => ⟨type, props, style, children⟩ :: openedAll naming children
    | some .view => if isRowOf style children then [] else openedAll naming children
    | some .text | some .run | some .image => []
    | none => openedAll naming children

/-- The pages that the walk through several elements begins. -/
def openedAll (naming : Naming) : List Node → List Node
  | [] => []
  | ⟨type, props, style, children⟩ :: rest =>
    opened naming ⟨type, props, style, children⟩ ++ openedAll naming rest

/-- The pages that the walk through the pages among the children of a document begins. -/
def openedPages (naming : Naming) : List Node → List Node
  | [] => []
  | ⟨type, props, style, children⟩ :: rest =>
    if naming.kind? type = some .page then
      opened naming ⟨type, props, style, children⟩ ++ openedPages naming rest
    else openedPages naming rest

end

end Node

/-- The page width that the content box of a step rests on. -/
def Step.pageWidth? {α : Type} : Step α → Option α
  | .text _ _ extent | .row _ _ extent | .divider _ extent | .picture _ _ _ _ extent
  | .symbol _ _ _ _ extent => some extent.pageWidth
  | .reset | .page .. | .space _ | .sourceless _ => none

/-- Whether a step is a divider. -/
def Step.isDivider {α : Type} : Step α → Bool
  | .divider .. => true
  | .reset | .page .. | .text .. | .row .. | .space _ | .picture .. | .symbol .. | .sourceless _ =>
    false

namespace Scheme

open Outcome Traced

variable {α : Type} [Scalar α]

/-- The width that a page states, when it states one. -/
def widthOf (scheme : Scheme α) (page : Node) : Option α :=
  match scheme.ownWidth? page.props with
  | .ok stated => stated
  | .error _ => none

/-- The width that a step brings into force: the beginning of a page that states one does. -/
def brought (scheme : Scheme α) (marked : Site × Step α) : Option α :=
  match marked.2 with
  | .page .. => scheme.widthOf marked.1.node
  | .reset | .text .. | .row .. | .divider .. | .space _ | .picture .. | .symbol ..
  | .sourceless _ => none

/-- The width in force behind steps: the last one that they bring, or else that in front of them. -/
def widthBehind (scheme : Scheme α) (start : α) (steps : List (Site × Step α)) : α :=
  (steps.filterMap scheme.brought).getLastD start

/-- Every step rests on the width in force in front of it. -/
def Rests (scheme : Scheme α) (start : α) : List (Site × Step α) → Prop
  | [] => True
  | marked :: behind =>
    (∀ width, marked.2.pageWidth? = some width → width = start) ∧
      Rests scheme (scheme.widthBehind start [marked]) behind

/-- A divider lies in the bordered box of the container that asked for it; that box is in no other
one when no box surrounds the container. -/
def Borders (scheme : Scheme α) (marked : Site × Step α) : Prop :=
  ∀ border extent, marked.2 = .divider border extent →
    ∃ outer look, scheme.lookOf marked.1.node outer = .ok look ∧
      extent.insets = (look.bordered outer).insets ∧
      ((∀ node ∈ marked.1.around, ¬ scheme.isBox node) → outer.insets = [])

section Widths

variable {scheme : Scheme α} {start : α}

theorem widthBehind_append (first second : List (Site × Step α)) :
    scheme.widthBehind start (first ++ second) =
      scheme.widthBehind (scheme.widthBehind start first) second := by
  unfold widthBehind
  simp only [List.filterMap_append, List.getLastD_eq_getLast?, List.getLast?_append]
  cases (second.filterMap scheme.brought).getLast? with
  | none => rfl
  | some width => rfl

theorem rests_append {first second : List (Site × Step α)} :
    scheme.Rests start (first ++ second) ↔
      scheme.Rests start first ∧ scheme.Rests (scheme.widthBehind start first) second := by
  induction first generalizing start with
  | nil => exact (true_and _).to_iff.symm
  | cons marked first ih =>
    have behind : scheme.widthBehind start (marked :: first) =
        scheme.widthBehind (scheme.widthBehind start [marked]) first :=
      widthBehind_append [marked] first
    rw [List.cons_append, Rests, Rests, ih, behind, and_assoc]

/-- A step that rests on a width brings none. -/
theorem brought_of_pageWidth? {marked : Site × Step α} {width : α}
    (rests : marked.2.pageWidth? = some width) : scheme.brought marked = none := by
  obtain ⟨site, step⟩ := marked
  cases step with
  | page height wraps => cases rests
  | _ => rfl

/-- What steps bring behind a width leaves it as it is exactly when the last of it is the same. -/
theorem widthBehind_eq_iff {steps : List (Site × Step α)} :
    scheme.widthBehind start steps = start ↔
      ∀ last ∈ (steps.filterMap scheme.brought).getLast?, last = start := by
  unfold widthBehind
  rw [List.getLastD_eq_getLast?]
  cases (steps.filterMap scheme.brought).getLast? with
  | none => simp
  | some width => simp

end Widths

/-! ## The walk -/

/-- The steps of a trace rest on the widths in force, its dividers lie in the boxes of their
containers, and when it comes to its end it has brought the widths of these pages. -/
structure Follows (scheme : Scheme α) (pages : List Node) (start : α) (traced : Traced α) :
    Prop where
  rests : scheme.Rests start traced.steps
  borders : ∀ marked ∈ traced.steps, scheme.Borders marked
  brought : traced.fault = none →
    traced.steps.filterMap scheme.brought = pages.filterMap scheme.widthOf
  behind : traced.fault = none →
    traced.anchors.pageWidth = scheme.widthBehind start traced.steps

namespace Follows

variable {scheme : Scheme α} {pages others : List Node} {start : α} {site : Site}
  {anchors : Anchors α} {traced : Traced α}

theorem done (anchors : Anchors α) : scheme.Follows [] anchors.pageWidth ⟨[], anchors, none⟩ :=
  ⟨trivial, nofun, fun _ => rfl, fun _ => rfl⟩

theorem failed (anchors : Anchors α) (fault : NumberFault) :
    scheme.Follows pages start ⟨[], anchors, some fault⟩ :=
  ⟨trivial, nofun, nofun, nofun⟩

/-- A step that begins no page. -/
theorem single {step : Step α} (other : scheme.brought (site, step) = none)
    (rests : ∀ width, step.pageWidth? = some width → width = anchors.pageWidth)
    (borders : scheme.Borders (site, step)) :
    scheme.Follows [] anchors.pageWidth (mark site (Layout.step anchors step)) where
  rests := ⟨rests, trivial⟩
  borders marked member := by
    rw [List.mem_singleton.1 member]
    exact borders
  brought _ := List.filterMap_cons_none other
  behind _ := by
    unfold widthBehind
    rw [show (mark site (Layout.step anchors step)).steps.filterMap scheme.brought = [] from
      List.filterMap_cons_none other]
    rfl

theorem andThen {first : Traced α} {next : Anchors α → Traced α}
    (follows : scheme.Follows pages start first)
    (goesOn : ∀ anchors, scheme.Follows others anchors.pageWidth (next anchors)) :
    scheme.Follows (pages ++ others) start (first.andThen next) := by
  unfold Traced.andThen
  cases ended : first.fault with
  | some fault =>
    refine ⟨follows.rests, follows.borders, ?_, ?_⟩
    all_goals
      rw [ended]
      exact nofun
  | none =>
    have later := goesOn first.anchors
    rw [follows.behind ended] at later
    refine ⟨rests_append.2 ⟨follows.rests, later.rests⟩, fun marked member => ?_,
      fun whole => ?_, fun whole => ?_⟩
    · rcases List.mem_append.1 member with member | member
      · exact follows.borders marked member
      · exact later.borders marked member
    · rw [List.filterMap_append, List.filterMap_append, follows.brought ended,
        later.brought whole]
    · rw [widthBehind_append]
      exact later.behind whole

/-- What begins no page may stand in front. -/
theorem before {first : Traced α} {next : Anchors α → Traced α}
    (silent : scheme.Follows [] start first)
    (goesOn : ∀ anchors, scheme.Follows pages anchors.pageWidth (next anchors)) :
    scheme.Follows pages start (first.andThen next) :=
  silent.andThen goesOn

theorem andThen_silent {first : Traced α} {next : Anchors α → Traced α}
    (follows : scheme.Follows pages start first)
    (goesOn : ∀ anchors, scheme.Follows [] anchors.pageWidth (next anchors)) :
    scheme.Follows pages start (first.andThen next) := by
  have both := follows.andThen goesOn
  rwa [List.append_nil] at both

theorem withResolved {β : Type} {resolved : Except NumberFault β} {next : β → Traced α}
    (goesOn : ∀ value, resolved = .ok value → scheme.Follows pages start (next value)) :
    scheme.Follows pages start (Traced.withResolved anchors resolved next) := by
  cases resolved with
  | error fault => exact failed anchors fault
  | ok value => exact goesOn value rfl

theorem restoringFrame (follows : scheme.Follows pages start traced) (frame : PictureFrame α) :
    scheme.Follows pages start (traced.restoringFrame frame) :=
  ⟨follows.rests, follows.borders, follows.brought, follows.behind⟩

/-- A step outside all boxes that begins no page. -/
theorem silent {step : Step α} (other : scheme.brought (site, step) = none)
    (noBox : step.pageWidth? = none) :
    scheme.Follows [] anchors.pageWidth (mark site (Layout.step anchors step)) := by
  refine single other (fun width own => ?_) fun border extent divides => ?_
  · rw [noBox] at own
    cases own
  · obtain rfl : step = .divider border extent := divides
    cases noBox

/-- A step in a box of the page that is no divider. -/
theorem boxed {step : Step α} {width : α} (rests : step.pageWidth? = some width)
    (kept : width = anchors.pageWidth) (other : step.isDivider = false) :
    scheme.Follows [] anchors.pageWidth (mark site (Layout.step anchors step)) := by
  refine single (brought_of_pageWidth? rests) (fun own found => ?_) fun border extent divides => ?_
  · obtain rfl := Option.some.inj (rests.symm.trans found)
    exact kept
  · obtain rfl : step = .divider border extent := divides
    cases other

end Follows

section Walk

variable {scheme : Scheme α} {site : Site} {insets : List (α × α)} {anchors : Anchors α}

theorem follows_space (site : Site) (amount : α) (anchors : Anchors α) :
    scheme.Follows [] anchors.pageWidth (mark site (Layout.step anchors (.space amount))) :=
  Follows.silent rfl rfl

theorem follows_reset (site : Site) (anchors : Anchors α) :
    scheme.Follows [] anchors.pageWidth (mark site (Layout.step anchors .reset)) :=
  Follows.silent rfl rfl

theorem follows_border {look : BoxLook α} {outer : Extent α}
    (resolved : scheme.lookOf site.node outer = .ok look)
    (bare : (∀ node ∈ site.around, ¬ scheme.isBox node) → outer.insets = [])
    (asked : Option Border) (anchors : Anchors α) :
    scheme.Follows [] anchors.pageWidth
      (mark site (border (look.bordered outer).insets asked anchors)) := by
  cases asked with
  | none => exact Follows.done anchors
  | some found =>
    refine Follows.single rfl (fun width own => (Option.some.inj own).symm) ?_
    intro border extent divides
    obtain ⟨rfl, rfl⟩ := Step.divider.inj divides
    exact ⟨outer, look, resolved, rfl, bare⟩

/-- A container follows when its content does. -/
theorem follows_traceBoxed {pages : List Node} {look : BoxLook α}
    (resolved : scheme.lookOf site.node (extentOf anchors insets) = .ok look)
    (bare : (∀ node ∈ site.around, ¬ scheme.isBox node) → insets = [])
    {content : List (α × α) → Anchors α → Traced α}
    (inside : ∀ inner anchors, scheme.Follows pages anchors.pageWidth (content inner anchors)) :
    scheme.Follows pages anchors.pageWidth (traceBoxed site look insets anchors content) := by
  have border (asked : Option Border) (later : Anchors α) :
      scheme.Follows [] later.pageWidth
        (mark site (Scheme.border (look.bordered (extentOf anchors insets)).insets asked later)) :=
    follows_border resolved bare asked later
  unfold traceBoxed
  refine (follows_space ..).before fun anchors => ?_
  refine (border look.borderTop anchors).before fun anchors => ?_
  refine (follows_space ..).before fun anchors => ?_
  refine (inside _ anchors).andThen_silent fun anchors => ?_
  refine (follows_space ..).before fun anchors => ?_
  exact (border look.borderBottom anchors).before fun anchors => follows_space ..

/-- A page begins with the width that it states, or else with the one in force. -/
theorem follows_beginPage (site : Site) (anchors : Anchors α) :
    scheme.Follows [site.node] anchors.pageWidth
      (mark site (scheme.beginPage site.node.props anchors)) := by
  have stated {width : Option α} (own : scheme.ownWidth? site.node.props = .ok width) :
      [site.node].filterMap scheme.widthOf = width.toList := by
    have found : scheme.widthOf site.node = width := by
      unfold widthOf
      rw [own]
    cases width with
    | none => exact List.filterMap_cons_none found
    | some width => exact List.filterMap_cons_some found
  cases target : scheme.resolver.target with
  | cells =>
    unfold beginPage
    rw [target]
    exact ⟨trivial, nofun, fun _ => (stated (ownWidth?_of_cells target _)).symm, fun _ => rfl⟩
  | points =>
    obtain ⟨height, wraps, begins⟩ := beginPage_of_points target site.node.props anchors
    rw [begins]
    cases own : scheme.ownWidth? site.node.props with
    | error fault => exact Follows.failed anchors fault
    | ok width =>
      cases (statedSize? height : Except NumberFault (Option α)) with
      | error fault => exact Follows.failed _ fault
      | ok height =>
        have brought : [(site, (Step.page height wraps : Step α))].filterMap scheme.brought =
            width.toList := stated own
        refine ⟨⟨nofun, trivial⟩, fun marked member => ?_, fun _ => ?_, fun _ => ?_⟩
        · rw [List.mem_singleton.1 member]
          exact nofun
        · rw [stated own]
          exact brought
        · show width.getD anchors.pageWidth =
            ([(site, (Step.page height wraps : Step α))].filterMap scheme.brought).getLastD _
          rw [brought]
          cases width with
          | none => rfl
          | some width => rfl

theorem follows_picture (site : Site) (anchors : Anchors α) (path : String)
    (props style : Fields) :
    scheme.Follows [] anchors.pageWidth (mark site (picture anchors path props style)) := by
  have own : (pictureExtent anchors).pageWidth = anchors.pageWidth := rfl
  unfold picture
  rw [mark_withResolved]
  refine Follows.withResolved fun align _ => ?_
  dsimp only
  split
  · split
    · exact Follows.silent rfl rfl
    · exact Follows.boxed rfl own rfl
  · simp only [mark_withResolved]
    refine Follows.withResolved fun payload _ => Follows.withResolved fun size _ => ?_
    exact Follows.boxed rfl own rfl

theorem follows_textual (site : Site) (inherited : Option Alignment) (anchors : Anchors α)
    (content : Except NumberFault String) (style : Fields) :
    scheme.Follows [] anchors.pageWidth
      (mark site (scheme.textual insets inherited anchors content style)) := by
  unfold textual
  simp only [mark_withResolved]
  refine Follows.withResolved fun written _ => Follows.withResolved fun content _ => ?_
  exact Follows.boxed rfl rfl rfl

theorem follows_row (site : Site) (children : List Node) (justify : Value)
    (anchors : Anchors α) :
    scheme.Follows [] anchors.pageWidth
      (mark site (Layout.withResolved anchors (scheme.cells children) fun cells =>
        Layout.step anchors (.row cells justify (extentOf anchors insets)))) := by
  rw [mark_withResolved]
  exact Follows.withResolved fun cells _ => Follows.boxed rfl rfl rfl

theorem follows_emptyView (site : Site) (height : Option α) (anchors : Anchors α) :
    scheme.Follows [] anchors.pageWidth (mark site (scheme.emptyView height anchors)) := by
  unfold emptyView
  cases scheme.resolver.target with
  | cells => exact Follows.done anchors
  | points => exact follows_space ..

-- The induction follows the walk. Of the insets it carries only that there are none as long as no
-- box surrounds the element.
mutual

/-- An element follows, and the pages that it begins bring their widths. -/
theorem follows_traceNode (around : List Node) (insets : List (α × α)) (path : String)
    (inherited : Option Alignment) (anchors : Anchors α)
    (bare : (∀ node ∈ around, ¬ scheme.isBox node) → insets = []) :
    ∀ node, scheme.Follows (node.opened scheme.naming) anchors.pageWidth
      (scheme.traceNode around insets path inherited anchors node)
  | ⟨type, props, style, children⟩ => by
    have further (node : Node) (all : ∀ other ∈ node :: around, ¬ scheme.isBox other) :
        insets = [] :=
      bare fun other member => all other (List.mem_cons_of_mem _ member)
    have boxed (kind : scheme.isBox ⟨type, props, style, children⟩) (inner : List (α × α))
        (all : ∀ other ∈ ⟨type, props, style, children⟩ :: around, ¬ scheme.isBox other) :
        inner = [] :=
      absurd kind (all _ (List.mem_cons_self ..))
    unfold traceNode Node.opened
    cases kind : scheme.naming.kind? type with
    | none => exact follows_traceNodes _ insets path 0 inherited anchors (further _) children
    | some found =>
      cases found with
      | document =>
        refine (follows_reset _ anchors).before fun anchors => ?_
        exact follows_tracePages _ insets path 0 anchors (further _) children
      | page =>
        refine (follows_beginPage ⟨⟨type, props, style, children⟩, around⟩ anchors).andThen
          fun anchors => ?_
        refine Follows.withResolved fun written read => Follows.withResolved fun look resolved => ?_
        refine follows_traceBoxed (lookOf_eq_ok read resolved) bare fun inner anchors => ?_
        exact follows_traceNodes _ inner path 0 none
          { anchors with
            pageBox := some ((extentOf anchors inner).left, (extentOf anchors inner).right)
            frame := ⟨none, none⟩ }
          (boxed (Or.inl kind) inner) children
      | view =>
        refine Follows.withResolved fun written read => Follows.withResolved fun look resolved => ?_
        refine follows_traceBoxed (lookOf_eq_ok read resolved) bare fun inner anchors => ?_
        have row : Node.isRowOf style children = (written.isRow && 1 < children.length) := by
          rw [isRow_of_ofFields read]
          rfl
        simp only [row]
        cases children with
        | nil =>
          simp only [List.length_nil, Nat.not_lt_zero, decide_false, Bool.and_false]
          exact follows_emptyView _ written.height anchors
        | cons child rest =>
          simp only [List.isEmpty_cons, Bool.false_eq_true, if_false]
          split
          · exact follows_row ..
          · refine Follows.restoringFrame ?_ _
            exact follows_traceNodes _ inner path 0 _
              { anchors with frame := ⟨look.width, Alignment.ofItems? written.items⟩ }
              (boxed (Or.inr kind) inner) (child :: rest)
      | text | run => exact follows_textual ..
      | image => exact follows_picture ..

/-- The children of an element follow. -/
theorem follows_traceNodes (around : List Node) (insets : List (α × α)) (path : String)
    (index : Nat) (inherited : Option Alignment) (anchors : Anchors α)
    (bare : (∀ node ∈ around, ¬ scheme.isBox node) → insets = []) :
    ∀ children, scheme.Follows (Node.openedAll scheme.naming children) anchors.pageWidth
      (scheme.traceNodes around insets path index inherited anchors children)
  | [] => by
    unfold traceNodes Node.openedAll
    exact Follows.done anchors
  | ⟨type, props, style, children⟩ :: rest => by
    unfold traceNodes Node.openedAll
    refine (follows_traceNode around insets _ inherited anchors bare _).andThen fun anchors => ?_
    exact follows_traceNodes around insets path (index + 1) inherited anchors bare rest

/-- The pages of a document follow. -/
theorem follows_tracePages (around : List Node) (insets : List (α × α)) (path : String)
    (index : Nat) (anchors : Anchors α)
    (bare : (∀ node ∈ around, ¬ scheme.isBox node) → insets = []) :
    ∀ children, scheme.Follows (Node.openedPages scheme.naming children) anchors.pageWidth
      (scheme.tracePages around insets path index anchors children)
  | [] => by
    unfold tracePages Node.openedPages
    exact Follows.done anchors
  | ⟨type, props, style, children⟩ :: rest => by
    unfold tracePages Node.openedPages
    split
    · refine (follows_traceNode around insets _ none anchors bare _).andThen fun anchors => ?_
      exact follows_tracePages around insets path (index + 1) anchors bare rest
    · exact follows_tracePages around insets path (index + 1) anchors bare rest

end

/-- The trace of a tree follows, from the width in front of it. -/
theorem follows_trace (scheme : Scheme α) (anchors : Anchors α) (root : Node) :
    scheme.Follows (root.opened scheme.naming) anchors.pageWidth (scheme.trace anchors root) := by
  unfold trace
  split
  · exact follows_traceNode [] [] root.type none anchors (fun _ => rfl) root
  · refine (follows_reset _ anchors).before fun anchors => ?_
    exact follows_traceNode [] [] root.type none anchors (fun _ => rfl) root

end Walk

/-! ## Dividers -/

/-- A container that leaves the sides of the box around it alone: whatever that box is, its style
resolves to no width and to no margins at the sides. -/
def Flush (scheme : Scheme α) (node : Node) : Prop :=
  ∀ outer look, scheme.lookOf node outer = .ok look →
    look.width = none ∧ look.margin.left = Scalar.zero ∧ look.margin.right = Scalar.zero

/-- What a style without a width and without margins is read as. -/
theorem unstated_of_ofFields {style : Fields} {written : ViewStyle α}
    (read : ViewStyle.ofFields style = .ok written) (width : style.get "width" = .null)
    (margin : style.get "margin" = .null) (left : style.get "marginLeft" = .null)
    (right : style.get "marginRight" = .null) :
    isWidth written.width = false ∧ written.marginLeft = none ∧ written.marginRight = none := by
  unfold ViewStyle.ofFields at read
  obtain ⟨_, _, read⟩ := bind_eq_ok_iff.1 read
  obtain ⟨all, every, read⟩ := bind_eq_ok_iff.1 read
  iterate 5
    obtain ⟨_, _, read⟩ := bind_eq_ok_iff.1 read
  obtain ⟨second, ownRight, read⟩ := bind_eq_ok_iff.1 read
  obtain ⟨_, _, read⟩ := bind_eq_ok_iff.1 read
  obtain ⟨first, ownLeft, read⟩ := bind_eq_ok_iff.1 read
  obtain ⟨_, _, read⟩ := bind_eq_ok_iff.1 read
  obtain rfl := pure_eq_ok_iff.1 read
  rw [margin] at every
  obtain rfl : none = all := Except.ok.inj every
  unfold edgeLength at ownLeft ownRight
  rw [left] at ownLeft
  rw [right] at ownRight
  refine ⟨?_, (Except.ok.inj ownLeft).symm, (Except.ok.inj ownRight).symm⟩
  rw [width]
  rfl

/-- A style without a width and without margins leaves the sides alone. -/
theorem flush_of_unstated {scheme : Scheme α} {node : Node}
    (width : (fieldsOf node.style).get "width" = .null)
    (margin : (fieldsOf node.style).get "margin" = .null)
    (left : (fieldsOf node.style).get "marginLeft" = .null)
    (right : (fieldsOf node.style).get "marginRight" = .null) : scheme.Flush node := by
  intro outer look resolved
  obtain ⟨written, read, resolved⟩ := bind_eq_ok_iff.1 resolved
  obtain ⟨noWidth, noLeft, noRight⟩ := unstated_of_ofFields read width margin left right
  unfold Resolver.box Resolver.width at resolved
  obtain ⟨own, stated, resolved⟩ := bind_eq_ok_iff.1 resolved
  obtain ⟨margins, sides, resolved⟩ := bind_eq_ok_iff.1 resolved
  obtain ⟨_, _, resolved⟩ := bind_eq_ok_iff.1 resolved
  obtain rfl := pure_eq_ok_iff.1 resolved
  rw [noWidth] at stated
  rw [noLeft, noRight] at sides
  refine ⟨(Except.ok.inj stated).symm, ?_⟩
  unfold Resolver.edges at sides
  cases target : scheme.resolver.target with
  | points =>
    rw [target] at sides
    obtain rfl := Except.ok.inj sides
    exact ⟨rfl, rfl⟩
  | cells =>
    rw [target] at sides
    simp only at sides
    iterate 4
      obtain ⟨_, _, sides⟩ := bind_eq_ok_iff.1 sides
    obtain rfl := pure_eq_ok_iff.1 sides
    exact ⟨rfl, rfl⟩

/-- The bordered box of a container that leaves the sides alone and that no box surrounds is as wide
as the page. -/
theorem edges_of_flush [Scalar.LawfulZero α] {scheme : Scheme α} {node : Node}
    (flush : scheme.Flush node) {outer extent : Extent α} {look : BoxLook α}
    (resolved : scheme.lookOf node outer = .ok look)
    (insets : extent.insets = (look.bordered outer).insets) (bare : outer.insets = []) :
    extent.left = Scalar.zero ∧ extent.right = extent.pageWidth := by
  obtain ⟨width, left, right⟩ := flush outer look resolved
  have zero : Scalar.max (Scalar.zero : α) Scalar.zero = Scalar.zero := by
    unfold Scalar.max
    exact ite_self _
  have own : extent.insets = [(Scalar.zero, Scalar.zero)] := by
    rw [insets]
    unfold BoxLook.bordered Extent.narrowed Extent.inset
    rw [width, left, right]
    simp only [bare, zero, List.nil_append]
  have sum : Scalar.sum [(Scalar.zero : α)] = Scalar.zero := Scalar.LawfulZero.zero_add_zero
  unfold Extent.left Extent.right
  rw [own]
  simp only [List.map_cons, List.map_nil, sum, Scalar.LawfulZero.sub_zero]
  exact ⟨trivial, trivial⟩

end Scheme

end Receipt
