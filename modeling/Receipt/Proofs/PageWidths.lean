import Receipt.Proofs.Agree
import Receipt.Proofs.Degrade
import Receipt.Proofs.WidthsInForce

/-!
# The page that marks are laid out for

A mark is laid out for the page width in force where it is recorded, while the page is written in
the width in force at the end of the walk. `Record` ties a mark to the step that draws it and to the
steps in front of it and behind it: of all marks only those are in doubt behind which a page states
another width.

`laidOut_convertToPage_iff` is the main statement. It fails to hold of all marks where pages of
different widths follow each other (`not_laidOutFor_narrowerPage`).
-/

namespace Receipt

/-- A mark of a page, the step that draws it with the site of that step, and the steps in front of
it and behind it. -/
structure Record (α : Type) where
  mark : Mark α
  before : List (Site × Step α)
  site : Site
  step : Step α
  behind : List (Site × Step α)

namespace Page

open Drawing

variable {α : Type} [Scalar α]

/-- The marks that steps draw, each with its origin; `before` are the steps that have been carried
out. -/
def records (setting : Setting α) (resolver : Resolver α) (pen : Pen α)
    (before : List (Site × Step α)) : List (Site × Step α) → List (Record α)
  | [] => []
  | (site, step) :: behind =>
    let drawing := draw setting resolver pen step
    drawing.marks.map (fun mark => ⟨mark, before, site, step, behind⟩) ++
      match drawing.fault with
      | some _ => []
      | none => records setting resolver drawing.pen (before ++ [(site, step)]) behind

variable {setting : Setting α} {resolver : Resolver α}

/-- They are the marks of the drawing. -/
theorem marks_records (pen : Pen α) (before steps : List (Site × Step α)) :
    (records setting resolver pen before steps).map (·.mark) =
      (drawAll setting resolver pen (steps.map (·.2))).marks := by
  induction steps generalizing pen before with
  | nil => rfl
  | cons marked behind ih =>
    obtain ⟨site, step⟩ := marked
    rw [records, List.map_cons, drawAll, List.map_append, List.map_map]
    have own : (draw setting resolver pen step).marks.map
        (Record.mark ∘ fun mark => ⟨mark, before, site, step, behind⟩) =
          (draw setting resolver pen step).marks := List.map_id _
    cases ended : (draw setting resolver pen step).fault with
    | some fault =>
      rw [andThen_of_fault ended, own]
      exact List.append_nil _
    | none => rw [marks_andThen ended, own, ih]

/-- The origin of a mark is one of the steps. -/
theorem origin_of_mem_records {pen : Pen α} {before steps : List (Site × Step α)}
    {record : Record α} (member : record ∈ records setting resolver pen before steps) :
    before ++ steps = record.before ++ (record.site, record.step) :: record.behind ∧
      ∃ pen, record.mark ∈ (draw setting resolver pen record.step).marks := by
  induction steps generalizing pen before with
  | nil => cases member
  | cons marked behind ih =>
    obtain ⟨site, step⟩ := marked
    rw [records] at member
    rcases List.mem_append.1 member with own | later
    · obtain ⟨mark, drawn, rfl⟩ := List.mem_map.1 own
      exact ⟨rfl, pen, drawn⟩
    · split at later
      · cases later
      · obtain ⟨whole, drawn⟩ := ih later
        rw [List.append_assoc] at whole
        exact ⟨whole, drawn⟩

/-- Only a step in a content box draws marks. -/
theorem exists_pageWidth_of_mem_marks {pen : Pen α} {step : Step α} {mark : Mark α}
    (member : mark ∈ (draw setting resolver pen step).marks) :
    ∃ width, step.pageWidth? = some width := by
  cases step with
  | reset | page height wraps | space amount | sourceless path => cases member
  | _ => exact ⟨_, rfl⟩

theorem marks_drawLayout (pen : Pen α) (layout : Layout α) :
    (drawLayout setting resolver pen layout).marks =
      (drawAll setting resolver pen layout.steps).marks := by
  unfold drawLayout
  cases ended : (drawAll setting resolver pen layout.steps).fault with
  | some fault => rw [andThen_of_fault ended]
  | none =>
    rw [marks_andThen ended]
    cases layout.fault with
    | some fault => exact List.append_nil _
    | none => exact List.append_nil _

/-- Only a layout that comes to its end is drawn without a fault. -/
theorem fault_of_drawLayout {pen : Pen α} {layout : Layout α}
    (drawn : (drawLayout setting resolver pen layout).fault = none) : layout.fault = none := by
  unfold drawLayout at drawn
  cases ended : (drawAll setting resolver pen layout.steps).fault with
  | some fault =>
    rw [andThen_of_fault ended, ended] at drawn
    cases drawn
  | none =>
    rw [andThen_of_none ended] at drawn
    cases whole : layout.fault with
    | some fault =>
      rw [whole] at drawn
      cases drawn
    | none => rfl

end Page

namespace Scheme

open Traced

variable {α : Type} [Scalar α]

/-- The marks of a tree with their origins. -/
def records (scheme : Scheme α) (start : α) (root : Node) : List (Record α) :=
  Page.records .usual scheme.resolver .atTop [] (scheme.trace (.start start) root).steps

/-- The page width in force where a mark is recorded: the last one that a page in front of it
states. -/
def inForce (scheme : Scheme α) (start : α) (record : Record α) : α :=
  scheme.widthBehind start record.before

/-- The last width that a page behind a mark states. -/
def lastBehind? (scheme : Scheme α) (record : Record α) : Option α :=
  (record.behind.filterMap scheme.brought).getLast?

/-- All marks are recorded while a width is in force. -/
def LaidOutFor (scheme : Scheme α) (start : α) (root : Node) (width : α) : Prop :=
  ∀ record ∈ scheme.records start root, scheme.inForce start record = width

instance [DecidableEq α] (scheme : Scheme α) (start : α) (root : Node) (width : α) :
    Decidable (scheme.LaidOutFor start root width) :=
  inferInstanceAs (Decidable (∀ record ∈ scheme.records start root, _))

/-- The marks of a page have their origins in the trace of a tree. Each of them rests on the width
in force where it is recorded, and the page is as wide as the last page that the walk begins and
that states a width says. A divider across the whole page, that of a container which leaves the
sides alone and which no box surrounds, reaches from zero to the width in force. -/
structure Recorded (scheme : Scheme α) (start : α) (root : Node) (marks : List (Mark α))
    (pageWidth : α) : Prop where
  marks : (scheme.records start root).map (·.mark) = marks
  origin : ∀ record ∈ scheme.records start root, (scheme.trace (.start start) root).steps =
    record.before ++ (record.site, record.step) :: record.behind
  rests : ∀ record ∈ scheme.records start root,
    record.step.pageWidth? = some (scheme.inForce start record)
  pageWidth : pageWidth =
    ((root.opened scheme.naming).filterMap scheme.widthOf).getLastD start
  dividers : ∀ record ∈ scheme.records start root, ∀ border extent,
    record.step = .divider border extent → scheme.Flush record.site.node →
    (∀ node ∈ record.site.around, ¬ scheme.isBox node) →
    ∃ y, record.mark = .line Scalar.zero (scheme.inForce start record) y (border == .dashed)

section Recorded

variable {scheme : Scheme α} {start : α} {root : Node}

omit [Scalar α] in
/-- What comes to its end has come through its first part. -/
theorem exists_of_andThen {first : Traced α} {next : Anchors α → Traced α}
    (whole : (first.andThen next).fault = none) :
    first.fault = none ∧ ∃ behind, (first.andThen next).steps = first.steps ++ behind := by
  unfold Traced.andThen at whole ⊢
  cases ended : first.fault with
  | some fault =>
    rw [ended] at whole
    cases whole.symm.trans ended
  | none => exact ⟨rfl, _, rfl⟩

/-- A page that is drawn begins with a step of its own. -/
theorem exists_of_beginPage (points : scheme.resolver.target = .points) {props : Fields}
    {anchors : Anchors α} (whole : (scheme.beginPage props anchors).fault = none) :
    ∃ height wraps, (scheme.beginPage props anchors).steps = [.page height wraps] := by
  obtain ⟨height, wraps, begins⟩ := beginPage_of_points points props anchors
  rw [begins] at whole ⊢
  cases own : scheme.ownWidth? props with
  | error fault =>
    rw [own] at whole
    cases whole
  | ok width =>
    cases tall : (statedSize? height : Except NumberFault (Option α)) with
    | error fault =>
      simp only [own, tall, Layout.withResolved] at whole
      cases whole
    | ok height => exact ⟨height, wraps, rfl⟩

theorem exists_of_traceNode_page (points : scheme.resolver.target = .points)
    {around : List Node} {insets : List (α × α)} {path : String} {inherited : Option Alignment}
    {anchors : Anchors α} {page : Node} (kind : page.kind? scheme.naming = some .page)
    (whole : (scheme.traceNode around insets path inherited anchors page).fault = none) :
    ∃ height wraps behind, (scheme.traceNode around insets path inherited anchors page).steps =
      (⟨page, around⟩, .page height wraps) :: behind := by
  obtain ⟨type, props, style, children⟩ := page
  have known : scheme.naming.kind? type = some .page := kind
  unfold traceNode at whole ⊢
  simp only [known] at whole ⊢
  obtain ⟨first, behind, steps⟩ := exists_of_andThen whole
  obtain ⟨height, wraps, begins⟩ := exists_of_beginPage points first
  refine ⟨height, wraps, behind, ?_⟩
  rw [steps]
  unfold mark
  rw [begins]
  rfl

/-- The pages of a document come to the first page that they begin before anything is recorded. -/
theorem exists_of_tracePages (points : scheme.resolver.target = .points) (around : List Node)
    (insets : List (α × α)) (path : String) (index : Nat) (anchors : Anchors α)
    (children : List Node)
    (whole : (scheme.tracePages around insets path index anchors children).fault = none) :
    (scheme.tracePages around insets path index anchors children).steps = [] ∨
      ∃ page height wraps behind,
        (scheme.tracePages around insets path index anchors children).steps =
          (⟨page, around⟩, .page height wraps) :: behind ∧
        (Node.openedPages scheme.naming children).head? = some page := by
  induction children generalizing index with
  | nil =>
    unfold tracePages
    exact Or.inl rfl
  | cons child rest ih =>
    obtain ⟨type, props, style, children⟩ := child
    unfold tracePages at whole ⊢
    unfold Node.openedPages
    by_cases known : scheme.naming.kind? type = some .page
    · have kind : Node.kind? scheme.naming ⟨type, props, style, children⟩ = some .page := known
      rw [if_pos known] at whole ⊢
      rw [if_pos known]
      obtain ⟨first, further, steps⟩ := exists_of_andThen whole
      obtain ⟨height, wraps, behind, begins⟩ := exists_of_traceNode_page points kind first
      refine Or.inr ⟨⟨type, props, style, children⟩, height, wraps, behind ++ further, ?_, ?_⟩
      · rw [steps, begins]
        rfl
      · rw [Node.opened]
        simp only [known]
        rfl
    · rw [if_neg known] at whole ⊢
      rw [if_neg known]
      exact ih (index + 1) whole

/-- The width behind a tree is that behind a mark, changed by what comes behind the mark alone. -/
theorem widthBehind_trace {record : Record α} (member : record ∈ scheme.records start root) :
    scheme.widthBehind start (scheme.trace (.start start) root).steps =
      scheme.widthBehind (scheme.inForce start record) record.behind := by
  obtain ⟨origin, pen, drawn⟩ := Page.origin_of_mem_records member
  obtain ⟨width, rests⟩ := Page.exists_pageWidth_of_mem_marks drawn
  have silent : scheme.brought (record.site, record.step) = none := brought_of_pageWidth? rests
  rw [List.nil_append] at origin
  rw [origin, widthBehind_append]
  unfold inForce
  generalize scheme.widthBehind start record.before = width
  unfold widthBehind
  rw [List.filterMap_cons_none silent]

omit [Scalar α] in
/-- A step without a content box is not the one that rests on a width. -/
theorem exists_before_of_cons {first marked : Site × Step α}
    {steps before behind : List (Site × Step α)}
    (split : first :: steps = before ++ marked :: behind) (noBox : first.2.pageWidth? = none)
    {width : α} (rests : marked.2.pageWidth? = some width) :
    ∃ before, steps = before ++ marked :: behind := by
  cases before with
  | nil =>
    obtain ⟨rfl, _⟩ := List.cons.inj split
    rw [noBox] at rests
    cases rests
  | cons other before => exact ⟨before, (List.cons.inj split).2⟩

/-- In a document of which no page but the first states a width, no page behind a mark does. -/
theorem brought_of_document (points : scheme.resolver.target = .points)
    (document : root.kind? scheme.naming = some .document)
    (whole : (scheme.trace (.start start) root).fault = none)
    (later : ∀ page ∈ (root.opened scheme.naming).tail, scheme.widthOf page = none)
    {record : Record α} (member : record ∈ scheme.records start root) :
    record.behind.filterMap scheme.brought = [] := by
  obtain ⟨origin, pen, drawn⟩ := Page.origin_of_mem_records member
  obtain ⟨width, rests⟩ := Page.exists_pageWidth_of_mem_marks drawn
  have brought := (follows_trace scheme (.start start) root).brought whole
  obtain ⟨type, props, style, children⟩ := root
  have known : scheme.naming.kind? type = some .document := document
  have opened : Node.opened scheme.naming ⟨type, props, style, children⟩ =
      Node.openedPages scheme.naming children := by
    rw [Node.opened]
    simp only [known]
  have begun : scheme.trace (.start start) ⟨type, props, style, children⟩ =
      (mark ⟨⟨type, props, style, children⟩, []⟩ (Layout.step (.start start) .reset)).andThen
        fun anchors => scheme.tracePages [⟨type, props, style, children⟩] [] type 0 anchors
          children := by
    unfold trace
    rw [if_pos document, traceNode]
    simp only [known]
    rfl
  rw [opened] at later brought
  rw [begun] at whole brought origin
  obtain ⟨_, origin⟩ := exists_before_of_cons origin rfl rests
  rcases exists_of_tracePages points _ [] type 0 _ children whole with
    none | ⟨page, height, wraps, behind, begins, head⟩
  · have split := none.symm.trans origin
    simp at split
  · have split := begins.symm.trans origin
    obtain ⟨before, split⟩ := exists_before_of_cons split rfl rests
    obtain ⟨others, pages⟩ := List.head?_eq_some_iff.1 head
    rw [pages, List.tail_cons] at later
    let begin : Site × Step α := (⟨page, [⟨type, props, style, children⟩]⟩, .page height wraps)
    have first : [begin].filterMap scheme.brought = [page].filterMap scheme.widthOf := rfl
    have all : ([begin] ++ behind).filterMap scheme.brought =
        ([page] ++ others).filterMap scheme.widthOf :=
      (congrArg _ begins).symm.trans (brought.trans (congrArg _ pages))
    rw [List.filterMap_append, List.filterMap_append, first, List.append_cancel_left_eq,
      List.filterMap_eq_nil_iff.2 later, split, List.filterMap_append] at all
    have rest := (List.append_eq_nil_iff.1 all).2
    rwa [List.filterMap_cons_none (brought_of_pageWidth? rests)] at rest

/-- In a tree that is laid out to its end every mark is recorded. -/
theorem recorded_trace [Scalar.LawfulZero α]
    (whole : (scheme.trace (.start start) root).fault = none) :
    scheme.Recorded start root
      (Page.drawAll .usual scheme.resolver .atTop
        ((scheme.trace (.start start) root).steps.map (·.2))).marks
      (scheme.trace (.start start) root).anchors.pageWidth := by
  have follows := follows_trace scheme (.start start) root
  have origin : ∀ record ∈ scheme.records start root, (scheme.trace (.start start) root).steps =
      record.before ++ (record.site, record.step) :: record.behind :=
    fun record member => (Page.origin_of_mem_records member).1
  have rests : ∀ record ∈ scheme.records start root,
      record.step.pageWidth? = some (scheme.inForce start record) := by
    intro record member
    obtain ⟨pen, drawn⟩ := (Page.origin_of_mem_records member).2
    obtain ⟨width, own⟩ := Page.exists_pageWidth_of_mem_marks drawn
    have split := follows.rests
    rw [origin record member] at split
    rw [own]
    exact congrArg some ((rests_append.1 split).2.1 width own)
  refine ⟨Page.marks_records _ _ _, origin, rests, ?_, ?_⟩
  · rw [follows.behind whole, widthBehind, follows.brought whole]
    rfl
  · intro record member border extent divides flush bare
    have inside : (record.site, record.step) ∈ (scheme.trace (.start start) root).steps := by
      rw [origin record member]
      exact List.mem_append_right _ (List.mem_cons_self ..)
    obtain ⟨outer, look, resolved, insets, none⟩ := follows.borders _ inside border extent divides
    obtain ⟨left, right⟩ := edges_of_flush flush resolved insets (none bare)
    obtain ⟨pen, drawn⟩ := (Page.origin_of_mem_records member).2
    have width := rests record member
    rw [divides] at drawn width
    rw [show record.mark = _ from List.mem_singleton.1 drawn, left, right, Option.some.inj width]
    exact ⟨_, rfl⟩

/-- The marks of a tree are laid out for its page exactly when the last width that a page behind
each of them states is the one in force where the mark is recorded. -/
theorem laidOutFor_trace_iff (whole : (scheme.trace (.start start) root).fault = none) :
    scheme.LaidOutFor start root (scheme.trace (.start start) root).anchors.pageWidth ↔
      ∀ record ∈ scheme.records start root, ∀ last ∈ scheme.lastBehind? record,
        last = scheme.inForce start record := by
  refine forall₂_congr fun record member => ?_
  rw [(follows_trace scheme (.start start) root).behind whole]
  show _ = scheme.widthBehind start _ ↔ _
  rw [widthBehind_trace member, eq_comm]
  exact widthBehind_eq_iff

/-- So they are when the pages state no other width than that in front of the tree. -/
theorem laidOutFor_of_same (whole : (scheme.trace (.start start) root).fault = none)
    (same : ∀ page ∈ root.opened scheme.naming, ∀ width ∈ scheme.widthOf page, width = start) :
    scheme.LaidOutFor start root (scheme.trace (.start start) root).anchors.pageWidth := by
  have follows := follows_trace scheme (.start start) root
  have all : ∀ width ∈ (scheme.trace (.start start) root).steps.filterMap scheme.brought,
      width = start := by
    rw [follows.brought whole]
    intro width member
    obtain ⟨page, opened, own⟩ := List.mem_filterMap.1 member
    exact same page opened width own
  have kept (steps : List (Site × Step α))
      (sub : steps ⊆ (scheme.trace (.start start) root).steps) :
      scheme.widthBehind start steps = start :=
    widthBehind_eq_iff.2 fun last found =>
      all last (List.filterMap_subset _ sub (List.mem_of_getLast? found))
  intro record member
  rw [follows.behind whole]
  show scheme.widthBehind start record.before = scheme.widthBehind start _
  rw [kept _ (List.Subset.refl _), kept]
  have origin := (Page.origin_of_mem_records member).1
  rw [List.nil_append] at origin
  rw [origin]
  exact List.subset_append_left ..

/-- So they are in a document of which no page but the first states a width. -/
theorem laidOutFor_of_document (points : scheme.resolver.target = .points)
    (document : root.kind? scheme.naming = some .document)
    (whole : (scheme.trace (.start start) root).fault = none)
    (later : ∀ page ∈ (root.opened scheme.naming).tail, scheme.widthOf page = none) :
    scheme.LaidOutFor start root (scheme.trace (.start start) root).anchors.pageWidth := by
  refine (laidOutFor_trace_iff whole).2 fun record member last found => ?_
  unfold lastBehind? at found
  rw [brought_of_document points document whole later member] at found
  cases found

end Recorded

end Scheme

/-! ## The page of a tree -/

namespace Options

/-- A tree is drawn by the steps of its trace. -/
theorem drawTree_trace (options : Options) (pageWidth : Float) (root : Node) :
    let traced := options.pointScheme.trace (.start pageWidth) root
    drawTree options pageWidth root =
      (Page.drawLayout .usual pointResolver .atTop traced.plain, traced.anchors.pageWidth) := by
  intro traced
  have plain : traced.plain = options.pointScheme.tree [] (.start pageWidth) root :=
    Scheme.plain_trace ..
  rw [plain]
  show _ = (_, traced.plain.anchors.pageWidth)
  rw [plain]
  rfl

/-- The marks of a page are recorded in the walk through the tree, and they are laid out for the
width in which the page is written exactly when no page that begins behind a mark states another
width last. That is so when no page states another width than the options do, and in a document of
which no page but the first states a width. -/
theorem laidOut_convertToPage_iff (options : Options) (root : Node) {conversion : Conversion}
    (made : convertToPage options root = .ok conversion) :
    let scheme := options.pointScheme
    let start := options.pointWidth
    ∃ page, conversion.output = .drawn page ∧
      scheme.Recorded start root page.marks page.pageWidth ∧
      (scheme.LaidOutFor start root page.pageWidth ↔
        ∀ record ∈ scheme.records start root, ∀ last ∈ scheme.lastBehind? record,
          last = scheme.inForce start record) ∧
      ((∀ opened ∈ root.opened scheme.naming, ∀ width ∈ scheme.widthOf opened, width = start) →
        scheme.LaidOutFor start root page.pageWidth) ∧
      (root.kind? scheme.naming = some .document →
        (∀ opened ∈ (root.opened scheme.naming).tail, scheme.widthOf opened = none) →
        scheme.LaidOutFor start root page.pageWidth) := by
  intro scheme start
  unfold convertToPage at made
  rw [drawTree_trace] at made
  simp only at made
  split at made
  · cases made
  · rename_i drawn
    have whole : (scheme.trace (.start start) root).fault = none := Page.fault_of_drawLayout drawn
    split at made
    · cases made
    · obtain rfl := Except.ok.inj made
      refine ⟨_, rfl, ?_⟩
      simp only
      rw [Page.marks_drawLayout]
      exact ⟨Scheme.recorded_trace whole, Scheme.laidOutFor_trace_iff whole,
        Scheme.laidOutFor_of_same whole, fun document later =>
          Scheme.laidOutFor_of_document rfl document whole later⟩

/-- A tree that is drawn to its end, on a page that can be written, is converted to that page. -/
theorem exists_convertToPage (options : Options) (root : Node)
    (ended : (drawTree options options.pointWidth root).1.fault = none)
    (written : (Page.content (drawTree options options.pointWidth root).2
      (Page.height (drawTree options options.pointWidth root).1.pen
        (Page.fixedHeight (drawTree options options.pointWidth root).1.pen options.pointHeight))
      (drawTree options options.pointWidth root).1.marks).toOption.isSome) :
    ∃ conversion page, convertToPage options root = .ok conversion ∧
      conversion.output = .drawn page ∧
      page.pageWidth = (drawTree options options.pointWidth root).2 ∧
      page.marks = (drawTree options options.pointWidth root).1.marks := by
  unfold convertToPage
  simp only [ended]
  split
  · rename_i fault refused
    rw [refused] at written
    cases written
  · exact ⟨_, _, rfl, rfl, rfl, rfl⟩

/-- A page that states its width, with a border at its top. -/
def narrowPage : Node :=
  ⟨"Document", [], none,
    [⟨"Page", [("size", .mapping [("width", .int 100)])], some [("borderTop", .text "1px solid")],
      []⟩]⟩

/-- A page with a border at its top, and behind it an empty page that states a width. -/
def narrowerPage : Node :=
  ⟨"Document", [], none,
    [⟨"Page", [], some [("borderTop", .text "1px solid")], []⟩,
     ⟨"Page", [("size", .mapping [("width", .int 100)])], none, []⟩]⟩

/-- The border of the page is as wide as the page that is written. -/
theorem laidOut_convertToPage_iff_narrowPage :
    ∃ conversion page, convertToPage standardPage narrowPage = .ok conversion ∧
      conversion.output = .drawn page ∧ page.pageWidth = 100 ∧ page.marks.length = 1 ∧
      ∀ mark ∈ page.marks, ∃ y, mark = .line Scalar.zero page.pageWidth y false := by
  obtain ⟨conversion, _, made, _⟩ :=
    exists_convertToPage standardPage narrowPage rfl (by decide +kernel)
  obtain ⟨page, drawn, recorded, _, _, first⟩ :=
    laidOut_convertToPage_iff standardPage narrowPage made
  have width : page.pageWidth = 100 := by
    rw [recorded.pageWidth]
    decide +kernel
  have laidOut := first rfl (by decide +kernel)
  refine ⟨conversion, page, made, drawn, width, ?_, fun mark member => ?_⟩
  · rw [← recorded.marks, List.length_map]
    decide +kernel
  · rw [← recorded.marks] at member
    obtain ⟨record, inside, rfl⟩ := List.mem_map.1 member
    rw [← laidOut record inside]
    obtain rfl := List.mem_singleton.1 (show record ∈ [_] from inside)
    exact recorded.dividers _ inside .solid _ rfl (Scheme.flush_of_unstated rfl rfl rfl rfl)
      (by decide +kernel)

/-- The border of the first page is as wide as the paper, while the page is written in the width of
the second one. -/
theorem not_laidOutFor_narrowerPage :
    ∃ conversion page, convertToPage standardPage narrowerPage = .ok conversion ∧
      conversion.output = .drawn page ∧ page.pageWidth = 100 ∧
      (∃ y, page.marks = [.line Scalar.zero 205 y false]) ∧
      ¬ standardPage.pointScheme.LaidOutFor standardPage.pointWidth narrowerPage
        page.pageWidth := by
  obtain ⟨conversion, page, made, drawn, width, marks⟩ :=
    exists_convertToPage standardPage narrowerPage rfl (by decide +kernel)
  refine ⟨conversion, page, made, drawn, ?_, ?_, ?_⟩
  · rw [width]
    decide +kernel
  · rw [marks]
    exact ⟨_, rfl⟩
  · rw [width]
    decide +kernel

end Options

end Receipt
