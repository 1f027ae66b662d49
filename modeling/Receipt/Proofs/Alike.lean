import Receipt.Proofs.Placement

/-!
# What a page takes from before it

A path is where a note says that an element stands, and nothing else rests on it. Of what outlives
an element, a page takes the page width alone: it sets the box and the frame of its pictures before
its content. Two layouts are `Layout.Alike` when they have the same steps, paths apart, and the same
fault, and their anchors stand in a relation wherever they come to an end.

`alike_node` says that an element is laid out alike under all paths, `alike_pages` that pages are
laid out alike behind everything that leaves the same page width, and `pages_append` that the plan of
two lists of pages is the plan of the first and then that of the second.
-/

namespace Receipt

namespace Step

variable {α : Type}

/-- The step without the path that its notes name. -/
def unplaced : Step α → Step α
  | .picture source align _ framed extent => .picture source align "" framed extent
  | .symbol data size align _ extent => .symbol data size align "" extent
  | .sourceless _ => .sourceless ""
  | step => step

end Step

/-- Anchors on pages of one width. -/
def Anchors.SameWidth {α : Type} (before behind : Anchors α) : Prop :=
  before.pageWidth = behind.pageWidth

namespace Layout

variable {α : Type}

/-- Two layouts ask for the same, up to paths, and leave related anchors. -/
structure Alike (related : Anchors α → Anchors α → Prop) (first second : Layout α) : Prop where
  steps : first.steps.map Step.unplaced = second.steps.map Step.unplaced
  fault : first.fault = second.fault
  anchors : first.fault = none → related first.anchors second.anchors

namespace Alike

variable {related others : Anchors α → Anchors α → Prop} {before behind : Anchors α}

theorem done (start : related before behind) :
    Alike related (Layout.done before) (Layout.done behind) :=
  ⟨rfl, rfl, fun _ => start⟩

theorem step (start : related before behind) {own other : Step α}
    (same : own.unplaced = other.unplaced) :
    Alike related (Layout.step before own) (Layout.step behind other) where
  steps := congrArg (fun step => [step]) same
  fault := rfl
  anchors _ := start

theorem failed (before behind : Anchors α) (fault : NumberFault) :
    Alike related (Layout.failed before fault) (Layout.failed behind fault) :=
  ⟨rfl, rfl, nofun⟩

theorem andThen {first second : Layout α} {next later : Anchors α → Layout α}
    (alike : Alike related first second)
    (goesOn : ∀ before behind, related before behind →
      Alike others (next before) (later behind)) :
    Alike others (first.andThen next) (second.andThen later) := by
  unfold Layout.andThen
  have sameFault := alike.fault
  cases ended : first.fault with
  | some fault =>
    rw [ended] at sameFault
    rw [← sameFault]
    refine ⟨alike.steps, alike.fault, fun none => ?_⟩
    rw [ended] at none
    cases none
  | none =>
    have rest := goesOn _ _ (alike.anchors ended)
    rw [ended] at sameFault
    rw [← sameFault]
    refine ⟨?_, rest.fault, rest.anchors⟩
    rw [List.map_append, List.map_append, alike.steps, rest.steps]

theorem withResolved {β : Type} {resolved : Except NumberFault β} {next later : β → Layout α}
    (goesOn : ∀ value, Alike related (next value) (later value)) :
    Alike related (Layout.withResolved before resolved next)
      (Layout.withResolved behind resolved later) := by
  cases resolved with
  | error fault => exact failed before behind fault
  | ok value => exact goesOn value

theorem mono {first second : Layout α} (alike : Alike related first second)
    (weaker : ∀ before behind, related before behind → others before behind) :
    Alike others first second :=
  ⟨alike.steps, alike.fault, fun ended => weaker _ _ (alike.anchors ended)⟩

theorem restoringFrame {first second : Layout α} (alike : Alike Eq first second)
    (frame : PictureFrame α) :
    Alike Eq (first.restoringFrame frame) (second.restoringFrame frame) where
  steps := alike.steps
  fault := alike.fault
  anchors ended := by
    have same := alike.anchors ended
    unfold Layout.restoringFrame
    rw [same]

end Alike

theorem andThen_assoc (first : Layout α) (second third : Anchors α → Layout α) :
    (first.andThen second).andThen third =
      first.andThen fun anchors => (second anchors).andThen third := by
  unfold andThen
  cases ended : first.fault with
  | some fault => simp only [ended]
  | none =>
    cases later : (second first.anchors).fault with
    | some fault => simp only [later]
    | none => simp only [later, List.append_assoc]

theorem done_andThen (anchors : Anchors α) (next : Anchors α → Layout α) :
    (done anchors).andThen next = next anchors := rfl

end Layout

namespace Scheme

open Layout

variable {α : Type} [Scalar α] {related : Anchors α → Anchors α → Prop}
  {before behind : Anchors α}

omit [Scalar α] in
theorem extentOf_congr (width : before.SameWidth behind) (insets : List (α × α)) :
    extentOf before insets = extentOf behind insets := by
  unfold extentOf
  rw [width]

omit [Scalar α] in
theorem alike_border (start : related before behind)
    (width : before.SameWidth behind) (insets : List (α × α))
    (asked : Option Border) :
    Alike related (border insets asked before) (border insets asked behind) := by
  cases asked with
  | none => exact Alike.done start
  | some found =>
    refine Alike.step start ?_
    rw [extentOf_congr width]

/-- A container is laid out alike when its content is, behind anchors of one page width. -/
theorem alike_boxed
    (width : ∀ before behind : Anchors α, related before behind → before.SameWidth behind)
    (look : BoxLook α) (insets : List (α × α)) {content others : List (α × α) → Anchors α → Layout α}
    (inside : ∀ inner before behind, related before behind →
      Alike related (content inner before) (others inner behind))
    (start : related before behind) :
    Alike related (boxed look insets before content) (boxed look insets behind others) := by
  have space (amount : α) {before behind : Anchors α} (start : related before behind) :
      Alike related (Layout.step before (.space amount)) (Layout.step behind (.space amount)) :=
    Alike.step start rfl
  unfold boxed
  rw [extentOf_congr (width before behind start)]
  refine (space _ start).andThen fun before behind start => ?_
  refine (alike_border start (width _ _ start) _ _).andThen fun before behind start => ?_
  refine (space _ start).andThen fun before behind start => ?_
  refine (inside _ before behind start).andThen fun before behind start => ?_
  refine (space _ start).andThen fun before behind start => ?_
  refine (alike_border start (width _ _ start) _ _).andThen fun before behind start => ?_
  exact space _ start

theorem alike_picture (anchors : Anchors α) (path other : String) (props style : Fields) :
    Alike Eq (picture anchors path props style) (picture anchors other props style) := by
  refine Alike.withResolved fun align => ?_
  simp only
  split
  · split
    · exact Alike.step rfl rfl
    · exact Alike.step rfl rfl
  · exact Alike.withResolved fun payload => Alike.withResolved fun size => Alike.step rfl rfl

omit [Scalar α] in
theorem alike_self (layout : Layout α) : Alike Eq layout layout := ⟨rfl, rfl, fun _ => rfl⟩

mutual

/-- An element is laid out alike under all paths. -/
theorem alike_node (scheme : Scheme α) (insets : List (α × α)) (path other : String)
    (inherited : Option Alignment) (anchors : Anchors α) :
    ∀ node, Alike Eq (scheme.node insets path inherited anchors node)
      (scheme.node insets other inherited anchors node)
  | ⟨type, props, style, children⟩ => by
    unfold node
    cases scheme.naming.kind? type with
    | none => exact alike_nodes scheme insets path other 0 0 inherited anchors children
    | some kind =>
      cases kind with
      | document =>
        refine (alike_self _).andThen ?_
        rintro anchors _ rfl
        exact alike_pages_of_eq scheme insets path other 0 0 anchors children
      | page =>
        refine (alike_self _).andThen ?_
        rintro anchors _ rfl
        refine Alike.withResolved fun written => Alike.withResolved fun look => ?_
        refine alike_boxed (fun _ _ same => congrArg _ same) look insets ?_ rfl
        rintro inner anchors _ rfl
        exact alike_nodes scheme inner path other 0 0 none _ children
      | view =>
        refine Alike.withResolved fun written => Alike.withResolved fun look => ?_
        refine alike_boxed (fun _ _ same => congrArg _ same) look insets ?_ rfl
        rintro inner anchors _ rfl
        simp only
        split
        · exact alike_self _
        · split
          · exact alike_self _
          · refine Alike.restoringFrame ?_ _
            exact alike_nodes scheme inner path other 0 0 _ _ children
      | text => exact alike_self _
      | run => exact alike_self _
      | image => exact alike_picture anchors path other props _

/-- Children are laid out alike under all paths and numbers. -/
theorem alike_nodes (scheme : Scheme α) (insets : List (α × α)) (path other : String)
    (index number : Nat) (inherited : Option Alignment) (anchors : Anchors α) :
    ∀ children, Alike Eq (scheme.nodes insets path index inherited anchors children)
      (scheme.nodes insets other number inherited anchors children)
  | [] => by
    unfold nodes
    exact Alike.done rfl
  | ⟨type, props, style, children⟩ :: rest => by
    unfold nodes
    refine (alike_node scheme insets _ _ inherited anchors _).andThen ?_
    rintro anchors _ rfl
    exact alike_nodes scheme insets path other _ _ inherited anchors rest

/-- Pages are laid out alike under all paths and numbers. -/
theorem alike_pages_of_eq (scheme : Scheme α) (insets : List (α × α)) (path other : String)
    (index number : Nat) (anchors : Anchors α) :
    ∀ children, Alike Eq (scheme.pages insets path index anchors children)
      (scheme.pages insets other number anchors children)
  | [] => by
    unfold pages
    exact Alike.done rfl
  | ⟨type, props, style, children⟩ :: rest => by
    unfold pages
    split
    · refine (alike_node scheme insets _ _ none anchors _).andThen ?_
      rintro anchors _ rfl
      exact alike_pages_of_eq scheme insets path other _ _ anchors rest
    · exact alike_pages_of_eq scheme insets path other _ _ anchors rest

end

/-! ## Pages behind other pages -/

theorem alike_beginPage (scheme : Scheme α) (props : Fields) (width : before.SameWidth behind) :
    Alike Anchors.SameWidth (scheme.beginPage props before) (scheme.beginPage props behind) := by
  unfold beginPage
  cases scheme.resolver.target with
  | cells => exact Alike.done width
  | points =>
    refine Alike.withResolved fun stated => Alike.withResolved fun height => ?_
    refine Alike.step ?_ rfl
    unfold Anchors.SameWidth
    rw [width]

/-- A page is laid out alike behind everything that leaves the same page width. -/
theorem alike_page (scheme : Scheme α) (insets : List (α × α)) (path other : String)
    (width : before.SameWidth behind) {type : String} (page : scheme.naming.kind? type = some .page)
    (props : Fields) (style : Option Fields) (children : List Node) :
    Alike Anchors.SameWidth (scheme.node insets path none before ⟨type, props, style, children⟩)
      (scheme.node insets other none behind ⟨type, props, style, children⟩) := by
  unfold node
  rw [page]
  refine (alike_beginPage scheme props width).andThen fun before behind width => ?_
  simp only
  rw [extentOf_congr width]
  refine Alike.withResolved fun written => Alike.withResolved fun look => ?_
  refine alike_boxed (fun _ _ width => width) look insets ?_ width
  intro inner before behind width
  have same : (Anchors.mk before.pageWidth
      (some ((extentOf before inner).left, (extentOf before inner).right)) ⟨none, none⟩) =
      ⟨behind.pageWidth, some ((extentOf behind inner).left, (extentOf behind inner).right),
        ⟨none, none⟩⟩ := by
    rw [extentOf_congr width, width]
  rw [same]
  exact (alike_nodes scheme inner path other 0 0 none _ children).mono
    fun _ _ same => congrArg Anchors.pageWidth same

/-- Pages are laid out alike behind everything that leaves the same page width. -/
theorem alike_pages (scheme : Scheme α) (insets : List (α × α)) (path : String)
    (index number : Nat) (width : before.SameWidth behind) (children : List Node) :
    Alike Anchors.SameWidth (scheme.pages insets path index before children)
      (scheme.pages insets path number behind children) := by
  induction children generalizing index number before behind with
  | nil =>
    unfold pages
    exact Alike.done width
  | cons child rest ih =>
    obtain ⟨type, props, style, children⟩ := child
    unfold pages
    split
    · rename_i page
      refine (alike_page scheme insets _ _ width page props style children).andThen
        fun before behind width => ?_
      exact ih _ _ width
    · exact ih _ _ width

/-- The plan of two lists of pages is the plan of the first and then that of the second. -/
theorem pages_append (scheme : Scheme α) (insets : List (α × α)) (path : String) (index : Nat)
    (anchors : Anchors α) (first second : List Node) :
    scheme.pages insets path index anchors (first ++ second) =
      (scheme.pages insets path index anchors first).andThen fun anchors =>
        scheme.pages insets path (index + first.length) anchors second := by
  induction first generalizing index anchors with
  | nil =>
    rw [List.nil_append, pages, Layout.done_andThen]
    rfl
  | cons child rest ih =>
    obtain ⟨type, props, style, children⟩ := child
    have number : index + (⟨type, props, style, children⟩ :: rest).length =
        index + 1 + rest.length := by
      rw [List.length_cons]
      omega
    rw [List.cons_append, pages, pages, number]
    split
    · rw [andThen_assoc]
      simp only [ih]
    · exact ih (index + 1) anchors

/-- Pages that are printed leave the page width as it was. -/
theorem sameWidth_pages {scheme : Scheme α} (cells : scheme.resolver.target = .cells) {root : Node}
    (document : root.kind? scheme.naming = some .document) (path : String) (index : Nat)
    (anchors : Anchors α) :
    (scheme.pages [] path index anchors root.children).anchors.SameWidth anchors := by
  have noBox : ¬ scheme.isBox root := by simp [isBox, document]
  have box : scheme.extentWithin anchors.pageWidth [root] = .ok ⟨anchors.pageWidth, []⟩ :=
    extentWithin_cons_of_not [] noBox
  have holds := holds_tracePages cells [root] [] path index anchors box rfl root.children
    fun child member => (Site.within_root root).child member
  rw [← plain_tracePages scheme [root]]
  exact holds.pageWidth

end Scheme

end Receipt
