import Mathlib.Data.List.Forall2
import Receipt.Proofs.Outcome
import Receipt.Proofs.Trace

/-!
# What the walk through a tree reaches

Texts and pictures are laid out where the walk through a tree reaches them: through the pages of a
document, through views that are no row of several children, and through unknown elements.
`Node.reached` lists the textual elements and the image elements that are reached, in document order,
each with its path. It looks at types, styles and children alone, and knows nothing of lengths.

`reaches_trace` is the main statement: in a trace that comes to its end the steps that show a text or
a picture stand for the reached elements, one for each, in the same order. Every other step, be it
spacing, a border or a row, stands for none.
-/

namespace Receipt

namespace Node

/-- Whether a view with this style lays these children out on one line. -/
def isRowOf (style : Option Fields) (children : List Node) : Bool :=
  ((Scheme.fieldsOf style).get "flexDirection").isTextOf "row" && 1 < children.length

mutual

/-- The textual elements and the image elements that are laid out on their own, in document order,
each with its path. -/
def reached (naming : Naming) (path : String) : Node → List (String × Node)
  | ⟨type, props, style, children⟩ =>
    match naming.kind? type with
    | some .document => reachedPages naming path 0 children
    | some .page => reachedAll naming path 0 children
    | some .view => if isRowOf style children then [] else reachedAll naming path 0 children
    | some .text | some .run | some .image => [(path, ⟨type, props, style, children⟩)]
    | none => reachedAll naming path 0 children

/-- Those under the children of an element, from the one with this number on. -/
def reachedAll (naming : Naming) (path : String) (index : Nat) : List Node → List (String × Node)
  | [] => []
  | ⟨type, props, style, children⟩ :: rest =>
    reached naming (childPath path type index) ⟨type, props, style, children⟩ ++
      reachedAll naming path (index + 1) rest

/-- Those under the pages among the children of a document, from the one with this number on. -/
def reachedPages (naming : Naming) (path : String) (index : Nat) :
    List Node → List (String × Node)
  | [] => []
  | ⟨type, props, style, children⟩ :: rest =>
    if naming.kind? type = some .page then
      reached naming (childPath path type index) ⟨type, props, style, children⟩ ++
        reachedPages naming path (index + 1) rest
    else reachedPages naming path (index + 1) rest

end

theorem isTextual_of_kind {naming : Naming} {node : Node} {kind : Kind}
    (known : naming.kind? node.type = some kind) (textual : kind.isTextual) :
    isTextual naming node.type := by
  unfold isTextual
  rw [known]
  exact textual

/-- The image elements that the walk through a tree reaches, each with its path. -/
def images (naming : Naming) (root : Node) : List (String × Node) :=
  (root.reached naming root.type).filter fun place => place.2.kind? naming = some .image

end Node

namespace Step

variable {α : Type}

/-- The path of the image element that a step stands for. -/
def path? : Step α → Option String
  | picture _ _ path _ _ | symbol _ _ _ path _ | sourceless path => some path
  | reset | page .. | text .. | row .. | divider .. | space _ => none

/-- Whether a step stands for an image element. -/
def isPicture (step : Step α) : Bool := step.path?.isSome

/-- Whether a step stands for a textual element. -/
def isText : Step α → Bool
  | text .. => true
  | reset | page .. | row .. | divider .. | space _ | picture .. | symbol .. | sourceless _ => false

end Step

/-- A step behind a resolved value comes from what is laid out with the value. -/
theorem Layout.exists_of_mem_withResolved {α β : Type} {anchors : Anchors α}
    {resolved : Except NumberFault β} {next : β → Layout α} {step : Step α}
    (member : step ∈ (Layout.withResolved anchors resolved next).steps) :
    ∃ value, resolved = .ok value ∧ step ∈ (next value).steps := by
  cases resolved with
  | error fault => cases member
  | ok value => exact ⟨value, rfl, member⟩

namespace Traced

variable {α : Type}

/-- A step stands for an element at a path: a text for a textual element, a picture for an image
element, of which it has the path. -/
structure StandsFor (naming : Naming) (place : String × Node) (marked : Site × Step α) :
    Prop where
  node : marked.1.node = place.2
  text : marked.2.isText = Node.isTextual naming place.2.type
  picture : marked.2.isPicture = decide (place.2.kind? naming = some .image)
  path : ∀ path, marked.2.path? = some path → path = place.1

/-- The steps that show a text or a picture of their own. -/
def shown (traced : Traced α) : List (Site × Step α) :=
  traced.steps.filter fun marked => marked.2.isText || marked.2.isPicture

/-- What is shown in a trace that comes to its end stands for these elements. -/
def Reaches (naming : Naming) (traced : Traced α) (places : List (String × Node)) : Prop :=
  traced.fault = none → List.Forall₂ (StandsFor naming) places traced.shown

namespace Reaches

variable {naming : Naming}

theorem nothing (anchors : Anchors α) (fault : Option NumberFault) :
    Reaches naming (⟨[], anchors, fault⟩ : Traced α) [] := fun _ => List.Forall₂.nil

/-- A part that shows nothing of its own. -/
theorem mark {site : Site} {layout : Layout α}
    (silent : ∀ step ∈ layout.steps, (step.isText || step.isPicture) = false) :
    Reaches naming (Traced.mark site layout) [] := by
  intro _
  have empty : (Traced.mark site layout).shown = [] := by
    unfold shown
    rw [List.filter_eq_nil_iff]
    intro marked member shows
    obtain ⟨step, inside, rfl⟩ := List.mem_map.1 member
    rw [silent step inside] at shows
    cases shows
  rw [empty]
  exact List.Forall₂.nil

theorem markStep (site : Site) (anchors : Anchors α) {step : Step α}
    (silent : (step.isText || step.isPicture) = false) :
    Reaches naming (Traced.mark site (Layout.step anchors step)) [] := by
  apply mark
  intro other member
  rw [List.mem_singleton.1 member]
  exact silent

theorem andThen {first : Traced α} {next : Anchors α → Traced α}
    {before behind : List (String × Node)} (former : Reaches naming first before)
    (latter : ∀ anchors, Reaches naming (next anchors) behind) :
    Reaches naming (first.andThen next) (before ++ behind) := by
  intro ended
  unfold Traced.andThen at ended ⊢
  cases known : first.fault with
  | some fault =>
    simp only [known] at ended
    cases ended
  | none =>
    rw [known] at ended
    have both := List.rel_append (former known) (latter first.anchors ended)
    unfold shown at both ⊢
    simp only [List.filter_append]
    exact both

/-- A silent part adds nothing in front. -/
theorem silent_andThen {first : Traced α} {next : Anchors α → Traced α}
    {places : List (String × Node)} (former : Reaches naming first [])
    (latter : ∀ anchors, Reaches naming (next anchors) places) :
    Reaches naming (first.andThen next) places := former.andThen latter

/-- A silent part adds nothing behind. -/
theorem andThen_silent {first : Traced α} {next : Anchors α → Traced α}
    {places : List (String × Node)} (former : Reaches naming first places)
    (latter : ∀ anchors, Reaches naming (next anchors) []) :
    Reaches naming (first.andThen next) places := by
  have both := former.andThen latter
  rwa [List.append_nil] at both

theorem withResolved {β : Type} {anchors : Anchors α} {resolved : Except NumberFault β}
    {next : β → Traced α} {places : List (String × Node)}
    (behind : ∀ value, resolved = .ok value → Reaches naming (next value) places) :
    Reaches naming (Traced.withResolved anchors resolved next) places := by
  cases resolved with
  | error fault =>
    intro ended
    cases ended
  | ok value => exact behind value rfl

theorem restoringFrame {traced : Traced α} {places : List (String × Node)}
    (reaches : Reaches naming traced places) (frame : PictureFrame α) :
    Reaches naming (traced.restoringFrame frame) places := reaches

/-- A single step that stands for an element. -/
theorem single {site : Site} {anchors : Anchors α} {step : Step α} {place : String × Node}
    (stands : StandsFor naming place (site, step))
    (shows : (step.isText || step.isPicture) = true) :
    Reaches naming (Traced.mark site (Layout.step anchors step)) [place] := by
  intro _
  have only : (Traced.mark site (Layout.step anchors step)).shown = [(site, step)] :=
    List.filter_cons_of_pos shows
  rw [only]
  exact List.Forall₂.cons stands List.Forall₂.nil

end Reaches

end Traced

namespace Scheme

open Traced

variable {α : Type} [Scalar α] {scheme : Scheme α}

omit [Scalar α] in
theorem reaches_border {naming : Naming} (site : Site) (insets : List (α × α))
    (asked : Option Border) (anchors : Anchors α) :
    Reaches naming (Traced.mark site (border insets asked anchors)) [] := by
  cases asked with
  | none => exact Reaches.nothing anchors none
  | some found => exact Reaches.markStep site anchors rfl

/-- The spacing and the borders of a container are silent. -/
theorem reaches_traceBoxed {naming : Naming} {site : Site} {look : BoxLook α}
    {insets : List (α × α)} {anchors : Anchors α} {content : List (α × α) → Anchors α → Traced α}
    {places : List (String × Node)}
    (inside : ∀ inner anchors, Reaches naming (content inner anchors) places) :
    Reaches naming (traceBoxed site look insets anchors content) places := by
  have space (amount : α) (anchors : Anchors α) :
      Reaches naming (Traced.mark site (Layout.step anchors (.space amount))) [] :=
    Reaches.markStep site anchors rfl
  unfold traceBoxed
  refine (space _ _).silent_andThen fun anchors => ?_
  refine (reaches_border site _ _ anchors).silent_andThen fun anchors => ?_
  refine (space _ anchors).silent_andThen fun anchors => ?_
  refine (inside _ anchors).andThen_silent fun anchors => ?_
  refine (space _ anchors).silent_andThen fun anchors => ?_
  refine (reaches_border site _ _ anchors).silent_andThen fun anchors => ?_
  exact space _ anchors

/-- An image element has the one step that stands for it, with its path. -/
theorem reaches_picture {naming : Naming} (site : Site)
    (kind : site.node.kind? naming = some .image) (anchors : Anchors α) (path : String)
    (props style : Fields) :
    Reaches naming (Traced.mark site (picture anchors path props style)) [(path, site.node)] := by
  have stands {step : Step α} (own : step.path? = some path) (noText : step.isText = false) :
      StandsFor naming (path, site.node) (site, step) := by
    refine ⟨rfl, ?_, ?_, fun other same => ?_⟩
    · unfold Node.kind? at kind
      unfold Node.isTextual
      rw [noText, kind]
      rfl
    · rw [decide_eq_true kind]
      unfold Step.isPicture
      rw [own]
      rfl
    · rw [own] at same
      exact (Option.some.inj same).symm
  unfold picture
  rw [mark_withResolved]
  refine Reaches.withResolved fun align _ => ?_
  dsimp only
  split
  · split
    · exact Reaches.single (stands rfl rfl) rfl
    · exact Reaches.single (stands rfl rfl) rfl
  · simp only [mark_withResolved]
    refine Reaches.withResolved fun payload _ => Reaches.withResolved fun size _ => ?_
    exact Reaches.single (stands rfl rfl) rfl

omit [Scalar α] in
/-- A row is silent: its cells are flattened. -/
theorem reaches_row {naming : Naming} (site : Site) (anchors : Anchors α)
    (resolved : Except NumberFault (List (Cell α))) (justify : Value) (extent : Extent α) :
    Reaches naming (Traced.mark site (Layout.withResolved anchors resolved fun cells =>
      Layout.step anchors (.row cells justify extent))) [] := by
  apply Reaches.mark
  intro step member
  obtain ⟨cells, _, member⟩ := Layout.exists_of_mem_withResolved member
  rw [List.mem_singleton.1 member]
  rfl

/-- A textual element has the one text step that stands for it. -/
theorem reaches_textual (site : Site)
    (textual : Node.isTextual scheme.naming site.node.type) (path : String)
    (insets : List (α × α)) (inherited : Option Alignment) (anchors : Anchors α)
    (content : Except NumberFault String) (style : Fields) :
    Reaches scheme.naming
      (Traced.mark site (scheme.textual insets inherited anchors content style))
      [(path, site.node)] := by
  have noImage : ¬ site.node.kind? scheme.naming = some .image := by
    intro kind
    unfold Node.kind? at kind
    unfold Node.isTextual at textual
    rw [kind] at textual
    cases textual
  unfold Scheme.textual
  simp only [mark_withResolved]
  refine Reaches.withResolved fun written _ => Reaches.withResolved fun content _ => ?_
  refine Reaches.single ⟨rfl, textual.symm, ?_, fun other same => ?_⟩ rfl
  · rw [decide_eq_false noImage]
    rfl
  · cases same

theorem reaches_emptyView (site : Site) (height : Option α) (anchors : Anchors α) :
    Reaches scheme.naming (Traced.mark site (scheme.emptyView height anchors)) [] := by
  unfold emptyView
  cases scheme.resolver.target with
  | cells => exact Reaches.nothing anchors none
  | points => exact Reaches.markStep site anchors rfl

theorem reaches_beginPage (site : Site) (props : Fields) (anchors : Anchors α) :
    Reaches scheme.naming (Traced.mark site (scheme.beginPage props anchors)) [] := by
  apply Reaches.mark
  intro step member
  unfold beginPage at member
  cases target : scheme.resolver.target with
  | cells =>
    rw [target] at member
    cases member
  | points =>
    rw [target] at member
    obtain ⟨width, _, member⟩ := Layout.exists_of_mem_withResolved member
    obtain ⟨height, _, member⟩ := Layout.exists_of_mem_withResolved member
    rw [List.mem_singleton.1 member]
    rfl

theorem isRow_of_ofFields {style : Fields} {written : ViewStyle α}
    (read : ViewStyle.ofFields style = .ok written) :
    written.isRow = (style.get "flexDirection").isTextOf "row" := by
  unfold ViewStyle.ofFields at read
  repeat
    obtain ⟨_, _, read⟩ := Outcome.bind_eq_ok_iff.1 read
  obtain rfl := Outcome.pure_eq_ok_iff.1 read
  rfl

mutual

/-- What an element asks to be shown stands for what is reached in it. -/
theorem reaches_traceNode (around : List Node) (insets : List (α × α)) (path : String)
    (inherited : Option Alignment) (anchors : Anchors α) :
    ∀ node : Node, Reaches scheme.naming
      (scheme.traceNode around insets path inherited anchors node)
      (node.reached scheme.naming path)
  | ⟨type, props, style, children⟩ => by
    unfold traceNode Node.reached
    cases known : scheme.naming.kind? type with
    | none => exact reaches_traceNodes _ insets path 0 inherited anchors children
    | some kind =>
      cases kind with
      | document =>
        refine (Reaches.markStep _ anchors rfl).silent_andThen fun anchors => ?_
        exact reaches_tracePages _ insets path 0 anchors children
      | page =>
        refine (reaches_beginPage _ props anchors).silent_andThen fun anchors => ?_
        refine Reaches.withResolved fun written _ => Reaches.withResolved fun look _ => ?_
        refine reaches_traceBoxed fun inner anchors => ?_
        exact reaches_traceNodes _ inner path 0 none _ children
      | view =>
        refine Reaches.withResolved fun written read => Reaches.withResolved fun look _ => ?_
        refine reaches_traceBoxed fun inner anchors => ?_
        have row : Node.isRowOf style children = (written.isRow && 1 < children.length) := by
          rw [isRow_of_ofFields read]
          rfl
        simp only [row]
        cases children with
        | nil =>
          have none : (if written.isRow && 1 < ([] : List Node).length then []
              else Node.reachedAll scheme.naming path 0 []) = [] := by simp [Node.reachedAll]
          rw [none]
          exact reaches_emptyView _ _ anchors
        | cons child children =>
          simp only [List.isEmpty_cons, Bool.false_eq_true, if_false]
          split
          · exact reaches_row _ anchors _ _ _
          · exact (reaches_traceNodes _ inner path 0 _ _ (child :: children)).restoringFrame _
      | text =>
        exact reaches_textual ⟨⟨type, props, style, children⟩, around⟩
          (Node.isTextual_of_kind known rfl) path _ _ _ _ _
      | run =>
        exact reaches_textual ⟨⟨type, props, style, children⟩, around⟩
          (Node.isTextual_of_kind known rfl) path _ _ _ _ _
      | image =>
        have kind : Node.kind? scheme.naming ⟨type, props, style, children⟩ = some .image := known
        exact reaches_picture ⟨_, around⟩ kind anchors path props _

theorem reaches_traceNodes (around : List Node) (insets : List (α × α)) (path : String)
    (index : Nat) (inherited : Option Alignment) (anchors : Anchors α) :
    ∀ nodes : List Node, Reaches scheme.naming
      (scheme.traceNodes around insets path index inherited anchors nodes)
      (Node.reachedAll scheme.naming path index nodes)
  | [] => by
    unfold traceNodes
    exact Reaches.nothing anchors none
  | ⟨type, props, style, children⟩ :: rest => by
    unfold traceNodes Node.reachedAll
    refine (reaches_traceNode around insets _ inherited anchors _).andThen fun anchors => ?_
    exact reaches_traceNodes around insets path _ inherited anchors rest

theorem reaches_tracePages (around : List Node) (insets : List (α × α)) (path : String)
    (index : Nat) (anchors : Anchors α) :
    ∀ nodes : List Node, Reaches scheme.naming
      (scheme.tracePages around insets path index anchors nodes)
      (Node.reachedPages scheme.naming path index nodes)
  | [] => by
    unfold tracePages
    exact Reaches.nothing anchors none
  | ⟨type, props, style, children⟩ :: rest => by
    unfold tracePages Node.reachedPages
    split
    · refine (reaches_traceNode around insets _ none anchors _).andThen fun anchors => ?_
      exact reaches_tracePages around insets path _ anchors rest
    · exact reaches_tracePages around insets path _ anchors rest

end

/-- What a tree asks to be shown stands for what the walk through it reaches. -/
theorem reaches_trace (anchors : Anchors α) (root : Node) :
    Reaches scheme.naming (scheme.trace anchors root) (root.reached scheme.naming root.type) := by
  unfold trace
  split
  · exact reaches_traceNode [] [] root.type none anchors root
  · refine (Reaches.markStep _ anchors rfl).silent_andThen fun anchors => ?_
    exact reaches_traceNode [] [] root.type none anchors root

end Scheme

end Receipt
