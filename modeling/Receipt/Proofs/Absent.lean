import Mathlib.Algebra.Order.BigOperators.Group.List
import Mathlib.Algebra.Order.Group.Nat
import Receipt.Proofs.Reached

/-!
# A tree without one of its images

`Node.Without` relates a tree to the same tree with an empty element, of a name that stands for
nothing, in the place of one image element. It takes away the image and nothing else: the numbers and
the paths of all other elements stay, and a view with children still has as many.

`exists_without_tree` is the main statement: from the plan of a tree any step of an image element may be
struck out, and what is left is the plan of the tree without that element, with the same anchors
behind it and the same fault, if any. `Layout.Loses` is that statement for a part of a plan; its laws
follow the ways in which plans are put together.
-/

namespace Receipt

/-- The second tree is the first one, which stands at a path, with an empty element of a name in the
place of the image element at a target path. -/
inductive Node.Without (naming : Naming) (name : String) : String → Node → Node → String → Prop
  | here {path : String} {image : Node} (kind : image.kind? naming = some .image) :
      Without naming name path image ⟨name, [], none, []⟩ path
  | inside {path type target : String} {props : Fields} {style : Option Fields}
      {before behind : List Node} {child other : Node}
      (deeper : Without naming name (childPath path child.type before.length) child other target) :
      Without naming name path ⟨type, props, style, before ++ child :: behind⟩
        ⟨type, props, style, before ++ other :: behind⟩ target

namespace Node

variable {naming : Naming} {name path target : String}

/-- The same of one among several elements, the first of which has this number. -/
def WithoutIn (naming : Naming) (name path : String) (index : Nat) (nodes others : List Node)
    (target : String) : Prop :=
  ∃ before node other behind, nodes = before ++ node :: behind ∧
    others = before ++ other :: behind ∧
    Without naming name (childPath path node.type (index + before.length : Nat)) node other target

theorem WithoutIn.head {index : Nat} {node other : Node} {rest : List Node}
    (without : Without naming name (childPath path node.type index) node other target) :
    WithoutIn naming name path index (node :: rest) (other :: rest) target :=
  ⟨[], node, other, rest, rfl, rfl, without⟩

theorem WithoutIn.tail {index : Nat} {node : Node} {rest others : List Node}
    (without : WithoutIn naming name path (index + 1) rest others target) :
    WithoutIn naming name path index (node :: rest) (node :: others) target := by
  obtain ⟨before, inner, other, behind, rfl, rfl, deeper⟩ := without
  refine ⟨node :: before, inner, other, behind, rfl, rfl, ?_⟩
  have same : index + (node :: before).length = index + 1 + before.length := by
    rw [List.length_cons]
    omega
  rw [same]
  exact deeper

theorem WithoutIn.within {children others : List Node} {type : String} {props : Fields}
    {style : Option Fields} (without : WithoutIn naming name path 0 children others target) :
    Without naming name path ⟨type, props, style, children⟩ ⟨type, props, style, others⟩
      target := by
  obtain ⟨before, inner, other, behind, rfl, rfl, deeper⟩ := without
  rw [Nat.zero_add] at deeper
  exact Without.inside deeper

theorem WithoutIn.length_eq {index : Nat} {nodes others : List Node}
    (without : WithoutIn naming name path index nodes others target) :
    others.length = nodes.length := by
  obtain ⟨before, inner, other, behind, rfl, rfl, _⟩ := without
  rw [List.length_append, List.length_append]
  rfl

/-- An element that is no image keeps its type. -/
theorem Without.type_eq {node other : Node} (without : Without naming name path node other target)
    (noImage : node.kind? naming ≠ some .image) : other.type = node.type := by
  cases without with
  | here kind => exact absurd kind noImage
  | inside deeper => rfl

end Node

/-! ## Parts of a plan -/

namespace Layout

variable {α : Type}

/-- Whatever step of an image element is struck out, what is left satisfies a property of its path
and the layout. -/
def Loses (layout : Layout α) (becomes : String → Layout α → Prop) : Prop :=
  ∀ before step behind target, layout.steps = before ++ step :: behind →
    step.path? = some target → becomes target ⟨before ++ behind, layout.anchors, layout.fault⟩

/-- A step of two parts is one of the first or one of the second. -/
theorem mem_andThen {first : Layout α} {next : Anchors α → Layout α} {step : Step α}
    (member : step ∈ (first.andThen next).steps) :
    step ∈ first.steps ∨ ∃ anchors, step ∈ (next anchors).steps := by
  unfold andThen at member
  cases ended : first.fault with
  | some fault =>
    simp only [ended] at member
    exact Or.inl member
  | none =>
    simp only [ended] at member
    rcases List.mem_append.1 member with own | later
    · exact Or.inl own
    · exact Or.inr ⟨_, later⟩

namespace Loses

variable {becomes : String → Layout α → Prop}

theorem mono {layout : Layout α} {others : String → Layout α → Prop}
    (loses : layout.Loses others) (implies : ∀ target other, others target other →
      becomes target other) : layout.Loses becomes :=
  fun before step behind target place own => implies target _ (loses before step behind target place own)

/-- A part without an image element has nothing to lose. -/
theorem silent {layout : Layout α} (plain : ∀ step ∈ layout.steps, step.path? = none) :
    layout.Loses becomes := by
  intro before step behind target place own
  have member : step ∈ layout.steps := by
    rw [place]
    exact List.mem_append_right _ (List.mem_cons_self ..)
  rw [plain step member] at own
  cases own

theorem step (anchors : Anchors α) {step : Step α}
    (becomesEmpty : ∀ target, step.path? = some target → becomes target (done anchors)) :
    (Layout.step anchors step).Loses becomes := by
  intro before own behind target place path
  cases before with
  | nil =>
    obtain ⟨rfl, rfl⟩ := List.cons.inj place
    exact becomesEmpty target path
  | cons other before => cases before with
    | nil => cases place
    | cons second before => cases place

theorem andThen {first : Layout α} {next : Anchors α → Layout α}
    (former : first.Loses fun target other => becomes target (other.andThen next))
    (latter : (next first.anchors).Loses fun target other =>
      becomes target (first.andThen fun _ => other)) :
    (first.andThen next).Loses becomes := by
  intro before step behind target place own
  unfold Layout.andThen at place ⊢
  cases ended : first.fault with
  | some fault =>
    simp only [ended] at place ⊢
    have struck := former before step behind target place own
    unfold Layout.andThen at struck
    simp only [ended] at struck
    exact struck
  | none =>
    simp only [ended] at place ⊢
    have inSecond {between : List (Step α)} (parts : before = first.steps ++ between)
        (rest : (next first.anchors).steps = between ++ step :: behind) :
        becomes target ⟨before ++ behind, (next first.anchors).anchors,
          (next first.anchors).fault⟩ := by
      have struck := latter between step behind target rest own
      unfold Layout.andThen at struck
      simp only [ended] at struck
      rw [parts, List.append_assoc]
      exact struck
    rcases List.append_eq_append_iff.1 place with ⟨between, parts, rest⟩ | ⟨between, parts, rest⟩
    · exact inSecond parts rest
    · cases between with
      | nil =>
        rw [List.append_nil] at parts
        have whole : before = first.steps ++ [] := by rw [parts, List.append_nil]
        have start : (next first.anchors).steps = [] ++ step :: behind := rest.symm
        exact inSecond whole start
      | cons other between =>
        obtain ⟨rfl, later⟩ := List.cons.inj rest
        have struck := former before step between target parts own
        unfold Layout.andThen at struck
        simp only [ended] at struck
        have split : behind = between ++ (next first.anchors).steps := later
        rw [split, ← List.append_assoc]
        exact struck

/-- A part without an image element in front. -/
theorem silent_andThen {first : Layout α} {next : Anchors α → Layout α}
    (plain : ∀ step ∈ first.steps, step.path? = none)
    (latter : (next first.anchors).Loses fun target other =>
      becomes target (first.andThen fun _ => other)) :
    (first.andThen next).Loses becomes := andThen (silent plain) latter

theorem restoringFrame {layout : Layout α} {frame : PictureFrame α}
    (loses : layout.Loses fun target other => becomes target (other.restoringFrame frame)) :
    (layout.restoringFrame frame).Loses becomes := loses

theorem withResolved {β : Type} {anchors : Anchors α} {resolved : Except NumberFault β}
    {next : β → Layout α} (later : ∀ value, resolved = .ok value → (next value).Loses becomes) :
    (Layout.withResolved anchors resolved next).Loses becomes := by
  cases resolved with
  | error fault => exact silent fun step member => by cases member
  | ok value => exact later value rfl

end Loses

end Layout

/-! ## The walk -/

namespace Scheme

open Layout

variable {α : Type} [Scalar α] {scheme : Scheme α} {name : String}

/-- An element that stands for nothing, without children, is laid out as nothing. -/
theorem node_blank (unknown : scheme.naming.kind? name = none) (insets : List (α × α))
    (path : String) (inherited : Option Alignment) (anchors : Anchors α) :
    scheme.node insets path inherited anchors ⟨name, [], none, []⟩ = Layout.done anchors := by
  unfold node
  rw [unknown]
  simp only
  unfold nodes
  rfl

/-- The type that a path names is that of the element, also where nothing is left of it. -/
theorem node_path_eq (unknown : scheme.naming.kind? name = none) {path target : String}
    {child other : Node} (without : Node.Without scheme.naming name path child other target)
    (insets : List (α × α)) (parent : String) (index : Nat) (inherited : Option Alignment)
    (anchors : Anchors α) :
    scheme.node insets (childPath parent other.type index) inherited anchors other =
      scheme.node insets (childPath parent child.type index) inherited anchors other := by
  cases without with
  | here kind => rw [node_blank unknown, node_blank unknown]
  | inside deeper => rfl

/-- The content of a page. -/
def pageContent (scheme : Scheme α) (path : String) (children : List Node)
    (inner : List (α × α)) (anchors : Anchors α) : Layout α :=
  let extent := extentOf anchors inner
  scheme.nodes inner path 0 none
    { anchors with pageBox := some (extent.left, extent.right), frame := ⟨none, none⟩ } children

/-- The content of a view: nothing, a row or its children one below the other. -/
def viewContent (scheme : Scheme α) (path : String) (inherited : Option Alignment)
    (written : ViewStyle α) (look : BoxLook α) (children : List Node)
    (inner : List (α × α)) (anchors : Anchors α) : Layout α :=
  let own := Alignment.ofItems? written.items
  if children.isEmpty then scheme.emptyView written.height anchors
  else if written.isRow && 1 < children.length then
    Layout.withResolved anchors (scheme.cells children) fun cells =>
      Layout.step anchors (.row cells written.justify (extentOf anchors inner))
  else
    Layout.restoringFrame anchors.frame
      (scheme.nodes inner path 0 (own.or inherited) { anchors with frame := ⟨look.width, own⟩ }
        children)

section Elements

variable {type : String} (insets : List (α × α)) (path : String) (inherited : Option Alignment)
  (anchors : Anchors α) (props : Fields) (style : Option Fields) (children : List Node)

theorem node_unknown (known : scheme.naming.kind? type = none) :
    scheme.node insets path inherited anchors ⟨type, props, style, children⟩ =
      scheme.nodes insets path 0 inherited anchors children := by
  rw [node]
  simp only [known]

theorem node_document (known : scheme.naming.kind? type = some .document) :
    scheme.node insets path inherited anchors ⟨type, props, style, children⟩ =
      (Layout.step anchors .reset).andThen fun anchors =>
        scheme.pages insets path 0 anchors children := by
  rw [node]
  simp only [known]

theorem node_page (known : scheme.naming.kind? type = some .page) :
    scheme.node insets path inherited anchors ⟨type, props, style, children⟩ =
      (scheme.beginPage props anchors).andThen fun anchors =>
      Layout.withResolved anchors (ViewStyle.ofFields (fieldsOf style)) fun written =>
      Layout.withResolved anchors
        (scheme.resolver.box written (extentOf anchors insets).width) fun look =>
      boxed look insets anchors (scheme.pageContent path children) := by
  rw [node]
  simp only [known]
  rfl

theorem node_view (known : scheme.naming.kind? type = some .view) :
    scheme.node insets path inherited anchors ⟨type, props, style, children⟩ =
      Layout.withResolved anchors (ViewStyle.ofFields (fieldsOf style)) fun written =>
      Layout.withResolved anchors
        (scheme.resolver.box written (extentOf anchors insets).width) fun look =>
      boxed look insets anchors (scheme.viewContent path inherited written look children) := by
  rw [node]
  simp only [known]
  rfl

end Elements

/-- The plan of the children of an element, behind one of which the walk goes on. -/
theorem nodes_cons (insets : List (α × α)) (path : String) (index : Nat)
    (inherited : Option Alignment) (anchors : Anchors α) (node : Node) (rest : List Node) :
    scheme.nodes insets path index inherited anchors (node :: rest) =
      (scheme.node insets (childPath path node.type index) inherited anchors node).andThen
        fun anchors => scheme.nodes insets path (index + 1) inherited anchors rest := by
  obtain ⟨type, props, style, children⟩ := node
  rw [nodes]

/-- The plan of the pages of a document, behind one of which the walk goes on. -/
theorem pages_cons (insets : List (α × α)) (path : String) (index : Nat) (anchors : Anchors α)
    (node : Node) (rest : List Node) :
    scheme.pages insets path index anchors (node :: rest) =
      if node.kind? scheme.naming = some .page then
        (scheme.node insets (childPath path node.type index) none anchors node).andThen
          fun anchors => scheme.pages insets path (index + 1) anchors rest
      else scheme.pages insets path (index + 1) anchors rest := by
  obtain ⟨type, props, style, children⟩ := node
  rw [pages]
  rfl

omit [Scalar α] in
theorem path?_of_border {insets : List (α × α)} {asked : Option Border} {anchors : Anchors α} :
    ∀ step ∈ (border insets asked anchors).steps, step.path? = none := by
  intro step member
  cases asked with
  | none => cases member
  | some found =>
    rw [List.mem_singleton.1 member]
    rfl

omit [Scalar α] in
theorem path?_of_space {anchors : Anchors α} {amount : α} :
    ∀ step ∈ (Layout.step anchors (.space amount)).steps, step.path? = none := by
  intro step member
  rw [List.mem_singleton.1 member]
  rfl

/-- What a container loses, its content loses. The spacing and the borders leave the anchors as they
are, so the content is laid out from those in front of the container. -/
theorem loses_boxed {look : BoxLook α} {insets : List (α × α)} {anchors : Anchors α}
    {content : List (α × α) → Anchors α → Layout α} {becomes : String → Layout α → Prop}
    (inside : ∀ inner, (content inner anchors).Loses fun target other =>
      ∃ later : List (α × α) → Anchors α → Layout α, later inner anchors = other ∧
        becomes target (boxed look insets anchors later)) :
    (boxed look insets anchors content).Loses becomes := by
  unfold boxed at inside ⊢
  refine Loses.silent_andThen path?_of_space ?_
  refine Loses.silent_andThen path?_of_border ?_
  refine Loses.silent_andThen path?_of_space ?_
  refine Loses.andThen ?_ (Loses.silent ?_)
  · cases top : look.borderTop with
    | none =>
      rw [top] at inside
      refine (inside _).mono ?_
      rintro target other ⟨later, rfl, struck⟩
      exact struck
    | some found =>
      rw [top] at inside
      refine (inside _).mono ?_
      rintro target other ⟨later, rfl, struck⟩
      exact struck
  · intro step member
    rcases mem_andThen member with own | ⟨anchors, later⟩
    · exact path?_of_space step own
    · rcases mem_andThen later with own | ⟨anchors, last⟩
      · exact path?_of_border step own
      · exact path?_of_space step last

theorem path?_of_beginPage {props : Fields} {anchors : Anchors α} :
    ∀ step ∈ (scheme.beginPage props anchors).steps, step.path? = none := by
  intro step member
  unfold beginPage at member
  cases target : scheme.resolver.target with
  | cells =>
    rw [target] at member
    cases member
  | points =>
    rw [target] at member
    obtain ⟨width, _, member⟩ := exists_of_mem_withResolved member
    obtain ⟨height, _, member⟩ := exists_of_mem_withResolved member
    rw [List.mem_singleton.1 member]
    rfl

theorem path?_of_emptyView {height : Option α} {anchors : Anchors α} :
    ∀ step ∈ (scheme.emptyView height anchors).steps, step.path? = none := by
  intro step member
  unfold emptyView at member
  cases target : scheme.resolver.target with
  | cells =>
    rw [target] at member
    cases member
  | points =>
    rw [target] at member
    rw [List.mem_singleton.1 member]
    rfl

/-- The step of an image element may be struck out, which leaves nothing of the element. -/
theorem loses_picture {becomes : String → Layout α → Prop} {anchors : Anchors α} {path : String}
    {props style : Fields} (becomesEmpty : becomes path (Layout.done anchors)) :
    (picture anchors path props style).Loses becomes := by
  have struck {step : Step α} (own : step.path? = some path) :
      (Layout.step anchors step).Loses becomes := by
    refine Loses.step anchors fun target same => ?_
    rw [own] at same
    rw [← Option.some.inj same]
    exact becomesEmpty
  unfold picture
  refine Loses.withResolved fun align _ => ?_
  simp only
  split
  · split
    · exact struck rfl
    · exact struck rfl
  · exact Loses.withResolved fun payload _ => Loses.withResolved fun size _ => struck rfl

/-- A view loses an image where its children do. It has as many children as before, so it is laid
out in the same of the three ways. -/
theorem loses_viewContent {path : String} {inherited : Option Alignment} {written : ViewStyle α}
    {look : BoxLook α} {children : List Node} {inner : List (α × α)} {anchors : Anchors α}
    (inside : (scheme.nodes inner path 0 ((Alignment.ofItems? written.items).or inherited)
        { anchors with frame := ⟨look.width, Alignment.ofItems? written.items⟩ }
        children).Loses fun target other =>
      ∃ others, Node.WithoutIn scheme.naming name path 0 children others target ∧
        scheme.nodes inner path 0 ((Alignment.ofItems? written.items).or inherited)
          { anchors with frame := ⟨look.width, Alignment.ofItems? written.items⟩ } others = other) :
    (scheme.viewContent path inherited written look children inner anchors).Loses
      fun target other =>
        ∃ others, Node.WithoutIn scheme.naming name path 0 children others target ∧
          scheme.viewContent path inherited written look others inner anchors = other := by
  unfold viewContent
  by_cases empty : children.isEmpty
  · rw [if_pos empty]
    exact Loses.silent path?_of_emptyView
  rw [if_neg empty]
  by_cases row : (written.isRow && decide (1 < children.length)) = true
  · rw [if_pos row]
    refine Loses.silent fun step member => ?_
    obtain ⟨cells, _, member⟩ := exists_of_mem_withResolved member
    rw [List.mem_singleton.1 member]
    rfl
  rw [if_neg row]
  refine Loses.restoringFrame (inside.mono ?_)
  rintro target other ⟨others, without, rfl⟩
  have stillFull : ¬ others.isEmpty = true := by
    rw [List.isEmpty_iff_length_eq_zero, without.length_eq, ← List.isEmpty_iff_length_eq_zero]
    exact empty
  have stillNoRow : ¬ (written.isRow && decide (1 < others.length)) = true := by
    rw [without.length_eq]
    exact row
  exact ⟨others, without, by rw [if_neg stillFull, if_neg stillNoRow]⟩

mutual

/-- An element loses an image by losing the step of it. -/
theorem loses_node (unknown : scheme.naming.kind? name = none) (insets : List (α × α))
    (path : String) (inherited : Option Alignment) (anchors : Anchors α) :
    ∀ node : Node, (scheme.node insets path inherited anchors node).Loses fun target other =>
      ∃ rest, Node.Without scheme.naming name path node rest target ∧
        scheme.node insets path inherited anchors rest = other
  | ⟨type, props, style, children⟩ => by
    cases known : scheme.naming.kind? type with
    | none =>
      rw [node_unknown insets path inherited anchors props style children known]
      refine (loses_nodes unknown insets path 0 inherited anchors children).mono ?_
      rintro target other ⟨others, without, rfl⟩
      exact ⟨_, without.within, node_unknown insets path inherited anchors props style others known⟩
    | some kind =>
      cases kind with
      | document =>
        rw [node_document insets path inherited anchors props style children known]
        refine Loses.silent_andThen ?_ ?_
        · intro step member
          rw [List.mem_singleton.1 member]
          rfl
        · refine (loses_pages unknown insets path 0 anchors children).mono ?_
          rintro target other ⟨others, without, rfl⟩
          exact ⟨_, without.within,
            node_document insets path inherited anchors props style others known⟩
      | page =>
        rw [node_page insets path inherited anchors props style children known]
        refine Loses.silent_andThen path?_of_beginPage ?_
        refine Loses.withResolved fun written read => Loses.withResolved fun look resolved => ?_
        refine loses_boxed fun inner => ?_
        refine (loses_nodes unknown inner path 0 none _ children).mono ?_
        rintro target other ⟨others, without, rfl⟩
        refine ⟨scheme.pageContent path others, rfl, ⟨type, props, style, others⟩,
          without.within, ?_⟩
        rw [node_page insets path inherited anchors props style others known]
        unfold Layout.andThen
        cases (scheme.beginPage props anchors).fault with
        | some fault => rfl
        | none => simp only [Layout.withResolved, read, resolved]
      | view =>
        rw [node_view insets path inherited anchors props style children known]
        refine Loses.withResolved fun written read => Loses.withResolved fun look resolved => ?_
        refine loses_boxed fun inner => ?_
        refine (loses_viewContent (loses_nodes unknown inner path 0 _ _ children)).mono ?_
        rintro target other ⟨others, without, rfl⟩
        refine ⟨_, rfl, ⟨type, props, style, others⟩, without.within, ?_⟩
        rw [node_view insets path inherited anchors props style others known]
        simp only [Layout.withResolved, read, resolved]
      | text | run =>
        rw [node]
        simp only [known]
        refine Loses.silent fun step member => ?_
        obtain ⟨written, _, member⟩ := exists_of_mem_withResolved member
        obtain ⟨content, _, member⟩ := exists_of_mem_withResolved member
        rw [List.mem_singleton.1 member]
        rfl
      | image =>
        have kind : Node.kind? scheme.naming ⟨type, props, style, children⟩ = some .image := known
        have blank := node_blank unknown insets path inherited anchors
        rw [node]
        simp only [known]
        exact loses_picture ⟨_, Node.Without.here kind, blank⟩

theorem loses_nodes (unknown : scheme.naming.kind? name = none) (insets : List (α × α))
    (path : String) (index : Nat) (inherited : Option Alignment) (anchors : Anchors α) :
    ∀ children : List Node,
      (scheme.nodes insets path index inherited anchors children).Loses fun target other =>
        ∃ others, Node.WithoutIn scheme.naming name path index children others target ∧
          scheme.nodes insets path index inherited anchors others = other
  | [] => by
    rw [nodes]
    exact Loses.silent fun step member => by cases member
  | child :: rest => by
    rw [nodes_cons]
    refine Loses.andThen ?_ ?_
    · refine (loses_node unknown insets _ inherited anchors child).mono ?_
      rintro target other ⟨left, without, rfl⟩
      refine ⟨left :: rest, Node.WithoutIn.head without, ?_⟩
      rw [nodes_cons, node_path_eq unknown without]
    · refine (loses_nodes unknown insets path (index + 1) inherited _ rest).mono ?_
      rintro target other ⟨others, without, rfl⟩
      refine ⟨child :: others, without.tail, ?_⟩
      rw [nodes_cons]
      unfold Layout.andThen
      rfl

theorem loses_pages (unknown : scheme.naming.kind? name = none) (insets : List (α × α))
    (path : String) (index : Nat) (anchors : Anchors α) :
    ∀ children : List Node,
      (scheme.pages insets path index anchors children).Loses fun target other =>
        ∃ others, Node.WithoutIn scheme.naming name path index children others target ∧
          scheme.pages insets path index anchors others = other
  | [] => by
    rw [pages]
    exact Loses.silent fun step member => by cases member
  | child :: rest => by
    rw [pages_cons]
    split
    · rename_i page
      refine Loses.andThen ?_ ?_
      · refine (loses_node unknown insets _ none anchors child).mono ?_
        rintro target other ⟨left, without, rfl⟩
        have type : left.type = child.type := without.type_eq fun image => by
          rw [image] at page
          cases page
        have kept : left.kind? scheme.naming = some .page := by
          rw [← page]
          exact congrArg scheme.naming.kind? type
        refine ⟨left :: rest, Node.WithoutIn.head without, ?_⟩
        rw [pages_cons, if_pos kept, type]
      · refine (loses_pages unknown insets path (index + 1) _ rest).mono ?_
        rintro target other ⟨others, without, rfl⟩
        refine ⟨child :: others, without.tail, ?_⟩
        rw [pages_cons, if_pos page]
        unfold Layout.andThen
        rfl
    · rename_i noPage
      refine (loses_pages unknown insets path (index + 1) anchors rest).mono ?_
      rintro target other ⟨others, without, rfl⟩
      refine ⟨child :: others, without.tail, ?_⟩
      rw [pages_cons, if_neg noPage]

end

end Scheme

end Receipt
