import Mathlib.Logic.Relation
import Receipt.Proofs.Absent
import Receipt.Proofs.Agree
import Receipt.Proofs.LeafText

/-!
# Elements of unknown names are transparent

An element whose name stands for nothing only hands on its children. `Node.Unwraps` relates a tree to
the same tree with the children of one such element in its place. A document looks at its children
one by one, since it leaves out all but its pages, and a row makes a cell of each; under these two
parents the element counts by itself, and it is left where it is.

`unwrapping_convertRoot` is the main statement: a tree is converted like the tree with one element
less, with every backend, and going on in this way ends at a tree without such elements. Whatever the
walk asks about a part of a tree has the same answer before and behind: its texts (`written_eq`), the
style of its first text (`style_find?_eq`), its cell (`cell_eq`) and its plan (`alike_of_unwraps`).
-/

namespace Receipt

namespace Node

variable {naming : Naming}

/-- A document and a row look at their children one by one. -/
def SinglesOut (naming : Naming) (type : String) (style : Option Fields) : Prop :=
  naming.kind? type = some .document ∨
    naming.kind? type = some .view ∧
      ((Scheme.fieldsOf style).get "flexDirection").isTextOf "row" = true

instance (naming : Naming) (type : String) (style : Option Fields) :
    Decidable (SinglesOut naming type style) := by
  unfold SinglesOut
  infer_instance

/-- In the second tree the children of an element that stands for nothing have its place. -/
inductive Unwraps (naming : Naming) : Node → Node → Prop
  | here {type : String} {props : Fields} {style : Option Fields} {before behind : List Node}
      {wrapper : Node} (freely : ¬ SinglesOut naming type style)
      (unknown : wrapper.kind? naming = none) (filled : wrapper.children ≠ []) :
      Unwraps naming ⟨type, props, style, before ++ wrapper :: behind⟩
        ⟨type, props, style, before ++ (wrapper.children ++ behind)⟩
  | inside {type : String} {props : Fields} {style : Option Fields} {before behind : List Node}
      {child other : Node} (deeper : Unwraps naming child other) :
      Unwraps naming ⟨type, props, style, before ++ child :: behind⟩
        ⟨type, props, style, before ++ other :: behind⟩

namespace Unwraps

variable {node other : Node}

theorem type_eq (unwraps : Unwraps naming node other) : other.type = node.type := by
  cases unwraps with
  | here freely unknown filled => rfl
  | inside deeper => rfl

theorem style_eq (unwraps : Unwraps naming node other) : other.style = node.style := by
  cases unwraps with
  | here freely unknown filled => rfl
  | inside deeper => rfl

theorem kind?_eq (unwraps : Unwraps naming node other) :
    other.kind? naming = node.kind? naming := congrArg naming.kind? unwraps.type_eq

end Unwraps

/-! ## Texts, first texts and numbers of elements -/

theorem textsOfAll_append (naming : Naming) (first second : List Node) :
    textsOfAll naming (first ++ second) = textsOfAll naming first ++ textsOfAll naming second := by
  induction first with
  | nil => rfl
  | cons node nodes ih => rw [List.cons_append, textsOfAll, textsOfAll, ih, List.append_assoc]

theorem texts_of_unknown {node : Node} (unknown : node.kind? naming = none) :
    texts naming node = textsOfAll naming node.children := by
  obtain ⟨type, props, style, children⟩ := node
  have silent : isTextual naming type = false := by
    unfold isTextual
    rw [show naming.kind? type = none from unknown]
  rw [texts, ownTexts, silent]
  rfl

theorem areWritten_append (naming : Naming) (first second : List Node) :
    areWritten naming (first ++ second) =
      (areWritten naming first && areWritten naming second) := by
  induction first with
  | nil => rfl
  | cons node nodes ih => rw [List.cons_append, areWritten, areWritten, ih, Bool.and_assoc]

theorem isWritten_of_unknown {node : Node} (unknown : node.kind? naming = none) :
    isWritten naming node = areWritten naming node.children := by
  obtain ⟨type, props, style, children⟩ := node
  have silent : isTextual naming type = false := by
    unfold isTextual
    rw [show naming.kind? type = none from unknown]
  rw [isWritten, silent]
  rfl

theorem findIn?_append (naming : Naming) (kind : Kind) (first second : List Node) :
    findIn? naming kind (first ++ second) =
      (findIn? naming kind first).or (findIn? naming kind second) := by
  induction first with
  | nil => rfl
  | cons node nodes ih =>
    rw [List.cons_append, findIn?, findIn?, ih]
    cases find? naming kind node with
    | none => rfl
    | some found => rfl

theorem findIn?_cons (naming : Naming) (kind : Kind) (node : Node) (nodes : List Node) :
    findIn? naming kind (node :: nodes) =
      (find? naming kind node).or (findIn? naming kind nodes) := by
  rw [findIn?]
  cases find? naming kind node with
  | none => rfl
  | some found => rfl

theorem find?_of_unknown {kind : Kind} {node : Node} (unknown : node.kind? naming = none) :
    find? naming kind node = findIn? naming kind node.children := by
  obtain ⟨type, props, style, children⟩ := node
  rw [find?, show naming.kind? type = none from unknown]
  exact if_neg (Option.some_ne_none kind).symm

theorem preorderOfAll_append (first second : List Node) :
    preorderOfAll (first ++ second) = preorderOfAll first ++ preorderOfAll second := by
  induction first with
  | nil => rfl
  | cons node nodes ih =>
    rw [List.cons_append, preorderOfAll, preorderOfAll, ih, List.append_assoc]

theorem preorder_eq (node : Node) : preorder node = node :: preorderOfAll node.children := by
  obtain ⟨type, props, style, children⟩ := node
  rw [preorder]

namespace Unwraps

variable {node other : Node}

theorem texts_eq (unwraps : Unwraps naming node other) :
    texts naming other = texts naming node := by
  induction unwraps with
  | here freely unknown filled =>
    rw [texts, texts, textsOfAll_append, textsOfAll_append, textsOfAll_append, textsOfAll,
      texts_of_unknown unknown]
  | inside deeper ih =>
    rw [texts, texts, textsOfAll_append, textsOfAll_append, textsOfAll, textsOfAll, ih]

theorem isWritten_eq (unwraps : Unwraps naming node other) :
    isWritten naming other = isWritten naming node := by
  induction unwraps with
  | here freely unknown filled =>
    rw [isWritten, isWritten, areWritten_append, areWritten_append, areWritten_append, areWritten,
      isWritten_of_unknown unknown]
  | inside deeper ih =>
    rw [isWritten, isWritten, areWritten_append, areWritten_append, areWritten, areWritten, ih]

theorem written_eq (unwraps : Unwraps naming node other) :
    written naming other = written naming node :=
  written_congr unwraps.texts_eq unwraps.isWritten_eq

/-- The first element of a kind has other elements in it, but it keeps its style. -/
theorem style_find?_eq (unwraps : Unwraps naming node other) (kind : Kind) :
    (find? naming kind other).map (·.style) = (find? naming kind node).map (·.style) := by
  induction unwraps with
  | here freely unknown filled =>
    rw [find?, find?]
    split
    · rfl
    · rw [findIn?_append, findIn?_append, findIn?_append, findIn?_cons, find?_of_unknown unknown]
  | inside deeper ih =>
    rw [find?, find?]
    split
    · rfl
    · rw [findIn?_append, findIn?_append, findIn?_cons, findIn?_cons, Option.map_or, Option.map_or,
        Option.map_or, Option.map_or, ih]

theorem length_preorder (unwraps : Unwraps naming node other) :
    other.preorder.length + 1 = node.preorder.length := by
  induction unwraps with
  | here freely unknown filled =>
    rw [preorder_eq, preorder_eq, preorderOfAll_append, preorderOfAll_append, preorderOfAll_append,
      preorderOfAll, preorder_eq]
    simp only [List.length_cons, List.length_append]
    omega
  | inside deeper ih =>
    rw [preorder_eq, preorder_eq, preorderOfAll_append, preorderOfAll_append, preorderOfAll,
      preorderOfAll]
    simp only [List.length_cons, List.length_append]
    omega

end Unwraps

/-- Elements are unwrapped only so often: each time the tree has one less. -/
theorem exists_unwrapped (naming : Naming) (root : Node) :
    ∃ plain, Relation.ReflTransGen (Unwraps naming) root plain ∧
      ∀ other, ¬ Unwraps naming plain other := by
  generalize size : root.preorder.length = count
  induction count generalizing root with
  | zero =>
    rw [preorder_eq] at size
    cases size
  | succ count ih =>
    by_cases unwrapped : ∃ other, Unwraps naming root other
    · obtain ⟨other, unwraps⟩ := unwrapped
      have smaller := unwraps.length_preorder
      obtain ⟨plain, path, done⟩ := ih other (by omega)
      exact ⟨plain, .head unwraps path, done⟩
    · exact ⟨root, .refl, fun other unwraps => unwrapped ⟨other, unwraps⟩⟩

end Node

/-! ## The plan -/

namespace Scheme

open Layout

variable {α : Type} [Scalar α] {scheme : Scheme α}

/-- The plan of two lists of children is the plan of the first and then that of the second. -/
theorem nodes_append (scheme : Scheme α) (insets : List (α × α)) (path : String) (index : Nat)
    (inherited : Option Alignment) (anchors : Anchors α) (first second : List Node) :
    scheme.nodes insets path index inherited anchors (first ++ second) =
      (scheme.nodes insets path index inherited anchors first).andThen fun anchors =>
        scheme.nodes insets path (index + first.length) inherited anchors second := by
  induction first generalizing index anchors with
  | nil =>
    rw [List.nil_append, nodes, Layout.done_andThen]
    rfl
  | cons child rest ih =>
    have number : index + (child :: rest).length = index + 1 + rest.length := by
      rw [List.length_cons]
      omega
    rw [List.cons_append, nodes_cons, nodes_cons, number, andThen_assoc]
    simp only [ih]

/-- The cell of a child rests on its kind, its style, its literal text as it is written and the style
of its first text. -/
theorem cell_congr {naming others : Naming} (resolver : Resolver α) {node other : Node}
    (kind : other.kind? others = node.kind? naming) (style : other.style = node.style)
    (text : other.written others = node.written naming)
    (first : (other.find? others .text).map (·.style) = (node.find? naming .text).map (·.style)) :
    (⟨others, resolver⟩ : Scheme α).cell other = (⟨naming, resolver⟩ : Scheme α).cell node := by
  have fields : ((other.find? others .text).map fun node => fieldsOf node.style) =
      (node.find? naming .text).map fun node => fieldsOf node.style := by
    have styles := congrArg (Option.map fieldsOf) first
    rw [Option.map_map, Option.map_map] at styles
    exact styles
  have align : (⟨others, resolver⟩ : Scheme α).cellAlignment other =
      (⟨naming, resolver⟩ : Scheme α).cellAlignment node := by
    unfold cellAlignment
    rw [kind, style]
  unfold cell
  simp only [fields, align, text, style]

theorem cell_eq {node other : Node} (unwraps : Node.Unwraps scheme.naming node other) :
    scheme.cell other = scheme.cell node :=
  cell_congr scheme.resolver unwraps.kind?_eq unwraps.style_eq unwraps.written_eq
    (unwraps.style_find?_eq .text)

/-- Two lists of children that an element lays out to the same. -/
structure Interchange (scheme : Scheme α) (type : String) (style : Option Fields)
    (children others : List Node) : Prop where
  texts : Node.textsOfAll scheme.naming others = Node.textsOfAll scheme.naming children
  able : Node.areWritten scheme.naming others = Node.areWritten scheme.naming children
  empty : others.isEmpty = children.isEmpty
  nodes (insets : List (α × α)) (path : String) (inherited : Option Alignment)
    (anchors : Anchors α) :
    Alike Eq (scheme.nodes insets path 0 inherited anchors children)
      (scheme.nodes insets path 0 inherited anchors others)
  /-- A document and a row see as many children, each of them laid out to the same. -/
  singly : Node.SinglesOut scheme.naming type style →
    others.length = children.length ∧ scheme.cells others = scheme.cells children ∧
      ∀ (insets : List (α × α)) (path : String) (anchors : Anchors α),
        Alike Eq (scheme.pages insets path 0 anchors children)
          (scheme.pages insets path 0 anchors others)

/-- A view with other children that it lays out to the same. -/
theorem alike_viewContent {type : String} {style : Option Fields} {children others : List Node}
    (interchange : scheme.Interchange type style children others)
    (view : scheme.naming.kind? type = some .view) {written : ViewStyle α}
    (read : ViewStyle.ofFields (fieldsOf style) = .ok written) (path : String)
    (inherited : Option Alignment) (look : BoxLook α) (inner : List (α × α))
    (anchors : Anchors α) :
    Alike Eq (scheme.viewContent path inherited written look children inner anchors)
      (scheme.viewContent path inherited written look others inner anchors) := by
  have column : Alike Eq
      (Layout.restoringFrame anchors.frame
        (scheme.nodes inner path 0 ((Alignment.ofItems? written.items).or inherited)
          { anchors with frame := ⟨look.width, Alignment.ofItems? written.items⟩ } children))
      (Layout.restoringFrame anchors.frame
        (scheme.nodes inner path 0 ((Alignment.ofItems? written.items).or inherited)
          { anchors with frame := ⟨look.width, Alignment.ofItems? written.items⟩ } others)) :=
    (interchange.nodes ..).restoringFrame _
  unfold viewContent
  simp only
  rw [interchange.empty]
  split
  · exact alike_self _
  · cases row : written.isRow with
    | false => exact column
    | true =>
      rw [isRow_of_ofFields read] at row
      obtain ⟨count, cells, _⟩ := interchange.singly (Or.inr ⟨view, row⟩)
      rw [count, cells]
      split
      · exact alike_self _
      · exact column

/-- An element with other children that it lays out to the same is itself laid out to the same. -/
theorem alike_of_interchange {type : String} {style : Option Fields} {children others : List Node}
    (interchange : scheme.Interchange type style children others) (props : Fields)
    (insets : List (α × α)) (path : String) (inherited : Option Alignment)
    (anchors : Anchors α) :
    Alike Eq (scheme.node insets path inherited anchors ⟨type, props, style, children⟩)
      (scheme.node insets path inherited anchors ⟨type, props, style, others⟩) := by
  have boxes (look : BoxLook α) {content later : List (α × α) → Anchors α → Layout α}
      (inside : ∀ inner anchors, Alike Eq (content inner anchors) (later inner anchors))
      (anchors : Anchors α) :
      Alike Eq (boxed look insets anchors content) (boxed look insets anchors later) := by
    refine alike_boxed (fun _ _ same => congrArg _ same) look insets ?_ rfl
    rintro inner anchors _ rfl
    exact inside inner anchors
  have text : Node.written scheme.naming ⟨type, props, style, others⟩ =
      Node.written scheme.naming ⟨type, props, style, children⟩ := by
    apply Node.written_congr
    · rw [Node.texts, Node.texts, interchange.texts]
    · rw [Node.isWritten, Node.isWritten, interchange.able]
  cases known : scheme.naming.kind? type with
  | none =>
    rw [node_unknown _ _ _ _ _ _ _ known, node_unknown _ _ _ _ _ _ _ known]
    exact interchange.nodes ..
  | some kind =>
    cases kind with
    | document =>
      obtain ⟨_, _, pages⟩ := interchange.singly (Or.inl known)
      rw [node_document _ _ _ _ _ _ _ known, node_document _ _ _ _ _ _ _ known]
      refine (alike_self _).andThen ?_
      rintro anchors _ rfl
      exact pages insets path anchors
    | page =>
      rw [node_page _ _ _ _ _ _ _ known, node_page _ _ _ _ _ _ _ known]
      refine (alike_self _).andThen ?_
      rintro anchors _ rfl
      refine Alike.withResolved fun written => Alike.withResolved fun look => ?_
      exact boxes look (fun inner anchors => interchange.nodes ..) anchors
    | view =>
      rw [node_view _ _ _ _ _ _ _ known, node_view _ _ _ _ _ _ _ known]
      cases read : (ViewStyle.ofFields (fieldsOf style) : Except NumberFault (ViewStyle α)) with
      | error fault => exact alike_self _
      | ok written =>
        show Alike Eq (Layout.withResolved anchors (scheme.resolver.box written _) _)
          (Layout.withResolved anchors (scheme.resolver.box written _) _)
        refine Alike.withResolved fun look => ?_
        exact boxes look (fun inner anchors => alike_viewContent interchange known read ..) anchors
    | text | run =>
      rw [node, node]
      simp only [known, text]
      exact alike_self _
    | image =>
      rw [node, node]
      simp only [known]
      exact alike_self _

/-- The children of an element may stand in its place, when its name stands for nothing. -/
theorem interchange_here {type : String} {style : Option Fields} {before behind : List Node}
    {wrapper : Node} (freely : ¬ Node.SinglesOut scheme.naming type style)
    (unknown : wrapper.kind? scheme.naming = none) (filled : wrapper.children ≠ []) :
    scheme.Interchange type style (before ++ wrapper :: behind)
      (before ++ (wrapper.children ++ behind)) where
  texts := by
    rw [Node.textsOfAll_append, Node.textsOfAll_append, Node.textsOfAll_append, Node.textsOfAll,
      Node.texts_of_unknown unknown]
  able := by
    rw [Node.areWritten_append, Node.areWritten_append, Node.areWritten_append, Node.areWritten,
      Node.isWritten_of_unknown unknown]
  empty := by
    have some : (before ++ (wrapper.children ++ behind)).isEmpty = false := by
      simp [filled]
    have also : (before ++ wrapper :: behind).isEmpty = false := by simp
    rw [some, also]
  nodes insets path inherited anchors := by
    rw [nodes_append, nodes_append]
    refine (alike_self _).andThen ?_
    rintro anchors _ rfl
    rw [nodes_cons, nodes_append]
    obtain ⟨type, props, style, children⟩ := wrapper
    rw [node_unknown _ _ _ _ _ _ _ unknown]
    refine (alike_nodes scheme insets _ _ _ _ inherited anchors children).andThen ?_
    rintro anchors _ rfl
    exact alike_nodes scheme insets path path _ _ inherited anchors behind
  singly singles := absurd singles freely

/-- A child may be exchanged for one that is laid out to the same. -/
theorem interchange_inside {type : String} {style : Option Fields} {before behind : List Node}
    {child other : Node} (unwraps : Node.Unwraps scheme.naming child other)
    (alike : ∀ (insets : List (α × α)) (path : String) (inherited : Option Alignment)
      (anchors : Anchors α), Alike Eq (scheme.node insets path inherited anchors child)
        (scheme.node insets path inherited anchors other)) :
    scheme.Interchange type style (before ++ child :: behind) (before ++ other :: behind) where
  texts := by
    rw [Node.textsOfAll_append, Node.textsOfAll_append, Node.textsOfAll, Node.textsOfAll,
      unwraps.texts_eq]
  able := by
    rw [Node.areWritten_append, Node.areWritten_append, Node.areWritten, Node.areWritten,
      unwraps.isWritten_eq]
  empty := by
    cases before with
    | nil => rfl
    | cons first before => rfl
  nodes insets path inherited anchors := by
    rw [nodes_append, nodes_append]
    refine (alike_self _).andThen ?_
    rintro anchors _ rfl
    rw [nodes_cons, nodes_cons, unwraps.type_eq]
    refine (alike ..).andThen ?_
    rintro anchors _ rfl
    exact alike_self _
  singly _ := by
    refine ⟨?_, ?_, fun insets path anchors => ?_⟩
    · rw [List.length_append, List.length_append]
      rfl
    · unfold cells
      rw [List.mapM_append, List.mapM_append, List.mapM_cons, List.mapM_cons, cell_eq unwraps]
    · rw [pages_append, pages_append]
      refine (alike_self _).andThen ?_
      rintro anchors _ rfl
      rw [pages_cons, pages_cons, unwraps.type_eq, unwraps.kind?_eq]
      split
      · refine (alike ..).andThen ?_
        rintro anchors _ rfl
        exact alike_self _
      · exact alike_self _

/-- A tree is laid out alike with and without an element that stands for nothing. -/
theorem alike_of_unwraps {root other : Node} (unwraps : Node.Unwraps scheme.naming root other) :
    ∀ (insets : List (α × α)) (path : String) (inherited : Option Alignment) (anchors : Anchors α),
      Alike Eq (scheme.node insets path inherited anchors root)
        (scheme.node insets path inherited anchors other) := by
  induction unwraps with
  | here freely unknown filled =>
    exact alike_of_interchange (interchange_here freely unknown filled) _
  | inside deeper ih => exact alike_of_interchange (interchange_inside deeper ih) _

theorem alike_tree_of_unwraps {root other : Node}
    (unwraps : Node.Unwraps scheme.naming root other) (insets : List (α × α))
    (anchors : Anchors α) :
    Alike Eq (scheme.tree insets anchors root) (scheme.tree insets anchors other) := by
  unfold tree
  rw [unwraps.kind?_eq, unwraps.type_eq]
  split
  · exact alike_of_unwraps unwraps ..
  · refine (alike_self _).andThen ?_
    rintro anchors _ rfl
    exact alike_of_unwraps unwraps ..

/-- Whatever is unwrapped, again and again, the tree is laid out alike. -/
theorem alike_tree_of_unwrapped {root other : Node}
    (path : Relation.ReflTransGen (Node.Unwraps scheme.naming) root other)
    (insets : List (α × α)) (anchors : Anchors α) :
    Alike Eq (scheme.tree insets anchors root) (scheme.tree insets anchors other) := by
  induction path with
  | refl => exact alike_self _
  | tail path unwraps ih =>
    have last := alike_tree_of_unwraps unwraps insets anchors
    exact ⟨ih.steps.trans last.steps, ih.fault.trans last.fault,
      fun ended => (ih.anchors ended).trans (last.anchors (ih.fault.symm.trans ended))⟩

end Scheme

/-! ## Conversions -/

namespace Options

theorem convertsAlike_of_unwrapped {options : Options} {root other : Node}
    (path : Relation.ReflTransGen (Node.Unwraps options.naming) root other) :
    options.ConvertsAlike anyPaths root other := by
  refine convertsAlike_of_echoes fun resolver pageWidth => ?_
  have alike := Scheme.alike_tree_of_unwrapped
    (show Relation.ReflTransGen (Node.Unwraps (Scheme.mk options.naming resolver).naming) root other
      from path) [] (.start pageWidth)
  exact alike.echoes.mono fun _ _ same => congrArg Anchors.pageWidth same

/-- With every backend and all custom names, a tree is converted like the tree with the children of
an unknown element in its place, which has one element less. So unwrapping comes to an end, and it
ends at a tree in which nothing is left to unwrap and which is still converted alike. -/
theorem unwrapping_convertRoot (options : Options) (root : Node) :
    (∀ other, Node.Unwraps options.naming root other →
      options.ConvertsAlike anyPaths root other ∧
        other.preorder.length + 1 = root.preorder.length) ∧
      ∃ plain, Relation.ReflTransGen (Node.Unwraps options.naming) root plain ∧
        (∀ other, ¬ Node.Unwraps options.naming plain other) ∧
        options.ConvertsAlike anyPaths root plain := by
  refine ⟨fun other unwraps => ?_, ?_⟩
  · exact ⟨convertsAlike_of_unwrapped (.single unwraps), unwraps.length_preorder⟩
  · obtain ⟨plain, path, done⟩ := Node.exists_unwrapped options.naming root
    exact ⟨plain, path, done, convertsAlike_of_unwrapped path⟩

end Options

/-- A page with a centred view around some content. -/
def centeredReceipt (content : List Node) : Node :=
  ⟨"Document", [], none,
    [⟨"Page", [], none, [⟨"View", [], some [("alignItems", .text "center")], content⟩]⟩]⟩

/-- A text and a symbol, with an unknown element around them. -/
def boxedContent : List Node :=
  [⟨"Group", [], some [("flexDirection", .text "row")],
    [⟨"Text", [("children", .text "Total")], none, []⟩,
      ⟨"Image", [("qrData", .text "42")], none, []⟩]⟩]

/-- The same without the element around them. -/
def unboxedContent : List Node :=
  [⟨"Text", [("children", .text "Total")], none, []⟩,
    ⟨"Image", [("qrData", .text "42")], none, []⟩]

theorem unwrapping_convertRoot_boxedContent :
    let options : Options := ⟨.standard, none⟩
    Node.Unwraps options.naming (centeredReceipt boxedContent) (centeredReceipt unboxedContent) ∧
      options.ConvertsAlike anyPaths (centeredReceipt boxedContent)
        (centeredReceipt unboxedContent) := by
  intro options
  have boxed : Node.Unwraps options.naming
      ⟨"View", [], some [("alignItems", .text "center")], boxedContent⟩
      ⟨"View", [], some [("alignItems", .text "center")], unboxedContent⟩ := by
    have freely : ¬ Node.SinglesOut options.naming "View" (some [("alignItems", .text "center")]) := by
      decide
    exact @Node.Unwraps.here _ _ _ _ [] [] _ freely (by decide) (by decide)
  have unwraps : Node.Unwraps options.naming (centeredReceipt boxedContent)
      (centeredReceipt unboxedContent) :=
    @Node.Unwraps.inside _ _ _ _ [] [] _ _ (@Node.Unwraps.inside _ _ _ _ [] [] _ _ boxed)
  exact ⟨unwraps, ((Options.unwrapping_convertRoot options _).1 _ unwraps).1⟩

end Receipt
