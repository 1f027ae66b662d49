import Receipt.Proofs.Transparent

/-!
# Custom names can be compiled away

The walk asks of a type name only which kind it stands for. `Node.Renamed` relates a tree under some
custom names to a tree with the same elements whose names stand for the same kinds under other custom
names; such trees have the same texts, the same cells and, paths apart, the same plan
(`alike_tree_of_renamed`).

`Node.canonical` writes the standard name of its kind over every element, and one fixed name over the
elements that stand for nothing. `matches_canonical` is the main statement: a tree with custom names
is converted like its canonical tree without any, by every backend.
-/

namespace Receipt

/-! ## Names -/

/-- The standard name of a kind stands for it. -/
theorem Kind.ofName?_name (kind : Kind) : ofName? kind.name = some kind := by
  cases kind <;> decide +kernel

namespace Naming

/-- The standard name of the kind that a name stands for, and a fixed name where it stands for
nothing. -/
def canonicalName (naming : Naming) (unknown type : String) : String :=
  match naming.kind? type with
  | some kind => kind.name
  | none => unknown

/-- A canonical name stands by itself for what the name stood for under the custom names. -/
theorem kind?_canonicalName (naming : Naming) {unknown : String}
    (nothing : Kind.ofName? unknown = none) (type : String) :
    kind? [] (naming.canonicalName unknown type) = naming.kind? type := by
  show Kind.ofName? (naming.canonicalName unknown type) = _
  unfold canonicalName
  cases naming.kind? type with
  | none => exact nothing
  | some kind => exact Kind.ofName?_name kind

end Naming

/-! ## Trees with other names -/

namespace Node

mutual

/-- The second tree has the same elements, and their names stand for the same kinds. -/
inductive Renamed (naming others : Naming) : Node → Node → Prop
  | node {type name : String} {props : Fields} {style : Option Fields} {children later : List Node}
      (kind : others.kind? name = naming.kind? type)
      (below : RenamedAll naming others children later) :
      Renamed naming others ⟨type, props, style, children⟩ ⟨name, props, style, later⟩

/-- The same of several trees. -/
inductive RenamedAll (naming others : Naming) : List Node → List Node → Prop
  | nil : RenamedAll naming others [] []
  | cons {node other : Node} {nodes later : List Node} (first : Renamed naming others node other)
      (rest : RenamedAll naming others nodes later) :
      RenamedAll naming others (node :: nodes) (other :: later)

end

mutual

/-- The tree under the standard names of its elements. -/
def canonical (naming : Naming) (unknown : String) : Node → Node
  | ⟨type, props, style, children⟩ =>
    ⟨naming.canonicalName unknown type, props, style, canonicalAll naming unknown children⟩

/-- Several trees under the standard names of their elements. -/
def canonicalAll (naming : Naming) (unknown : String) : List Node → List Node
  | [] => []
  | node :: nodes => canonical naming unknown node :: canonicalAll naming unknown nodes

end

mutual

theorem renamed_canonical (naming : Naming) {unknown : String}
    (nothing : Kind.ofName? unknown = none) :
    ∀ node, Renamed naming [] node (canonical naming unknown node)
  | ⟨type, _, _, children⟩ =>
    .node (naming.kind?_canonicalName nothing type) (renamedAll_canonical naming nothing children)

theorem renamedAll_canonical (naming : Naming) {unknown : String}
    (nothing : Kind.ofName? unknown = none) :
    ∀ nodes, RenamedAll naming [] nodes (canonicalAll naming unknown nodes)
  | [] => .nil
  | node :: nodes =>
    .cons (renamed_canonical naming nothing node) (renamedAll_canonical naming nothing nodes)

end

section Renamed

variable {naming others : Naming}

theorem Renamed.kind?_eq {node other : Node} (renamed : Renamed naming others node other) :
    other.kind? others = node.kind? naming := by
  cases renamed with
  | node kind below => exact kind

theorem Renamed.style_eq {node other : Node} (renamed : Renamed naming others node other) :
    other.style = node.style := by
  cases renamed with
  | node kind below => rfl

theorem RenamedAll.length_eq {nodes later : List Node}
    (renamed : RenamedAll naming others nodes later) : later.length = nodes.length := by
  induction nodes generalizing later with
  | nil =>
    cases renamed
    rfl
  | cons node nodes ih =>
    cases renamed with
    | cons first rest => rw [List.length_cons, List.length_cons, ih rest]

theorem RenamedAll.isEmpty_eq {nodes later : List Node}
    (renamed : RenamedAll naming others nodes later) : later.isEmpty = nodes.isEmpty := by
  cases renamed with
  | nil => rfl
  | cons first rest => rfl

theorem ownTexts_of_kind {type name : String} (kind : others.kind? name = naming.kind? type)
    (props : Fields) : ownTexts others name props = ownTexts naming type props := by
  unfold ownTexts isTextual
  rw [kind]

mutual

theorem texts_of_renamed : ∀ {node other : Node}, Renamed naming others node other →
    texts others other = texts naming node
  | _, _, .node kind below => by
    rw [texts, texts, ownTexts_of_kind kind, textsOfAll_of_renamed below]

theorem textsOfAll_of_renamed : ∀ {nodes later : List Node}, RenamedAll naming others nodes later →
    textsOfAll others later = textsOfAll naming nodes
  | _, _, .nil => rfl
  | _, _, .cons first rest => by
    rw [textsOfAll, textsOfAll, texts_of_renamed first, textsOfAll_of_renamed rest]

end

mutual

theorem isWritten_of_renamed : ∀ {node other : Node}, Renamed naming others node other →
    isWritten others other = isWritten naming node
  | _, _, .node kind below => by
    rw [isWritten, isWritten, isTextual, isTextual, kind, areWritten_of_renamed below]

theorem areWritten_of_renamed : ∀ {nodes later : List Node}, RenamedAll naming others nodes later →
    areWritten others later = areWritten naming nodes
  | _, _, .nil => rfl
  | _, _, .cons first rest => by
    rw [areWritten, areWritten, isWritten_of_renamed first, areWritten_of_renamed rest]

end

theorem written_of_renamed {node other : Node} (renamed : Renamed naming others node other) :
    written others other = written naming node :=
  written_congr (texts_of_renamed renamed) (isWritten_of_renamed renamed)

mutual

/-- The first element of a kind may have another name, but it keeps its style. -/
theorem style_find?_of_renamed (kind : Kind) : ∀ {node other : Node},
    Renamed naming others node other →
    (find? others kind other).map (·.style) = (find? naming kind node).map (·.style)
  | _, _, .node same below => by
    rw [find?, find?, same]
    split
    · rfl
    · exact style_findIn?_of_renamed kind below

theorem style_findIn?_of_renamed (kind : Kind) : ∀ {nodes later : List Node},
    RenamedAll naming others nodes later →
    (findIn? others kind later).map (·.style) = (findIn? naming kind nodes).map (·.style)
  | _, _, .nil => rfl
  | _, _, .cons first rest => by
    rw [findIn?_cons, findIn?_cons, Option.map_or, Option.map_or, style_find?_of_renamed kind first,
      style_findIn?_of_renamed kind rest]

end

end Renamed

end Node

/-! ## The plan -/

namespace Scheme

open Layout

variable {α : Type} [Scalar α] {naming others : Naming}

theorem cell_of_renamed (resolver : Resolver α) {node other : Node}
    (renamed : Node.Renamed naming others node other) :
    (⟨others, resolver⟩ : Scheme α).cell other = (⟨naming, resolver⟩ : Scheme α).cell node :=
  cell_congr resolver renamed.kind?_eq renamed.style_eq
    (Node.written_of_renamed renamed) (Node.style_find?_of_renamed .text renamed)

theorem cells_of_renamed (resolver : Resolver α) {nodes later : List Node}
    (renamed : Node.RenamedAll naming others nodes later) :
    (⟨others, resolver⟩ : Scheme α).cells later = (⟨naming, resolver⟩ : Scheme α).cells nodes := by
  unfold cells
  induction nodes generalizing later with
  | nil =>
    cases renamed
    rfl
  | cons node nodes ih =>
    cases renamed with
    | cons first rest =>
      rw [List.mapM_cons, List.mapM_cons, cell_of_renamed resolver first, ih rest]

mutual

/-- An element is laid out alike under another name, whatever the paths. -/
theorem alike_node_of_renamed (resolver : Resolver α) : ∀ {node other : Node},
    Node.Renamed naming others node other →
    ∀ (insets : List (α × α)) (path place : String) (inherited : Option Alignment)
      (anchors : Anchors α),
      Alike Eq ((⟨naming, resolver⟩ : Scheme α).node insets path inherited anchors node)
        ((⟨others, resolver⟩ : Scheme α).node insets place inherited anchors other)
  | _, _, @Node.Renamed.node _ _ type name props style children later same below, insets, path,
      place, inherited, anchors => by
    have column (inner : List (α × α)) (inherited : Option Alignment) (anchors : Anchors α) :=
      alike_nodes_of_renamed resolver below inner path place 0 inherited anchors
    have boxes (look : BoxLook α) {content other : List (α × α) → Anchors α → Layout α}
        (inside : ∀ inner anchors, Alike Eq (content inner anchors) (other inner anchors))
        (anchors : Anchors α) :
        Alike Eq (boxed look insets anchors content) (boxed look insets anchors other) := by
      refine alike_boxed (fun _ _ same => congrArg _ same) look insets ?_ rfl
      rintro inner anchors _ rfl
      exact inside inner anchors
    cases known : naming.kind? type with
    | none =>
      rw [node_unknown _ _ _ _ _ _ _ known, node_unknown _ _ _ _ _ _ _ (same.trans known)]
      exact column insets inherited anchors
    | some kind =>
      cases kind with
      | document =>
        rw [node_document _ _ _ _ _ _ _ known, node_document _ _ _ _ _ _ _ (same.trans known)]
        refine (alike_self _).andThen ?_
        rintro anchors _ rfl
        exact alike_pages_of_renamed resolver below insets path place 0 anchors
      | page =>
        rw [node_page _ _ _ _ _ _ _ known, node_page _ _ _ _ _ _ _ (same.trans known)]
        refine (alike_self (beginPage ⟨naming, resolver⟩ props anchors)).andThen ?_
        rintro anchors _ rfl
        refine Alike.withResolved fun written => Alike.withResolved fun look => ?_
        exact boxes look (fun inner anchors => column inner none _) anchors
      | view =>
        rw [node_view _ _ _ _ _ _ _ known, node_view _ _ _ _ _ _ _ (same.trans known)]
        refine Alike.withResolved fun written => Alike.withResolved fun look => ?_
        refine boxes look (fun inner anchors => ?_) anchors
        unfold viewContent
        rw [below.isEmpty_eq, below.length_eq, cells_of_renamed resolver below]
        simp only
        split
        · exact alike_self _
        · split
          · exact alike_self _
          · exact (column inner _ _).restoringFrame _
      | text | run =>
        have text : Node.written others ⟨name, props, style, later⟩ =
            Node.written naming ⟨type, props, style, children⟩ :=
          Node.written_of_renamed (.node same below)
        rw [node, node]
        simp only [same, known, text]
        exact alike_self _
      | image =>
        rw [node, node]
        simp only [same, known]
        exact alike_picture anchors path place props _

/-- Children are laid out alike under other names. -/
theorem alike_nodes_of_renamed (resolver : Resolver α) : ∀ {nodes later : List Node},
    Node.RenamedAll naming others nodes later →
    ∀ (insets : List (α × α)) (path place : String) (index : Nat) (inherited : Option Alignment)
      (anchors : Anchors α),
      Alike Eq ((⟨naming, resolver⟩ : Scheme α).nodes insets path index inherited anchors nodes)
        ((⟨others, resolver⟩ : Scheme α).nodes insets place index inherited anchors later)
  | _, _, .nil, insets, path, place, index, inherited, anchors => by
    rw [nodes, nodes]
    exact Alike.done rfl
  | _, _, .cons first rest, insets, path, place, index, inherited, anchors => by
    rw [nodes_cons, nodes_cons]
    refine (alike_node_of_renamed resolver first ..).andThen ?_
    rintro anchors _ rfl
    exact alike_nodes_of_renamed resolver rest ..

/-- Pages are laid out alike under other names, and what was no page is none. -/
theorem alike_pages_of_renamed (resolver : Resolver α) : ∀ {nodes later : List Node},
    Node.RenamedAll naming others nodes later →
    ∀ (insets : List (α × α)) (path place : String) (index : Nat) (anchors : Anchors α),
      Alike Eq ((⟨naming, resolver⟩ : Scheme α).pages insets path index anchors nodes)
        ((⟨others, resolver⟩ : Scheme α).pages insets place index anchors later)
  | _, _, .nil, insets, path, place, index, anchors => by
    rw [pages, pages]
    exact Alike.done rfl
  | _, _, .cons first rest, insets, path, place, index, anchors => by
    rw [pages_cons, pages_cons, first.kind?_eq]
    split
    · refine (alike_node_of_renamed resolver first ..).andThen ?_
      rintro anchors _ rfl
      exact alike_pages_of_renamed resolver rest ..
    · exact alike_pages_of_renamed resolver rest ..

end

/-- A tree is laid out alike under other names. -/
theorem alike_tree_of_renamed (resolver : Resolver α) {root other : Node}
    (renamed : Node.Renamed naming others root other) (insets : List (α × α))
    (anchors : Anchors α) :
    Alike Eq ((⟨naming, resolver⟩ : Scheme α).tree insets anchors root)
      ((⟨others, resolver⟩ : Scheme α).tree insets anchors other) := by
  unfold tree
  rw [renamed.kind?_eq]
  split
  · exact alike_node_of_renamed resolver renamed ..
  · refine (alike_self _).andThen ?_
    rintro anchors _ rfl
    exact alike_node_of_renamed resolver renamed ..

end Scheme

/-! ## Conversions -/

namespace Options

/-- The options without custom names. -/
def withoutNames (options : Options) : Options := { options with names := none }

/-- With every backend and all custom names, a tree is converted like the tree with the standard
names of its elements is without any. -/
theorem matches_canonical (options : Options) {unknown : String}
    (nothing : Kind.ofName? unknown = none) (root : Node) :
    Conversion.Matches anyPaths (convertRoot options root)
      (convertRoot options.withoutNames (root.canonical options.naming unknown)) := by
  refine Conversion.matches_convertRoot fun resolver pageWidth => ?_
  have alike := Scheme.alike_tree_of_renamed resolver
    (Node.renamed_canonical options.naming nothing root) [] (.start pageWidth)
  exact alike.echoes.mono fun _ _ same => congrArg Anchors.pageWidth same

end Options

/-- A receipt in the words of a shop. -/
def shopReceipt : Node :=
  ⟨"Receipt", [], none,
    [⟨"Sheet", [], none,
      [⟨"Columns", [], some [("flexDirection", .text "row")],
          [⟨"Item", [("children", .text "Coffee")], none, []⟩,
            ⟨"Price", [("children", .text "4.50")], some [("textAlign", .text "right")], []⟩]⟩,
        ⟨"Group", [], none, [⟨"Image", [("qrData", .text "42")], none, []⟩]⟩]⟩]⟩

theorem matches_canonical_shopReceipt :
    let options : Options := ⟨.standard, some [("Receipt", .name "Document"),
      ("Sheet", .kind .page), ("Columns", .name "view"), ("Item", .kind .text),
      ("Price", .name "TextNode")]⟩
    Kind.ofName? "unknown" = none ∧
      Conversion.Matches anyPaths (convertRoot options shopReceipt)
        (convertRoot options.withoutNames (shopReceipt.canonical options.naming "unknown")) :=
  ⟨by decide +kernel, Options.matches_canonical _ (by decide +kernel) shopReceipt⟩

end Receipt
