import Mathlib.Data.Option.Defs
import Receipt.Convert
import Receipt.Proofs.Absent
import Receipt.Proofs.Alike
import Receipt.Proofs.LengthRange
import Receipt.Proofs.Outcome

/-!
# Styling that only a page has a use for

A receipt printer has no margin or padding at the sides, gives an empty view no height, and prints
pages of one width. `Node.Restyled` relates trees that differ in nothing but such fields of their
styles and props. The values there may be anything but whole numbers beyond the largest float, which
cannot be read as lengths at all.

`convertRoot_of_restyled` is the main statement: either protocol converts such trees to the same,
with the same notes and the same log, or refuses both for the same reason. Two styles that differ
like that are read to the same as far as a printer looks at them, or are refused alike
(`alike_textStyle`, `alike_viewStyle`), so that the plans of the two trees are equal
(`node_of_restyled`).
-/

namespace Receipt

/-! ## Styles -/

namespace Fields

/-- The fields of a style that only a page has a use for. -/
def pageStyles : List String :=
  ["marginLeft", "marginRight", "paddingLeft", "paddingRight", "height"]

/-- The props that only a page has a use for. -/
def pageProps : List String := ["size", "wrap"]

/-- Two sets of fields that agree beyond these names. -/
def SameBeyond (names : List String) (first second : Fields) : Prop :=
  ∀ name, name ∉ names → first.get? name = second.get? name

/-- Two styles that differ in nothing but what only a page has a use for, and there in values that
can be read as lengths. -/
structure SamePrint (first second : Fields) : Prop where
  beyond : first.SameBeyond pageStyles second
  onPage : ∀ name ∈ pageStyles, first.get name = second.get name ∨
    (first.get name).InRange ∧ (second.get name).InRange

/-- The fields without those of some names. -/
def without (names : List String) (fields : Fields) : Fields :=
  fields.filter fun field => field.1 ∉ names

theorem get?_without {names : List String} {name : String} (other : name ∉ names)
    (fields : Fields) : (fields.without names).get? name = fields.get? name := by
  unfold without get?
  induction fields with
  | nil => rfl
  | cons field fields ih =>
    rw [List.filter_cons]
    split
    · rw [List.lookup_cons, List.lookup_cons, ih]
    · next dropped =>
      have differs : (name == field.1) = false := by
        refine beq_false_of_ne fun same => dropped ?_
        rw [← same]
        exact decide_eq_true other
      rw [ih, List.lookup_cons, differs]

theorem SameBeyond.of_without {names : List String} {first second : Fields}
    (same : first.without names = second.without names) : first.SameBeyond names second := by
  intro name other
  rw [← get?_without other first, same, get?_without other second]

theorem SameBeyond.get {names : List String} {first second : Fields}
    (same : first.SameBeyond names second) {name : String} (other : name ∉ names) :
    first.get name = second.get name := by
  unfold Fields.get
  rw [same name other]

theorem SameBeyond.content {first second : Fields} (same : first.SameBeyond pageProps second) :
    first.content = second.content := by
  unfold Fields.content
  rw [same.get (by decide)]

theorem SameBeyond.hasWrittenContent {first second : Fields}
    (same : first.SameBeyond pageProps second) :
    first.hasWrittenContent = second.hasWrittenContent := by
  unfold Fields.hasWrittenContent
  rw [same.get (show "children" ∉ pageProps by decide)]

theorem SameBeyond.source {first second : Fields} (same : first.SameBeyond pageProps second) :
    first.source = second.source := by
  unfold Fields.source
  rw [same "source" (by decide), same.get (show "src" ∉ pageProps by decide)]

namespace SamePrint

theorem refl (style : Fields) : style.SamePrint style :=
  ⟨fun _ _ => rfl, fun _ _ => .inl rfl⟩

variable {first second : Fields}

/-- Styles that agree elsewhere, all of whose values can be read. -/
theorem of_inRange (same : first.without pageStyles = second.without pageStyles)
    (inRange : ∀ name ∈ pageStyles, (first.get name).InRange ∧ (second.get name).InRange) :
    first.SamePrint second :=
  ⟨.of_without same, fun name listed => .inr (inRange name listed)⟩

theorem get (same : first.SamePrint second) {name : String} (other : name ∉ pageStyles) :
    first.get name = second.get name := same.beyond.get other

/-- Of a field that only a page has a use for, a printer needs to know whether it can be read. -/
theorem alike_length (same : first.SamePrint second) {name : String} (listed : name ∈ pageStyles) :
    Outcome.Alike (fun _ _ : Option Float => True) (Length.ofValue (first.get name))
      (Length.ofValue (second.get name) : Except NumberFault (Option Float)) := by
  rcases same.onPage name listed with equal | ⟨inRange, other⟩
  · rw [equal]
    exact (Outcome.Alike.refl _).mono fun _ _ _ => trivial
  · obtain ⟨pixels, read⟩ := Length.isOk_ofValue_iff.2 inRange
    obtain ⟨others, also⟩ := Length.isOk_ofValue_iff.2 other
    rw [read, also]
    exact .ok trivial

theorem alike_edge (same : first.SamePrint second) {name : String} (listed : name ∈ pageStyles)
    (all : Option Float) :
    Outcome.Alike (fun _ _ => True) (edgeLength first name all) (edgeLength second name all) := by
  have read := same.alike_length listed
  unfold edgeLength
  generalize (Length.ofValue (first.get name) : Except NumberFault (Option Float)) = own,
    (Length.ofValue (second.get name) : Except NumberFault (Option Float)) = other at read
  cases read with
  | error fault => exact .error fault
  | ok _ => exact .ok trivial

theorem edge_eq (same : first.SamePrint second) {name : String} (other : name ∉ pageStyles)
    (all : Option Float) : edgeLength first name all = edgeLength second name all := by
  unfold edgeLength
  rw [same.get other]

end SamePrint

end Fields

/-- Two styles of texts that a printer cannot tell apart. -/
structure TextStyle.SamePrint (first second : TextStyle Float) : Prop where
  fontSize : first.fontSize = second.fontSize
  weight : first.weight = second.weight
  family : first.family = second.family
  align : first.align = second.align

/-- Two styles of containers that a printer cannot tell apart. -/
structure ViewStyle.SamePrint (first second : ViewStyle Float) : Prop where
  isRow : first.isRow = second.isRow
  justify : first.justify = second.justify
  items : first.items = second.items
  paddingTop : first.paddingTop = second.paddingTop
  paddingBottom : first.paddingBottom = second.paddingBottom
  marginTop : first.marginTop = second.marginTop
  marginBottom : first.marginBottom = second.marginBottom
  borderTop : first.borderTop = second.borderTop
  borderBottom : first.borderBottom = second.borderBottom
  width : first.width = second.width

namespace Fields.SamePrint

variable {first second : Fields}

theorem length_eq (same : first.SamePrint second) {name : String} (other : name ∉ pageStyles) :
    (Length.ofValue (first.get name) : Except NumberFault (Option Float)) =
      Length.ofValue (second.get name) := by
  rw [same.get other]

theorem alike_textStyle (same : first.SamePrint second) :
    Outcome.Alike TextStyle.SamePrint (TextStyle.ofFields first) (TextStyle.ofFields second) := by
  refine .bind_of_eq (same.length_eq (by decide)) fun padding => ?_
  refine .bind_of_eq (same.length_eq (by decide)) fun fontSize => ?_
  refine (same.alike_edge (by decide) padding).bind fun left leftOther _ => ?_
  refine (same.alike_edge (by decide) padding).bind fun right rightOther _ => ?_
  exact .ok ⟨rfl, same.get (by decide), same.get (by decide), same.get (by decide)⟩

theorem alike_viewStyle (same : first.SamePrint second) :
    Outcome.Alike ViewStyle.SamePrint (ViewStyle.ofFields first) (ViewStyle.ofFields second) := by
  refine .bind_of_eq (same.length_eq (by decide)) fun padding => ?_
  refine .bind_of_eq (same.length_eq (by decide)) fun margin => ?_
  refine .bind_of_eq (same.edge_eq (by decide) padding) fun paddingTop => ?_
  refine (same.alike_edge (by decide) padding).bind fun _ _ _ => ?_
  refine .bind_of_eq (same.edge_eq (by decide) padding) fun paddingBottom => ?_
  refine (same.alike_edge (by decide) padding).bind fun _ _ _ => ?_
  refine .bind_of_eq (same.edge_eq (by decide) margin) fun marginTop => ?_
  refine (same.alike_edge (by decide) margin).bind fun _ _ _ => ?_
  refine .bind_of_eq (same.edge_eq (by decide) margin) fun marginBottom => ?_
  refine (same.alike_edge (by decide) margin).bind fun _ _ _ => ?_
  refine (same.alike_length (by decide)).bind fun _ _ _ => ?_
  have described {name : String} (other : name ∉ pageStyles) :
      Border.described? (first.get name) = Border.described? (second.get name) := by
    rw [same.get other]
  have direction : first.get "flexDirection" = second.get "flexDirection" := same.get (by decide)
  exact .ok ⟨congrArg (·.isTextOf "row") direction, same.get (by decide), same.get (by decide),
    rfl, rfl, rfl, rfl, described (by decide), described (by decide), same.get (by decide)⟩

end Fields.SamePrint

/-! ## Looks -/

namespace Resolver

variable {resolver : Resolver Float}

/-- A printer has no padding at the sides of a text. -/
theorem text_eq_of_samePrint (cells : resolver.target = .cells) {style other : TextStyle Float}
    (same : style.SamePrint other) (inherited : Option Alignment) :
    resolver.text style inherited = resolver.text other inherited := by
  unfold text TextStyle.isBold
  rw [cells, same.fontSize, same.weight, same.family, same.align]

/-- A printer has no spacing at the sides of a container. -/
theorem edges_eq_of_cells (cells : resolver.target = .cells)
    (top right bottom left rightOther leftOther : Option Float) :
    resolver.edges top right bottom left = resolver.edges top rightOther bottom leftOther := by
  unfold edges
  rw [cells]

theorem box_eq_of_samePrint (cells : resolver.target = .cells) {style other : ViewStyle Float}
    (same : style.SamePrint other) (outer : Float) :
    resolver.box style outer = resolver.box other outer := by
  unfold box
  rw [same.width, same.marginTop, same.marginBottom, same.paddingTop, same.paddingBottom,
    same.items, same.borderTop, same.borderBottom,
    edges_eq_of_cells cells _ style.marginRight _ style.marginLeft other.marginRight
      other.marginLeft,
    edges_eq_of_cells cells _ style.paddingRight _ style.paddingLeft other.paddingRight
      other.paddingLeft]

end Resolver

/-! ## Trees -/

namespace Node

mutual

/-- The second tree has the same elements, with other styling that only a page has a use for. -/
inductive Restyled : Node → Node → Prop
  | node {type : String} {props others : Fields} {style other : Option Fields}
      {children later : List Node} (sameProps : props.SameBeyond Fields.pageProps others)
      (samePrint : (Scheme.fieldsOf style).SamePrint (Scheme.fieldsOf other))
      (below : RestyledAll children later) :
      Restyled ⟨type, props, style, children⟩ ⟨type, others, other, later⟩

/-- The same of several trees. -/
inductive RestyledAll : List Node → List Node → Prop
  | nil : RestyledAll [] []
  | cons {node other : Node} {nodes later : List Node} (first : Restyled node other)
      (rest : RestyledAll nodes later) : RestyledAll (node :: nodes) (other :: later)

end

namespace Restyled

variable {node other : Node}

theorem type_eq (restyled : Restyled node other) : node.type = other.type := by
  cases restyled with
  | node sameProps samePrint below => rfl

theorem kind?_eq (restyled : Restyled node other) (naming : Naming) :
    node.kind? naming = other.kind? naming := congrArg naming.kind? restyled.type_eq

theorem samePrint (restyled : Restyled node other) :
    (Scheme.fieldsOf node.style).SamePrint (Scheme.fieldsOf other.style) := by
  cases restyled with
  | node sameProps samePrint below => exact samePrint

end Restyled

namespace RestyledAll

variable {nodes later : List Node}

theorem length_eq (restyled : RestyledAll nodes later) : nodes.length = later.length := by
  induction nodes generalizing later with
  | nil =>
    cases restyled
    rfl
  | cons node nodes ih =>
    cases restyled with
    | cons first rest => rw [List.length_cons, List.length_cons, ih rest]

theorem isEmpty_eq (restyled : RestyledAll nodes later) : nodes.isEmpty = later.isEmpty := by
  cases restyled with
  | nil => rfl
  | cons first rest => rfl

end RestyledAll

section Texts

variable (naming : Naming)

mutual

theorem texts_of_restyled : ∀ {node other : Node}, Restyled node other →
    texts naming node = texts naming other
  | _, _, .node sameProps samePrint below => by
    rw [texts, texts, ownTexts, ownTexts, sameProps.content, textsOfAll_of_restyled below]

theorem textsOfAll_of_restyled : ∀ {nodes later : List Node}, RestyledAll nodes later →
    textsOfAll naming nodes = textsOfAll naming later
  | _, _, .nil => rfl
  | _, _, .cons first rest => by
    rw [textsOfAll, textsOfAll, texts_of_restyled first, textsOfAll_of_restyled rest]

end

mutual

theorem isWritten_of_restyled : ∀ {node other : Node}, Restyled node other →
    isWritten naming node = isWritten naming other
  | _, _, .node sameProps samePrint below => by
    rw [isWritten, isWritten, sameProps.hasWrittenContent, areWritten_of_restyled below]

theorem areWritten_of_restyled : ∀ {nodes later : List Node}, RestyledAll nodes later →
    areWritten naming nodes = areWritten naming later
  | _, _, .nil => rfl
  | _, _, .cons first rest => by
    rw [areWritten, areWritten, isWritten_of_restyled first, areWritten_of_restyled rest]

end

theorem written_of_restyled {node other : Node} (restyled : Restyled node other) :
    node.written naming = other.written naming :=
  written_congr (texts_of_restyled naming restyled) (isWritten_of_restyled naming restyled)

mutual

theorem find?_of_restyled (kind : Kind) : ∀ {node other : Node}, Restyled node other →
    Option.Rel Restyled (find? naming kind node) (find? naming kind other)
  | _, _, .node sameProps samePrint below => by
    rw [find?, find?]
    split
    · exact .some (.node sameProps samePrint below)
    · exact findIn?_of_restyled kind below

theorem findIn?_of_restyled (kind : Kind) : ∀ {nodes later : List Node},
    RestyledAll nodes later →
    Option.Rel Restyled (findIn? naming kind nodes) (findIn? naming kind later)
  | _, _, .nil => .none
  | _, _, .cons first rest => by
    have own := find?_of_restyled kind first
    rw [findIn?, findIn?]
    generalize find? naming kind _ = found at own ⊢
    generalize find? naming kind _ = also at own ⊢
    cases own with
    | none => exact findIn?_of_restyled kind rest
    | some same => exact .some same

end

end Texts

end Node

/-! ## The plan -/

namespace Scheme

open Layout

variable {scheme : Scheme Float}

/-- A printer has no use for what a page says about itself. -/
theorem beginPage_of_cells (cells : scheme.resolver.target = .cells) (props : Fields)
    (anchors : Anchors Float) : scheme.beginPage props anchors = Layout.done anchors := by
  unfold beginPage
  rw [cells]

theorem cellAlignment_of_restyled {node other : Node} (restyled : node.Restyled other) :
    scheme.cellAlignment node = scheme.cellAlignment other := by
  unfold cellAlignment
  rw [restyled.kind?_eq]
  split
  · refine restyled.samePrint.alike_viewStyle.bind_eq fun style other same => ?_
    rw [same.items, same.justify]
  · rfl

theorem cell_of_restyled (cells : scheme.resolver.target = .cells) {node other : Node}
    (restyled : node.Restyled other) : scheme.cell node = scheme.cell other := by
  have first : Fields.SamePrint
      (((node.find? scheme.naming .text).map fun node => fieldsOf node.style).getD [])
      (((other.find? scheme.naming .text).map fun node => fieldsOf node.style).getD []) := by
    have found := Node.find?_of_restyled scheme.naming .text restyled
    generalize node.find? scheme.naming .text = own, other.find? scheme.naming .text = also at found
    cases found with
    | none => exact .refl []
    | some same => exact same.samePrint
  unfold cell
  rw [cellAlignment_of_restyled restyled, Node.written_of_restyled scheme.naming restyled,
    restyled.samePrint.get (show "width" ∉ Fields.pageStyles by decide)]
  refine first.alike_textStyle.bind_eq fun style other same => ?_
  simp only [Resolver.text_eq_of_samePrint cells same]

theorem cells_of_restyled (target : scheme.resolver.target = .cells) {nodes later : List Node}
    (restyled : Node.RestyledAll nodes later) : scheme.cells nodes = scheme.cells later := by
  unfold cells
  induction nodes generalizing later with
  | nil =>
    cases restyled
    rfl
  | cons node nodes ih =>
    cases restyled with
    | cons first rest =>
      rw [List.mapM_cons, List.mapM_cons, cell_of_restyled target first, ih rest]

theorem pictureAlignment_of_samePrint (frame : PictureFrame Float) {style other : Fields}
    (same : style.SamePrint other) :
    pictureAlignment frame style = pictureAlignment frame other := by
  unfold pictureAlignment
  refine same.alike_textStyle.bind_eq fun text textOther sameText => ?_
  rw [sameText.align]
  split
  · rfl
  · refine same.alike_viewStyle.bind_eq fun view viewOther sameView => ?_
    rw [sameView.items, sameView.justify]

theorem picture_of_samePrint (anchors : Anchors Float) (path : String)
    {props others style other : Fields} (sameProps : props.SameBeyond Fields.pageProps others)
    (samePrint : style.SamePrint other) :
    picture anchors path props style = picture anchors path others other := by
  unfold picture
  rw [pictureAlignment_of_samePrint _ samePrint, sameProps.source,
    sameProps.get (show "qrData" ∉ Fields.pageProps by decide),
    sameProps.get (show "qrSize" ∉ Fields.pageProps by decide)]

/-- What is laid out behind two styles that are read alike. -/
theorem withResolved_of_alike {β γ : Type} {related : β → γ → Prop} {anchors : Anchors Float}
    {first : Except NumberFault β} {second : Except NumberFault γ}
    {next : β → Layout Float} {later : γ → Layout Float}
    (alike : Outcome.Alike related first second)
    (goesOn : ∀ value other, related value other → next value = later other) :
    withResolved anchors first next = withResolved anchors second later := by
  cases alike with
  | error fault => rfl
  | ok same => exact goesOn _ _ same

theorem textual_of_samePrint (cells : scheme.resolver.target = .cells)
    (insets : List (Float × Float)) (inherited : Option Alignment) (anchors : Anchors Float)
    (content : Except NumberFault String) {style other : Fields} (same : style.SamePrint other) :
    scheme.textual insets inherited anchors content style =
      scheme.textual insets inherited anchors content other := by
  refine withResolved_of_alike same.alike_textStyle fun written read sameText => ?_
  rw [Resolver.text_eq_of_samePrint cells sameText]

/-- A container whose content is laid out to the same. -/
theorem container_of_samePrint (cells : scheme.resolver.target = .cells)
    (insets : List (Float × Float)) (anchors : Anchors Float) {style other : Fields}
    (same : style.SamePrint other)
    {content later : ViewStyle Float → BoxLook Float → List (Float × Float) → Anchors Float →
      Layout Float}
    (inside : ∀ written read, ViewStyle.SamePrint written read → ∀ look,
      content written look = later read look) :
    (withResolved anchors (ViewStyle.ofFields style) fun written =>
      withResolved anchors (scheme.resolver.box written (extentOf anchors insets).width) fun look =>
        boxed look insets anchors (content written look)) =
    withResolved anchors (ViewStyle.ofFields other) fun written =>
      withResolved anchors (scheme.resolver.box written (extentOf anchors insets).width) fun look =>
        boxed look insets anchors (later written look) := by
  refine withResolved_of_alike same.alike_viewStyle fun written read sameView => ?_
  rw [Resolver.box_eq_of_samePrint cells sameView]
  congr 1
  funext look
  rw [inside written read sameView look]

mutual

/-- A printer has the same plan for an element with other styling that only a page has a use for. -/
theorem node_of_restyled (cells : scheme.resolver.target = .cells) : ∀ {node other : Node},
    node.Restyled other →
    ∀ (insets : List (Float × Float)) (path : String) (inherited : Option Alignment)
      (anchors : Anchors Float),
      scheme.node insets path inherited anchors node =
        scheme.node insets path inherited anchors other
  | _, _, @Node.Restyled.node type props others style other children later sameProps samePrint below,
      insets, path, inherited, anchors => by
    cases known : scheme.naming.kind? type with
    | none =>
      rw [node_unknown _ _ _ _ _ _ _ known, node_unknown _ _ _ _ _ _ _ known]
      exact nodes_of_restyled cells below ..
    | some kind =>
      cases kind with
      | document =>
        rw [node_document _ _ _ _ _ _ _ known, node_document _ _ _ _ _ _ _ known]
        simp only [pages_of_restyled cells below]
      | page =>
        rw [node_page _ _ _ _ _ _ _ known, node_page _ _ _ _ _ _ _ known,
          beginPage_of_cells cells, beginPage_of_cells cells, Layout.done_andThen,
          Layout.done_andThen]
        refine container_of_samePrint cells insets anchors samePrint fun written read _ look => ?_
        funext inner anchors
        exact nodes_of_restyled cells below ..
      | view =>
        rw [node_view _ _ _ _ _ _ _ known, node_view _ _ _ _ _ _ _ known]
        refine container_of_samePrint cells insets anchors samePrint
          fun written read same look => ?_
        funext inner anchors
        unfold viewContent emptyView
        simp only [below.isEmpty_eq, below.length_eq, cells_of_restyled cells below, same.items,
          same.isRow, same.justify, nodes_of_restyled cells below, cells]
      | text | run =>
        have content : Node.written scheme.naming ⟨type, props, style, children⟩ =
            Node.written scheme.naming ⟨type, others, other, later⟩ :=
          Node.written_of_restyled scheme.naming (.node sameProps samePrint below)
        rw [node, node]
        simp only [known, content]
        exact textual_of_samePrint cells insets inherited anchors _ samePrint
      | image =>
        rw [node, node]
        simp only [known]
        exact picture_of_samePrint anchors path sameProps samePrint

theorem nodes_of_restyled (cells : scheme.resolver.target = .cells) : ∀ {nodes later : List Node},
    Node.RestyledAll nodes later →
    ∀ (insets : List (Float × Float)) (path : String) (index : Nat)
      (inherited : Option Alignment) (anchors : Anchors Float),
      scheme.nodes insets path index inherited anchors nodes =
        scheme.nodes insets path index inherited anchors later
  | _, _, .nil, insets, path, index, inherited, anchors => rfl
  | _, _, .cons first rest, insets, path, index, inherited, anchors => by
    rw [nodes_cons, nodes_cons, node_of_restyled cells first, first.type_eq]
    simp only [nodes_of_restyled cells rest]

theorem pages_of_restyled (cells : scheme.resolver.target = .cells) : ∀ {nodes later : List Node},
    Node.RestyledAll nodes later →
    ∀ (insets : List (Float × Float)) (path : String) (index : Nat) (anchors : Anchors Float),
      scheme.pages insets path index anchors nodes = scheme.pages insets path index anchors later
  | _, _, .nil, insets, path, index, anchors => rfl
  | _, _, .cons first rest, insets, path, index, anchors => by
    rw [pages_cons, pages_cons, node_of_restyled cells first, first.type_eq, first.kind?_eq]
    simp only [pages_of_restyled cells rest]

end

theorem tree_of_restyled (cells : scheme.resolver.target = .cells) {root other : Node}
    (restyled : root.Restyled other) (insets : List (Float × Float)) (anchors : Anchors Float) :
    scheme.tree insets anchors root = scheme.tree insets anchors other := by
  unfold tree
  rw [restyled.kind?_eq, restyled.type_eq]
  simp only [node_of_restyled cells restyled]

end Scheme

/-! ## Conversions -/

/-- Styling that only a page has a use for changes nothing about what either protocol prints: not
the bytes, the notes or the log, and not whether anything is printed at all. -/
theorem convertRoot_of_restyled (options : Options) (protocol : Protocol) {root other : Node}
    (restyled : root.Restyled other) :
    convertRoot { options with backend := .printer protocol } root =
      convertRoot { options with backend := .printer protocol } other := by
  have sameTree (pageWidth : Float) :
      (⟨options.naming, (options.printer protocol).resolver⟩ : Scheme Float).tree []
          (.start pageWidth) root =
        (⟨options.naming, (options.printer protocol).resolver⟩ : Scheme Float).tree []
          (.start pageWidth) other :=
    Scheme.tree_of_restyled rfl restyled [] (.start pageWidth)
  have printed (pageWidth : Float) :
      printReceipt { options with backend := .printer protocol } protocol pageWidth root =
        printReceipt { options with backend := .printer protocol } protocol pageWidth other :=
    congrArg (fun plan => ((options.printer protocol).print .unknown plan).andThen fun registers =>
      Printing.send registers options.cutCommands) (sameTree pageWidth)
  unfold convertRoot convertToPrint Conversion.startLine
  simp only [printed, restyled.type_eq]

/-- A receipt with a page size, and a padded box with an empty part. -/
def wideReceipt : Node :=
  ⟨"Document", [], none,
    [⟨"Page", [("size", .mapping [("width", .int 300)]), ("wrap", .bool true)],
        some [("marginLeft", .int 12)],
      [⟨"View", [], some [("padding", .int 20), ("paddingLeft", .text "3px")],
        [⟨"Text", [("children", .text "Total")], some [("paddingRight", .float 1.5)], []⟩,
          ⟨"View", [], some [("height", .int 40)], []⟩]⟩]⟩]⟩

/-- The same receipt without them. -/
def plainReceipt : Node :=
  ⟨"Document", [], none,
    [⟨"Page", [], none,
      [⟨"View", [], some [("padding", .int 20)],
        [⟨"Text", [("children", .text "Total")], none, []⟩, ⟨"View", [], some [], []⟩]⟩]⟩]⟩

theorem restyled_wideReceipt : wideReceipt.Restyled plainReceipt := by
  have total : Node.Restyled
      ⟨"Text", [("children", .text "Total")], some [("paddingRight", .float 1.5)], []⟩
      ⟨"Text", [("children", .text "Total")], none, []⟩ :=
    .node (.of_without rfl) (.of_inRange rfl (by decide +kernel)) .nil
  have empty : Node.Restyled ⟨"View", [], some [("height", .int 40)], []⟩
      ⟨"View", [], some [], []⟩ :=
    .node (.of_without rfl) (.of_inRange rfl (by decide +kernel)) .nil
  have box : Node.Restyled
      ⟨"View", [], some [("padding", .int 20), ("paddingLeft", .text "3px")], _⟩
      ⟨"View", [], some [("padding", .int 20)], _⟩ :=
    .node (.of_without rfl) (.of_inRange rfl (by decide +kernel)) (.cons total (.cons empty .nil))
  have page : Node.Restyled
      ⟨"Page", [("size", .mapping [("width", .int 300)]), ("wrap", .bool true)],
        some [("marginLeft", .int 12)], _⟩
      ⟨"Page", [], none, _⟩ :=
    .node (.of_without rfl) (.of_inRange rfl (by decide +kernel)) (.cons box .nil)
  exact .node (.of_without rfl) (.refl []) (.cons page .nil)

theorem convertRoot_wideReceipt :
    let options : Options := ⟨.standard, none⟩
    wideReceipt.Restyled plainReceipt ∧
      convertRoot { options with backend := .printer .escBematech } wideReceipt =
        convertRoot { options with backend := .printer .escBematech } plainReceipt :=
  ⟨restyled_wideReceipt, convertRoot_of_restyled _ .escBematech restyled_wideReceipt⟩

end Receipt
