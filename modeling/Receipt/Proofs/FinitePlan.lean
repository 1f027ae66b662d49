import Receipt.Proofs.Absent
import Receipt.Proofs.CharacterBoxes
import Receipt.Proofs.LeafText
import Receipt.Proofs.Resolution

/-!
# Plans of finite numbers

`Scheme.Resolves` says of one element that its numbers are finite: its lengths, its width in whatever
box it stands, the size of a page and the modules of a symbol, and that its texts can be written out. It
looks at the element alone and not at what is around it.

`Scheme.finishes_tree` is the main statement: when all elements of a tree resolve, its plan comes to
its end, and every number that a step asks for can be had (`Step.Countable`). On the way through the
tree all boxes stay counts of characters on a receipt printer; a page takes them as they are.
-/

namespace Receipt

open Outcome

/-! ## Elements of finite numbers -/

/-- Whether a value comes to a finite number as a length, if it comes to one. -/
def Value.readsFinite (value : Value) : Bool :=
  match (Length.ofValue value : Except NumberFault (Option Float)) with
  | .ok none => true
  | .ok (some pixels) => pixels.isFinite
  | .error _ => false

theorem Value.isFinite_of_read {value : Value} (finite : value.readsFinite = true)
    {read : Option Float} (known : Length.ofValue value = .ok read) :
    ∀ pixels ∈ read, pixels.isFinite = true := by
  rintro pixels rfl
  unfold readsFinite at finite
  rw [known] at finite
  exact finite

theorem Value.inRange_of_readsFinite {value : Value} (finite : value.readsFinite = true) :
    value.InRange := by
  rw [← Length.isOk_ofValue_iff]
  unfold readsFinite at finite
  cases known : (Length.ofValue value : Except NumberFault (Option Float)) with
  | ok read => exact ⟨read, rfl⟩
  | error fault =>
    rw [known] at finite
    cases finite

namespace Fields

/-- The size that a page states, with no fields when it states none. -/
def pageSize (props : Fields) : Fields :=
  match props.get "size" with
  | .mapping size => size
  | _ => []

end Fields

namespace Page

/-- The modules along the side of a symbol with a module size. -/
def modulesOf (size : Int) : Except NumberFault Float := Scalar.ofInt (max 1 size * symbolModules)

end Page

/-- The numbers of an element are finite, on a line of however many characters up to the given number,
and its texts can be written out. -/
structure Scheme.Resolves (scheme : Scheme Float) (most : Nat) (node : Node) : Prop where
  lengths : ∀ name ∈ Fields.lengths, ((fieldsOf node.style).get name).readsFinite = true
  width : ∀ characters ≤ most,
    scheme.resolver.TakesWidth ((fieldsOf node.style).get "width") (Float.ofNat characters)
  pageSize : ∀ name ∈ ["width", "height"], (node.props.pageSize.get name).InRange
  content : Node.isTextual scheme.naming node.type = true → node.props.hasWrittenContent = true
  payload : node.kind? scheme.naming = some .image → (node.props.get "qrData").isWritten = true
  /-- The module size is a number, and so are the modules of a symbol that is drawn. -/
  symbol : node.kind? scheme.naming = some .image →
    Returns (symbolSize (node.props.get "qrSize")) ∧ (scheme.resolver.target = .points →
      Returns (symbolSize (node.props.get "qrSize") >>= Page.modulesOf))

instance (scheme : Scheme Float) (most : Nat) (node : Node) :
    Decidable (scheme.Resolves most node) :=
  decidable_of_iff
    ((∀ name ∈ Fields.lengths, ((Scheme.fieldsOf node.style).get name).readsFinite = true) ∧
      (∀ characters ≤ most, scheme.resolver.TakesWidth ((Scheme.fieldsOf node.style).get "width")
        (Float.ofNat characters)) ∧
      (∀ name ∈ ["width", "height"], (node.props.pageSize.get name).InRange) ∧
      (Node.isTextual scheme.naming node.type = true → node.props.hasWrittenContent = true) ∧
      (node.kind? scheme.naming = some .image → (node.props.get "qrData").isWritten = true) ∧
      (node.kind? scheme.naming = some .image →
        Returns (Scheme.symbolSize (node.props.get "qrSize")) ∧
          (scheme.resolver.target = .points →
            Returns (Scheme.symbolSize (node.props.get "qrSize") >>= Page.modulesOf))))
    ⟨fun ⟨lengths, width, pageSize, content, payload, symbol⟩ =>
        ⟨lengths, width, pageSize, content, payload, symbol⟩,
      fun ⟨lengths, width, pageSize, content, payload, symbol⟩ =>
        ⟨lengths, width, pageSize, content, payload, symbol⟩⟩

namespace Resolver

variable {resolver : Resolver Float} {most : Nat} {width : Value} {outer : Float}

/-- The widths that a box may have: on a receipt printer, any count of at most so many characters. -/
def Spans (resolver : Resolver Float) (most : Nat) (outer : Float) : Prop :=
  resolver.target = .cells → CountsTo most outer

/-- A width that can be had on every line can be had in every box. A page takes it whatever the box. -/
theorem takesWidth_of_spans (each : ∀ characters ≤ most,
      resolver.TakesWidth width (Float.ofNat characters)) (spans : resolver.Spans most outer) :
    resolver.TakesWidth width outer := by
  cases target : resolver.target with
  | cells =>
    obtain ⟨n, within, stands⟩ := spans target
    obtain ⟨same, _⟩ := Scalar.stands_float stands
    have taken := each n within
    rwa [same]
  | points =>
    intro given
    have taken := each 0 (Nat.zero_le _) given
    unfold TakesStated at taken ⊢
    rw [target] at taken ⊢
    cases share : (Percentage.ofValue? width : Option Float) with
    | some found => exact fun cells => by cases cells
    | none =>
      rw [share] at taken
      exact taken

end Resolver

/-! ## Steps of finite numbers -/

/-- The numbers that a step asks for can be had. -/
def Step.Countable (resolver : Resolver Float) (most : Nat) : Step Float → Prop
  | .text _ _ extent | .divider _ extent | .picture _ _ _ _ extent =>
    resolver.target = .cells → extent.InCharacters most
  | .row cells _ extent =>
    (resolver.target = .cells → extent.InCharacters most) ∧
      ∀ cell ∈ cells, ∀ outer, resolver.Spans most outer → resolver.TakesWidth cell.width outer
  | .space amount => resolver.target = .cells → amount.isFinite = true
  | .symbol _ size _ _ _ => resolver.target = .points → Returns (Page.modulesOf size)
  | .reset | .page _ _ | .sourceless _ => True

/-- Anchors that give boxes in characters, on a receipt printer. -/
def Scheme.FitsAnchors (scheme : Scheme Float) (most : Nat) (anchors : Anchors Float) : Prop :=
  scheme.resolver.target = .cells → anchors.InCharacters most

/-- Insets that give boxes in characters, on a receipt printer. -/
def Scheme.FitsInsets (scheme : Scheme Float) (most : Nat) (insets : List (Float × Float)) : Prop :=
  scheme.resolver.target = .cells → ∀ pageWidth, Scalar.Stands pageWidth most →
    (⟨pageWidth, insets⟩ : Extent Float).InCharacters most

/-- A layout that comes to its end, with steps of finite numbers. -/
structure Scheme.Finishes (scheme : Scheme Float) (most : Nat) (layout : Layout Float) : Prop where
  fault : layout.fault = none
  steps : ∀ step ∈ layout.steps, step.Countable scheme.resolver most
  anchors : scheme.FitsAnchors most layout.anchors

namespace Scheme.Finishes

variable {scheme : Scheme Float} {most : Nat} {anchors : Anchors Float}

theorem done (fits : scheme.FitsAnchors most anchors) : scheme.Finishes most (.done anchors) :=
  ⟨rfl, fun _ member => absurd member List.not_mem_nil, fits⟩

theorem step (fits : scheme.FitsAnchors most anchors) {step : Step Float}
    (countable : step.Countable scheme.resolver most) :
    scheme.Finishes most (.step anchors step) := by
  refine ⟨rfl, fun other member => ?_, fits⟩
  rw [List.mem_singleton.1 member]
  exact countable

theorem andThen {first : Layout Float} {next : Anchors Float → Layout Float}
    (former : scheme.Finishes most first)
    (latter : ∀ anchors, scheme.FitsAnchors most anchors → scheme.Finishes most (next anchors)) :
    scheme.Finishes most (first.andThen next) := by
  have rest := latter first.anchors former.anchors
  unfold Layout.andThen
  rw [former.fault]
  refine ⟨rest.fault, fun step member => ?_, rest.anchors⟩
  rcases List.mem_append.1 member with own | later
  · exact former.steps step own
  · exact rest.steps step later

theorem withResolved {β : Type} {resolved : Except NumberFault β} {next : β → Layout Float}
    (returns : Returns resolved) (later : ∀ value, resolved = .ok value →
      scheme.Finishes most (next value)) :
    scheme.Finishes most (.withResolved anchors resolved next) := by
  obtain ⟨value, rfl⟩ := returns
  exact later value rfl

theorem restoringFrame {layout : Layout Float} {frame : PictureFrame Float}
    (finishes : scheme.Finishes most layout)
    (own : scheme.resolver.target = .cells → ∀ width ∈ frame.width, CountsTo most width) :
    scheme.Finishes most (layout.restoringFrame frame) :=
  ⟨finishes.fault, finishes.steps, fun cells =>
    ⟨(finishes.anchors cells).pageWidth, (finishes.anchors cells).pageBox, own cells⟩⟩

end Scheme.Finishes

/-! ## Styles of finite numbers -/

section Styles

variable {style : Fields}

theorem isFinite_of_edgeLength {name : String} {all edge : Option Float}
    (own : (style.get name).readsFinite = true) (others : ∀ pixels ∈ all, pixels.isFinite = true)
    (read : edgeLength style name all = .ok edge) : ∀ pixels ∈ edge, pixels.isFinite = true := by
  unfold edgeLength at read
  cases known : (Length.ofValue (style.get name) : Except NumberFault (Option Float)) with
  | error fault =>
    rw [known] at read
    cases read
  | ok found =>
    rw [known] at read
    obtain rfl := Except.ok.inj read
    cases found with
    | none => exact others
    | some pixels => exact Value.isFinite_of_read own known

theorem hasLines_of_isFinite {pixels : Option Float}
    (finite : ∀ number ∈ pixels, number.isFinite = true) : HasLines pixels :=
  fun number known => .inr (finite number known)

variable (finite : ∀ name ∈ Fields.lengths, (style.get name).readsFinite = true)

include finite

theorem TextStyle.returns_of_finite :
    Returns (TextStyle.ofFields style : Except NumberFault (TextStyle Float)) := by
  rw [TextStyle.returns_ofFields_iff]
  intro name listed
  have also : ∀ name ∈ Fields.textLengths, name ∈ Fields.lengths := by decide
  exact Value.inRange_of_readsFinite (finite name (also name listed))

theorem ViewStyle.returns_of_finite :
    Returns (ViewStyle.ofFields style : Except NumberFault (ViewStyle Float)) := by
  rw [ViewStyle.returns_ofFields_iff]
  intro name listed
  exact Value.inRange_of_readsFinite (finite name (List.mem_cons_of_mem _ listed))

/-- The spacing above and below a container is finite, and its width is the one in the style. -/
theorem ViewStyle.spacing_of_finite {written : ViewStyle Float}
    (read : ViewStyle.ofFields style = .ok written) :
    written.width = style.get "width" ∧
      (HasLines written.marginTop ∧ HasLines written.marginBottom) ∧
        HasLines written.paddingTop ∧ HasLines written.paddingBottom := by
  unfold ViewStyle.ofFields at read
  obtain ⟨padding, everyPadding, read⟩ := bind_eq_ok_iff.1 read
  obtain ⟨margin, everyMargin, read⟩ := bind_eq_ok_iff.1 read
  obtain ⟨paddingTop, abovePadding, read⟩ := bind_eq_ok_iff.1 read
  obtain ⟨_, _, read⟩ := bind_eq_ok_iff.1 read
  obtain ⟨paddingBottom, belowPadding, read⟩ := bind_eq_ok_iff.1 read
  obtain ⟨_, _, read⟩ := bind_eq_ok_iff.1 read
  obtain ⟨marginTop, aboveMargin, read⟩ := bind_eq_ok_iff.1 read
  obtain ⟨_, _, read⟩ := bind_eq_ok_iff.1 read
  obtain ⟨marginBottom, belowMargin, read⟩ := bind_eq_ok_iff.1 read
  iterate 2
    obtain ⟨_, _, read⟩ := bind_eq_ok_iff.1 read
  obtain rfl := pure_eq_ok_iff.1 read
  have paddings := Value.isFinite_of_read (finite "padding" (by decide)) everyPadding
  have margins := Value.isFinite_of_read (finite "margin" (by decide)) everyMargin
  refine ⟨rfl, ⟨?_, ?_⟩, ?_, ?_⟩
  · exact hasLines_of_isFinite
      (isFinite_of_edgeLength (finite _ (by decide)) margins aboveMargin)
  · exact hasLines_of_isFinite
      (isFinite_of_edgeLength (finite _ (by decide)) margins belowMargin)
  · exact hasLines_of_isFinite
      (isFinite_of_edgeLength (finite _ (by decide)) paddings abovePadding)
  · exact hasLines_of_isFinite
      (isFinite_of_edgeLength (finite _ (by decide)) paddings belowPadding)

end Styles

/-! ## Texts -/

namespace Node

variable {naming : Naming}

mutual

/-- The texts of a tree can be written out when those of all its elements can. -/
theorem isWritten_of_preorder : ∀ {node : Node},
    (∀ inner ∈ node.preorder,
      isTextual naming inner.type = true → inner.props.hasWrittenContent = true) →
    node.isWritten naming = true
  | ⟨type, props, style, children⟩, all => by
    rw [preorder, List.forall_mem_cons] at all
    rw [isWritten, areWritten_of_preorder all.2, Bool.and_true]
    cases textual : isTextual naming type with
    | false => rfl
    | true => exact all.1 textual

theorem areWritten_of_preorder : ∀ {nodes : List Node},
    (∀ inner ∈ preorderOfAll nodes,
      isTextual naming inner.type = true → inner.props.hasWrittenContent = true) →
    areWritten naming nodes = true
  | [], _ => rfl
  | node :: nodes, all => by
    rw [preorderOfAll, List.forall_mem_append] at all
    rw [areWritten, isWritten_of_preorder all.1, areWritten_of_preorder all.2]
    rfl

end

mutual

/-- The first element of a kind is one of the elements of the tree. -/
theorem mem_of_find? {kind : Kind} : ∀ {node found : Node},
    node.find? naming kind = some found → found ∈ node.preorder
  | ⟨type, props, style, children⟩, found, known => by
    rw [find?] at known
    rw [preorder]
    split at known
    · rw [Option.some.inj known]
      exact List.mem_cons_self ..
    · exact List.mem_cons_of_mem _ (mem_of_findIn? known)

theorem mem_of_findIn? {kind : Kind} : ∀ {nodes : List Node} {found : Node},
    findIn? naming kind nodes = some found → found ∈ preorderOfAll nodes
  | [], found, known => by cases known
  | node :: nodes, found, known => by
    rw [findIn?] at known
    rw [preorderOfAll, List.mem_append]
    cases first : node.find? naming kind with
    | some own =>
      rw [first] at known
      rw [← Option.some.inj known]
      exact .inl (mem_of_find? first)
    | none =>
      rw [first] at known
      exact .inr (mem_of_findIn? known)

end

/-- A tree is the first of its elements. -/
theorem mem_preorder_self (node : Node) : node ∈ node.preorder := by
  obtain ⟨type, props, style, children⟩ := node
  rw [preorder]
  exact List.mem_cons_self ..

theorem mem_preorderOfAll {nodes : List Node} {node inner : Node} (member : node ∈ nodes)
    (inside : inner ∈ node.preorder) : inner ∈ preorderOfAll nodes := by
  induction nodes with
  | nil => cases member
  | cons first rest ih =>
    rw [preorderOfAll, List.mem_append]
    rcases List.mem_cons.1 member with rfl | later
    · exact .inl inside
    · exact .inr (ih later)

end Node

/-! ## The walk -/

namespace Scheme

open Layout

variable {scheme : Scheme Float} {most : Nat}

section Parts

variable {node : Node} {insets : List (Float × Float)} {anchors : Anchors Float}

theorem returns_written (all : ∀ inner ∈ node.preorder, scheme.Resolves most inner) :
    Returns (node.written scheme.naming) :=
  ⟨_, Node.written_eq_ok_iff.2
    ⟨Node.isWritten_of_preorder fun inner member => (all inner member).content, rfl⟩⟩

/-- A child of a row comes to a cell, whose width can be had. -/
theorem returns_cell (all : ∀ inner ∈ node.preorder, scheme.Resolves most inner) :
    Returns (scheme.cell node) := by
  have empty : ∀ name, (Fields.get [] name).readsFinite = true := fun _ => rfl
  have look : Returns (TextStyle.ofFields
      (((node.find? scheme.naming .text).map fun found => fieldsOf found.style).getD []) :
        Except NumberFault (TextStyle Float)) := by
    apply TextStyle.returns_of_finite
    cases found : node.find? scheme.naming .text with
    | none => exact fun name _ => empty name
    | some first => exact (all first (Node.mem_of_find? found)).lengths
  have placed : Returns (scheme.cellAlignment node) := by
    unfold cellAlignment
    split
    · have read := ViewStyle.returns_of_finite (all node node.mem_preorder_self).lengths
      exact (returns_bind_iff_left fun _ _ => returns_ok _).2 read
    · exact returns_ok _
  obtain ⟨style, read⟩ := look
  obtain ⟨inherited, known⟩ := placed
  obtain ⟨content, written⟩ := returns_written all
  exact ⟨_, bind_eq_ok_iff.2 ⟨style, read, bind_eq_ok_iff.2 ⟨inherited, known,
    bind_eq_ok_iff.2 ⟨content, written, rfl⟩⟩⟩⟩

theorem width_of_cell {cell : Cell Float} (made : scheme.cell node = .ok cell) :
    cell.width = (fieldsOf node.style).get "width" := by
  obtain ⟨_, _, made⟩ := bind_eq_ok_iff.1 made
  obtain ⟨_, _, made⟩ := bind_eq_ok_iff.1 made
  obtain ⟨_, _, made⟩ := bind_eq_ok_iff.1 made
  obtain rfl := pure_eq_ok_iff.1 made
  rfl

theorem inCharacters_extentOf (room : scheme.FitsInsets most insets)
    (fits : scheme.FitsAnchors most anchors) (cells : scheme.resolver.target = .cells) :
    (extentOf anchors insets).InCharacters most :=
  room cells _ (fits cells).pageWidth

theorem finishes_textual {inherited : Option Alignment} {content : Except NumberFault String}
    {style : Fields} (finite : ∀ name ∈ Fields.lengths, (style.get name).readsFinite = true)
    (returns : Returns content) (room : scheme.FitsInsets most insets)
    (fits : scheme.FitsAnchors most anchors) :
    scheme.Finishes most (scheme.textual insets inherited anchors content style) := by
  refine .withResolved (TextStyle.returns_of_finite finite) fun _ _ => ?_
  refine .withResolved returns fun _ _ => ?_
  exact .step fits (inCharacters_extentOf room fits)

theorem finishes_border {look : Option Border} (room : scheme.FitsInsets most insets)
    (fits : scheme.FitsAnchors most anchors) :
    scheme.Finishes most (border insets look anchors) := by
  cases look with
  | none => exact .done fits
  | some found => exact .step fits (inCharacters_extentOf room fits)

theorem finishes_emptyView {height : Option Float} (fits : scheme.FitsAnchors most anchors) :
    scheme.Finishes most (scheme.emptyView height anchors) := by
  unfold emptyView
  cases target : scheme.resolver.target with
  | cells => exact .done fits
  | points =>
    refine .step fits fun cells => ?_
    rw [target] at cells
    cases cells

/-- A picture element whose numbers are finite. -/
theorem finishes_picture (short : most < 2 ^ 53) {path : String} {props style : Fields}
    (finite : ∀ name ∈ Fields.lengths, (style.get name).readsFinite = true)
    (payload : (props.get "qrData").isWritten = true)
    (symbol : Returns (symbolSize (props.get "qrSize")) ∧ (scheme.resolver.target = .points →
      Returns (symbolSize (props.get "qrSize") >>= Page.modulesOf)))
    (fits : scheme.FitsAnchors most anchors) :
    scheme.Finishes most (picture anchors path props style) := by
  have aligned : Returns (pictureAlignment anchors.frame style) := by
    unfold pictureAlignment
    refine (returns_bind_iff_left fun text _ => ?_).2 (TextStyle.returns_of_finite finite)
    split
    · exact returns_ok _
    · exact (returns_bind_iff_left fun _ _ => returns_ok _).2 (ViewStyle.returns_of_finite finite)
  refine .withResolved aligned fun align _ => ?_
  dsimp only
  split
  · split
    · exact .step fits trivial
    · exact .step fits fun cells => (fits cells).pictureExtent short
  · refine .withResolved (Value.returns_written_iff.2 payload) fun _ _ => ?_
    refine .withResolved symbol.1 fun size known => .step fits fun points => ?_
    have modules := symbol.2 points
    rwa [known] at modules

theorem returns_statedSize? {value : Value} (inRange : value.InRange) :
    Returns (statedSize? value : Except NumberFault (Option Float)) := by
  cases value with
  | int number =>
    unfold statedSize?
    dsimp only
    split
    · exact returns_map_iff.2 ⟨_, floatOfInt_eq_ok (inRange number rfl)⟩
    · exact returns_ok _
  | null | bool _ | float _ | text _ | bytes _ | picture _ | samples _ | member _ | list _
  | mapping _ | element _ _ _ _ | shared _ => exact returns_ok _

theorem finishes_beginPage {props : Fields}
    (sized : ∀ name ∈ ["width", "height"], (props.pageSize.get name).InRange)
    (fits : scheme.FitsAnchors most anchors) :
    scheme.Finishes most (scheme.beginPage props anchors) := by
  unfold beginPage
  cases target : scheme.resolver.target with
  | cells => exact .done fits
  | points =>
    have free (anchors : Anchors Float) : scheme.FitsAnchors most anchors := fun cells => by
      rw [target] at cells
      cases cells
    unfold Fields.pageSize at sized
    dsimp only
    split
    · next size given =>
      rw [given] at sized
      refine .withResolved (returns_statedSize? (sized _ (by decide))) fun _ _ => ?_
      refine .withResolved (returns_statedSize? (sized _ (by decide))) fun _ _ => ?_
      exact .step (free _) trivial
    · have absent : Value.InRange .null := by decide
      refine .withResolved (returns_statedSize? absent) fun _ _ => ?_
      refine .withResolved (returns_statedSize? absent) fun _ _ => ?_
      exact .step (free _) trivial

/-- A row of children that come to cells. -/
theorem finishes_row {children : List Node} {justify : Value}
    (all : ∀ inner ∈ Node.preorderOfAll children, scheme.Resolves most inner)
    (room : scheme.FitsInsets most insets) (fits : scheme.FitsAnchors most anchors) :
    scheme.Finishes most (.withResolved anchors (scheme.cells children) fun cells =>
      .step anchors (.row cells justify (extentOf anchors insets))) := by
  have each : ∀ child ∈ children, ∀ inner ∈ child.preorder, scheme.Resolves most inner :=
    fun child member inner inside => all inner (Node.mem_preorderOfAll member inside)
  refine .withResolved (returns_mapM_iff.2 fun child member => returns_cell (each child member))
    fun cells made => .step fits ⟨inCharacters_extentOf room fits, fun cell member => ?_⟩
  obtain ⟨child, inside, own⟩ := exists_of_mem_mapM made member
  rw [width_of_cell own]
  exact fun outer => Resolver.takesWidth_of_spans
    (each child inside child child.mem_preorder_self).width

/-- What is around the content of a container is counted when the content is, in whatever box in
characters. -/
theorem finishes_boxed (short : most < 2 ^ 53) {look : BoxLook Float}
    {content : List (Float × Float) → Anchors Float → Layout Float}
    (plain : scheme.resolver.target = .cells → look.InCharacters most)
    (room : scheme.FitsInsets most insets) (fits : scheme.FitsAnchors most anchors)
    (inside : ∀ inner anchors, scheme.FitsInsets most inner → scheme.FitsAnchors most anchors →
      scheme.Finishes most (content inner anchors)) :
    scheme.Finishes most (boxed look insets anchors content) := by
  have around (cells : scheme.resolver.target = .cells) := inCharacters_extentOf room fits cells
  have bordered : scheme.FitsInsets most (look.bordered (extentOf anchors insets)).insets :=
    fun cells pageWidth stands =>
      let box := (around cells).bordered short (plain cells)
      ⟨stands, box.left, box.right⟩
  have inner : scheme.FitsInsets most (look.inner (extentOf anchors insets)).insets :=
    fun cells pageWidth stands =>
      let box := (around cells).inner short (plain cells)
      ⟨stands, box.left, box.right⟩
  unfold boxed
  refine .andThen (.step fits fun cells => (plain cells).margin.top) fun _ fits => ?_
  refine .andThen (finishes_border bordered fits) fun _ fits => ?_
  refine .andThen (.step fits fun cells => (plain cells).padding.top) fun _ fits => ?_
  refine .andThen (inside _ _ inner fits) fun _ fits => ?_
  refine .andThen (.step fits fun cells => (plain cells).padding.bottom) fun _ fits => ?_
  refine .andThen (finishes_border bordered fits) fun _ fits => ?_
  exact .step fits fun cells => (plain cells).margin.bottom

/-- A container of finite numbers, with whatever content. -/
theorem finishes_container (short : most < 2 ^ 53) (own : scheme.Resolves most node)
    (room : scheme.FitsInsets most insets) (fits : scheme.FitsAnchors most anchors)
    (content : ViewStyle Float → BoxLook Float → List (Float × Float) → Anchors Float →
      Layout Float)
    (inside : ∀ written look inner anchors,
      (scheme.resolver.target = .cells → look.InCharacters most) →
      scheme.FitsInsets most inner → scheme.FitsAnchors most anchors →
      scheme.Finishes most (content written look inner anchors)) :
    scheme.Finishes most (.withResolved anchors (ViewStyle.ofFields (fieldsOf node.style))
      fun written => .withResolved anchors
        (scheme.resolver.box written (extentOf anchors insets).width) fun look =>
          boxed look insets anchors (content written look)) := by
  refine .withResolved (ViewStyle.returns_of_finite own.lengths) fun written read => ?_
  have spans : scheme.resolver.Spans most (extentOf anchors insets).width := fun cells =>
    (inCharacters_extentOf room fits cells).width_countsTo short
  obtain ⟨width, margins, paddings⟩ := ViewStyle.spacing_of_finite own.lengths read
  have taken : scheme.resolver.TakesWidth written.width (extentOf anchors insets).width := by
    rw [width]
    exact Resolver.takesWidth_of_spans own.width spans
  refine .withResolved ((Resolver.returns_box_iff written).2
    ⟨taken, fun _ => margins, fun _ => paddings⟩) fun look resolved => ?_
  have plain (cells : scheme.resolver.target = .cells) : look.InCharacters most :=
    Resolver.inCharacters_of_box cells short (spans cells) resolved
  exact finishes_boxed short plain room fits fun inner anchors => inside written look inner anchors plain

end Parts

mutual

/-- An element of finite numbers, and finite ones in it, is laid out to its end. -/
theorem finishes_node (short : most < 2 ^ 53) {insets : List (Float × Float)}
    (room : scheme.FitsInsets most insets) (path : String) (inherited : Option Alignment)
    {anchors : Anchors Float} (fits : scheme.FitsAnchors most anchors) :
    ∀ {node : Node}, (∀ inner ∈ node.preorder, scheme.Resolves most inner) →
      scheme.Finishes most (scheme.node insets path inherited anchors node)
  | ⟨type, props, style, children⟩, all => by
    have own := all _ (Node.mem_preorder_self _)
    have below : ∀ inner ∈ Node.preorderOfAll children, scheme.Resolves most inner := by
      rw [Node.preorder, List.forall_mem_cons] at all
      exact all.2
    cases known : scheme.naming.kind? type with
    | none =>
      rw [node_unknown insets path inherited anchors props style children known]
      exact finishes_nodes short room path 0 inherited fits below
    | some kind =>
      cases kind with
      | document =>
        rw [node_document insets path inherited anchors props style children known]
        exact .andThen (.step fits trivial) fun _ fits => finishes_pages short room path 0 fits below
      | page =>
        rw [node_page insets path inherited anchors props style children known]
        refine .andThen (finishes_beginPage own.pageSize fits) fun anchors fits => ?_
        refine finishes_container short own room fits (fun _ _ => scheme.pageContent path children)
          fun _ _ inner anchors _ room fits => ?_
        refine finishes_nodes short room path 0 none (fun cells => ?_) below
        have box := inCharacters_extentOf room fits cells
        refine ⟨(fits cells).pageWidth, fun edges same => ?_, fun _ none => ?_⟩
        · obtain rfl := Option.some.inj same
          exact ⟨box.left_eq, box.right_countsTo short⟩
        · cases none
      | view =>
        rw [node_view insets path inherited anchors props style children known]
        refine finishes_container short own room fits
          (fun written look => scheme.viewContent path inherited written look children)
          fun written look inner anchors plain room fits => ?_
        unfold viewContent
        dsimp only
        split
        · exact finishes_emptyView fits
        · split
          · exact finishes_row below room fits
          · refine .restoringFrame (finishes_nodes short room path 0 _ (fun cells => ?_) below)
              fun cells => (fits cells).frame
            exact ⟨(fits cells).pageWidth, (fits cells).pageBox, (plain cells).width⟩
      | text | run =>
        rw [node]
        simp only [known]
        exact finishes_textual own.lengths (returns_written all) room fits
      | image =>
        rw [node]
        simp only [known]
        exact finishes_picture short own.lengths (own.payload known) (own.symbol known) fits

theorem finishes_nodes (short : most < 2 ^ 53) {insets : List (Float × Float)}
    (room : scheme.FitsInsets most insets) (path : String) (index : Nat)
    (inherited : Option Alignment) {anchors : Anchors Float}
    (fits : scheme.FitsAnchors most anchors) :
    ∀ {children : List Node}, (∀ inner ∈ Node.preorderOfAll children, scheme.Resolves most inner) →
      scheme.Finishes most (scheme.nodes insets path index inherited anchors children)
  | [], _ => by
    rw [nodes]
    exact .done fits
  | child :: rest, all => by
    rw [Node.preorderOfAll, List.forall_mem_append] at all
    rw [nodes_cons]
    exact .andThen (finishes_node short room _ inherited fits all.1) fun _ fits =>
      finishes_nodes short room path (index + 1) inherited fits all.2

theorem finishes_pages (short : most < 2 ^ 53) {insets : List (Float × Float)}
    (room : scheme.FitsInsets most insets) (path : String) (index : Nat)
    {anchors : Anchors Float} (fits : scheme.FitsAnchors most anchors) :
    ∀ {children : List Node}, (∀ inner ∈ Node.preorderOfAll children, scheme.Resolves most inner) →
      scheme.Finishes most (scheme.pages insets path index anchors children)
  | [], _ => by
    rw [pages]
    exact .done fits
  | child :: rest, all => by
    rw [Node.preorderOfAll, List.forall_mem_append] at all
    rw [pages_cons]
    split
    · exact .andThen (finishes_node short room _ none fits all.1) fun _ fits =>
        finishes_pages short room path (index + 1) fits all.2
    · exact finishes_pages short room path (index + 1) fits all.2

end

end Scheme

end Receipt
