import Receipt.Proofs.PageStyles
import Receipt.Proofs.Resolvable

/-!
# Style resolution, from loose values to looks

A field is of no use when whatever reads it finds nothing in its value (`Unusable`), and then it might as
well be missing: texts and containers look the same without it (`Resolver.textLook_of_sameUse`,
`Resolver.boxLook_of_sameUse`), and so are the widths of cells shared out (`Resolver.widths_of_noWidth`).

`Resolver.returns_resolution_iff` puts this beside the conditions under which each stage comes to a value.
They are not always met: `Resolver.not_returns_resolution` has styles and rows of cells that stop it.
-/

namespace Receipt

open Outcome

/-! ## Values of no use -/

/-- A width that is missing, or neither a percentage nor a length, and can be written out. -/
def NoWidth (value : Value) : Prop :=
  isWidth value = true → (Percentage.ofValue? value : Option Float) = none ∧
    (Length.ofValue value : Except NumberFault (Option Float)) = .ok none ∧ value.isWritten = true

instance (value : Value) : Decidable (NoWidth value) :=
  inferInstanceAs (Decidable (isWidth value = true → _))

namespace Fields

/-- The fields that are read as lengths. -/
def lengths : List String := "fontSize" :: viewLengths

end Fields

/-- Whatever reads the field of this name finds nothing in the value. -/
structure Unusable (name : String) (value : Value) : Prop where
  length : name ∈ Fields.lengths →
    (Length.ofValue value : Except NumberFault (Option Float)) = .ok none
  width : name = "width" → NoWidth value
  weight : name = "fontWeight" → isBoldWeight value = false
  family : name = "fontFamily" → value.isTextOf "Helvetica-Bold" = false
  align : name = "textAlign" → Alignment.ofValue? value = none
  items : name = "alignItems" → Alignment.ofItems? value = none
  border : name ∈ ["borderTop", "borderBottom"] →
    (Border.described? value).bind Border.ofText? = none

instance (name : String) (value : Value) : Decidable (Unusable name value) :=
  decidable_of_iff
    ((name ∈ Fields.lengths → (Length.ofValue value : Except NumberFault (Option Float)) = .ok none) ∧
      (name = "width" → NoWidth value) ∧ (name = "fontWeight" → isBoldWeight value = false) ∧
      (name = "fontFamily" → value.isTextOf "Helvetica-Bold" = false) ∧
      (name = "textAlign" → Alignment.ofValue? value = none) ∧
      (name = "alignItems" → Alignment.ofItems? value = none) ∧
      (name ∈ ["borderTop", "borderBottom"] →
        (Border.described? value).bind Border.ofText? = none))
    ⟨fun ⟨length, width, weight, family, align, items, border⟩ =>
        ⟨length, width, weight, family, align, items, border⟩,
      fun ⟨length, width, weight, family, align, items, border⟩ =>
        ⟨length, width, weight, family, align, items, border⟩⟩

/-- There is nothing in a value that is not there. -/
theorem unusable_null (name : String) : Unusable name .null where
  length _ := rfl
  width _ := nofun
  weight _ := rfl
  family _ := rfl
  align _ := rfl
  items _ := rfl
  border _ := rfl

namespace Fields

/-- Two styles that differ in nothing but values of no use. -/
def SameUse (first second : Fields) : Prop :=
  ∀ name, first.get name = second.get name ∨
    Unusable name (first.get name) ∧ Unusable name (second.get name)

theorem get_without {names : List String} {name : String} (listed : name ∈ names) (fields : Fields) :
    (fields.without names).get name = .null := by
  have dropped : (fields.without names).get? name = none := by
    refine List.lookup_eq_none_iff.2 fun field kept => ?_
    have other : field.1 ∉ names := of_decide_eq_true (List.mem_filter.1 kept).2
    exact bne_iff_ne.2 fun same => other (same ▸ listed)
  unfold Fields.get
  rw [dropped]
  rfl

theorem sameUse_without {names : List String} {style : Fields}
    (unusable : ∀ name ∈ names, Unusable name (style.get name)) :
    (style.without names).SameUse style := by
  intro name
  by_cases listed : name ∈ names
  · rw [get_without listed]
    exact .inr ⟨unusable_null name, unusable name listed⟩
  · refine .inl ?_
    unfold Fields.get
    rw [get?_without listed]

namespace SameUse

variable {first second : Fields} {name : String}

/-- What a reader finds is the same when it finds nothing in values of no use. -/
theorem read_eq {β : Type} (same : first.SameUse second) (reader : Value → β) {nothing : β}
    (reads : ∀ value, Unusable name value → reader value = nothing) :
    reader (first.get name) = reader (second.get name) := by
  rcases same name with equal | ⟨own, other⟩
  · rw [equal]
  · rw [reads _ own, reads _ other]

theorem length_eq (same : first.SameUse second) (listed : name ∈ lengths) :
    (Length.ofValue (first.get name) : Except NumberFault (Option Float)) =
      Length.ofValue (second.get name) :=
  same.read_eq Length.ofValue fun _ unusable => unusable.length listed

theorem edge_eq (same : first.SameUse second) (listed : name ∈ lengths) (all : Option Float) :
    edgeLength first name all = edgeLength second name all := by
  unfold edgeLength
  rw [same.length_eq listed]

end SameUse

end Fields

/-! ## Looks -/

/-- No width is resolved to none. -/
theorem Resolver.width_of_noWidth (resolver : Resolver Float) {value : Value}
    (noWidth : NoWidth value) (outer : Float) : resolver.width value outer = .ok none := by
  unfold width
  split
  · next given =>
    obtain ⟨share, length, short⟩ := noWidth given
    have logged : value.written = .ok value.printed := if_pos short
    unfold statedWidth
    rw [share, length]
    show (Except.map _ value.written >>= _) = _
    rw [logged]
    rfl
  · rfl

/-- Two styles of texts that come to the same look. -/
structure TextStyle.SameLook (first second : TextStyle Float) : Prop where
  fontSize : first.fontSize = second.fontSize
  bold : first.isBold = second.isBold
  align : Alignment.ofValue? first.align = Alignment.ofValue? second.align
  paddingLeft : first.paddingLeft = second.paddingLeft
  paddingRight : first.paddingRight = second.paddingRight

/-- Two styles of containers that come to the same look. -/
structure ViewStyle.SameLook (first second : ViewStyle Float) : Prop where
  items : Alignment.ofItems? first.items = Alignment.ofItems? second.items
  paddingTop : first.paddingTop = second.paddingTop
  paddingRight : first.paddingRight = second.paddingRight
  paddingBottom : first.paddingBottom = second.paddingBottom
  paddingLeft : first.paddingLeft = second.paddingLeft
  marginTop : first.marginTop = second.marginTop
  marginRight : first.marginRight = second.marginRight
  marginBottom : first.marginBottom = second.marginBottom
  marginLeft : first.marginLeft = second.marginLeft
  borderTop : first.borderTop.bind Border.ofText? = second.borderTop.bind Border.ofText?
  borderBottom : first.borderBottom.bind Border.ofText? = second.borderBottom.bind Border.ofText?
  width (resolver : Resolver Float) (outer : Float) :
    resolver.width first.width outer = resolver.width second.width outer

namespace Fields.SameUse

variable {first second : Fields}

theorem alike_textStyle (same : first.SameUse second) :
    Outcome.Alike TextStyle.SameLook (TextStyle.ofFields first) (TextStyle.ofFields second) := by
  refine .bind_of_eq (same.length_eq (by decide)) fun padding => ?_
  refine .bind_of_eq (same.length_eq (by decide)) fun fontSize => ?_
  refine .bind_of_eq (same.edge_eq (by decide) padding) fun left => ?_
  refine .bind_of_eq (same.edge_eq (by decide) padding) fun right => ?_
  have weight : isBoldWeight (first.get "fontWeight") = isBoldWeight (second.get "fontWeight") :=
    same.read_eq isBoldWeight fun _ unusable => unusable.weight rfl
  have family : (first.get "fontFamily").isTextOf "Helvetica-Bold" =
      (second.get "fontFamily").isTextOf "Helvetica-Bold" :=
    same.read_eq (·.isTextOf "Helvetica-Bold") fun _ unusable => unusable.family rfl
  exact .ok ⟨rfl, congrArg₂ _ weight family, same.read_eq _ fun _ unusable => unusable.align rfl,
    rfl, rfl⟩

theorem alike_viewStyle (same : first.SameUse second) :
    Outcome.Alike ViewStyle.SameLook (ViewStyle.ofFields first) (ViewStyle.ofFields second) := by
  refine .bind_of_eq (same.length_eq (by decide)) fun padding => ?_
  refine .bind_of_eq (same.length_eq (by decide)) fun margin => ?_
  refine .bind_of_eq (same.edge_eq (by decide) padding) fun paddingTop => ?_
  refine .bind_of_eq (same.edge_eq (by decide) padding) fun paddingRight => ?_
  refine .bind_of_eq (same.edge_eq (by decide) padding) fun paddingBottom => ?_
  refine .bind_of_eq (same.edge_eq (by decide) padding) fun paddingLeft => ?_
  refine .bind_of_eq (same.edge_eq (by decide) margin) fun marginTop => ?_
  refine .bind_of_eq (same.edge_eq (by decide) margin) fun marginRight => ?_
  refine .bind_of_eq (same.edge_eq (by decide) margin) fun marginBottom => ?_
  refine .bind_of_eq (same.edge_eq (by decide) margin) fun marginLeft => ?_
  refine .bind_of_eq (same.length_eq (by decide)) fun height => ?_
  have border {name : String} (listed : name ∈ ["borderTop", "borderBottom"]) :
      (Border.described? (first.get name)).bind Border.ofText? =
        (Border.described? (second.get name)).bind Border.ofText? :=
    same.read_eq (fun value => (Border.described? value).bind Border.ofText?)
      fun _ unusable => unusable.border listed
  refine .ok ⟨?_, rfl, rfl, rfl, rfl, rfl, rfl, rfl, rfl, border (by decide), border (by decide), ?_⟩
  · exact same.read_eq Alignment.ofItems? fun _ unusable => unusable.items rfl
  · intro resolver outer
    exact same.read_eq (fun value => resolver.width value outer)
      fun _ unusable => resolver.width_of_noWidth (unusable.width rfl) outer

end Fields.SameUse

namespace Resolver

variable (resolver : Resolver Float)

/-- The look of a text with a loose style. -/
def textLook (style : Fields) (inherited : Option Alignment) :
    Except NumberFault (TextLook Float) := do
  let text ← TextStyle.ofFields style
  return resolver.text text inherited

/-- The look of a container with a loose style. -/
def boxLook (style : Fields) (outer : Float) : Except NumberFault (BoxLook Float) := do
  let view ← ViewStyle.ofFields style
  resolver.box view outer

variable {first second : Fields}

theorem textLook_of_sameUse (same : first.SameUse second) (inherited : Option Alignment) :
    resolver.textLook first inherited = resolver.textLook second inherited := by
  refine same.alike_textStyle.bind_eq fun style other look => ?_
  unfold text resolveAlignment
  rw [look.fontSize, look.bold, look.align, look.paddingLeft, look.paddingRight]

theorem boxLook_of_sameUse (same : first.SameUse second) (outer : Float) :
    resolver.boxLook first outer = resolver.boxLook second outer := by
  refine same.alike_viewStyle.bind_eq fun style other look => ?_
  unfold box
  rw [look.width, look.items, look.marginTop, look.marginRight, look.marginBottom, look.marginLeft,
    look.paddingTop, look.paddingRight, look.paddingBottom, look.paddingLeft, look.borderTop,
    look.borderBottom]

/-- Cells whose widths are of no use get what cells without one get. -/
theorem widths_of_noWidth {stated others : List Value}
    (same : List.Forall₂ (fun width other => other = width ∨ NoWidth width ∧ other = .null)
      stated others) (total : Float) : resolver.widths others total = resolver.widths stated total := by
  have each : (others.mapM fun width => resolver.width width total) =
      stated.mapM fun width => resolver.width width total := by
    induction same with
    | nil => rfl
    | cons first rest ih =>
      rw [List.mapM_cons, List.mapM_cons, ih]
      rcases first with rfl | ⟨noWidth, rfl⟩
      · rfl
      · have null : NoWidth .null := (unusable_null "width").width rfl
        rw [resolver.width_of_noWidth noWidth, resolver.width_of_noWidth null]
  unfold widths
  rw [each]

/-- Texts and containers of every style and rows of every widths are resolved, short of numbers out of
range and of widths too long to be written out, and what is of no use in them might as well be
missing. -/
theorem returns_resolution_iff {outer : Float} (extent : IsExtent outer) (style : Fields)
    (stated : List Value) :
    (Returns (TextStyle.ofFields style : Except NumberFault (TextStyle Float)) ↔
      style.InRange Fields.textLengths) ∧
    (∀ inherited, Returns (resolver.textLook style inherited) ↔ style.InRange Fields.textLengths) ∧
    (Returns (ViewStyle.ofFields style : Except NumberFault (ViewStyle Float)) ↔
      style.InRange Fields.viewLengths) ∧
    (∀ view : ViewStyle Float, Returns (resolver.box view outer) ↔
      resolver.TakesWidth view.width outer ∧
        resolver.TakesSpacing view.marginTop view.marginBottom ∧
          resolver.TakesSpacing view.paddingTop view.paddingBottom) ∧
    (Returns (resolver.widths stated outer) ↔
      ∀ width ∈ stated, resolver.TakesWidth width outer) ∧
    (∀ names, (∀ name ∈ names, Unusable name (style.get name)) →
      (∀ inherited, resolver.textLook (style.without names) inherited =
        resolver.textLook style inherited) ∧
      resolver.boxLook (style.without names) outer = resolver.boxLook style outer) ∧
    ∀ others, List.Forall₂ (fun width other => other = width ∨ NoWidth width ∧ other = .null)
      stated others → resolver.widths others outer = resolver.widths stated outer := by
  have text := TextStyle.returns_ofFields_iff style
  refine ⟨text, fun inherited => ?_, ViewStyle.returns_ofFields_iff style, returns_box_iff,
    returns_widths_iff (fun _ => extent) stated, fun names unusable => ?_, fun others same =>
      resolver.widths_of_noWidth same outer⟩
  · rw [← text]
    exact returns_bind_iff_left fun _ _ => returns_ok _
  · have same := Fields.sameUse_without unusable
    exact ⟨resolver.textLook_of_sameUse same, resolver.boxLook_of_sameUse same outer⟩

end Resolver

/-- A receipt printer of plain characters. -/
def plainPrinter : Resolver Float := ⟨.cells, .normal, 10⟩

/-- A container with a padding and a width that cannot be read, and a margin of no end. -/
def looseStyle : Fields :=
  [("padding", .text "wide"), ("width", .list [.int 12]), ("paddingTop", .text "45px"),
    ("alignItems", .bool true), ("marginTop", .float (-1.0 / 0.0))]

/-- A cell of a quarter of the line, one of a width that cannot be read and one of no width. -/
def looseWidths : List Value := [.text "25%", .text "2em", .null]

theorem Resolver.returns_resolution_looseStyle :
    IsExtent 48 ∧ (∀ width ∈ looseWidths, plainPrinter.TakesWidth width 48) ∧
      plainPrinter.boxLook (looseStyle.without ["padding", "width", "alignItems"]) 48 =
        plainPrinter.boxLook looseStyle 48 ∧
      plainPrinter.widths [.text "25%", .null, .null] 48 = plainPrinter.widths looseWidths 48 := by
  have extent : IsExtent 48 := ⟨by decide +kernel, by decide +kernel⟩
  obtain ⟨-, -, -, -, widths, absent, noWidth⟩ :=
    Resolver.returns_resolution_iff plainPrinter extent looseStyle looseWidths
  have unusable : ∀ name ∈ ["padding", "width", "alignItems"],
      Unusable name (looseStyle.get name) := by decide +kernel
  refine ⟨extent, widths.1 ⟨_, rfl⟩, (absent _ unusable).2, noWidth _ ?_⟩
  exact .cons (.inl rfl) (.cons (.inr ⟨by decide +kernel, rfl⟩) (.cons (.inl rfl) .nil))

/-- A width that is a list stops a row, for whatever target, when a number in it is too long. -/
theorem Resolver.not_returns_widths_of_long (resolver : Resolver Float) {outer : Float}
    (extent : IsExtent outer) {number : Int} (long : isShort number = false) :
    ¬ Returns (resolver.widths [.list [.int number]] outer) := by
  have unlogged : Value.isLoggable (.list [.int number]) = false := by
    simp [Value.isLoggable, Value.isWritten, Value.areWritten, long]
  rw [returns_widths_iff fun _ => extent]
  intro taken
  obtain ⟨_, logged, _⟩ := taken _ (List.mem_singleton.2 rfl) rfl
  rw [unlogged] at logged
  cases logged

/-- Numbers out of range are not taken for missing ones: an infinite share of the line stops a row, a
whole number beyond the largest float a text, and a padding that is no number a container. Nor is a
list with a number of 4301 digits, which stops a row for both targets. -/
theorem Resolver.not_returns_resolution :
    IsExtent 48 ∧ ¬ Returns (plainPrinter.widths [.text "inf%"] 48) ∧
      (∀ target, ¬ Returns
        ((⟨target, .normal, 10⟩ : Resolver Float).widths [.list [.int (pow10 4300 : Nat)]] 48)) ∧
      ¬ Returns (TextStyle.ofFields [("fontSize", .int (2 ^ 1024))] :
        Except NumberFault (TextStyle Float)) ∧
      ¬ Returns (plainPrinter.boxLook [("paddingTop", .float (0.0 / 0.0))] 48) := by
  have share : plainPrinter.widths [.text "inf%"] 48 = .error .infinite := rfl
  have spacing : plainPrinter.boxLook [("paddingTop", .float (0.0 / 0.0))] 48 =
      .error .notANumber := rfl
  have extent : IsExtent 48 := ⟨by decide +kernel, by decide +kernel⟩
  have long : isShort (pow10 4300 : Nat) = false := by decide +kernel
  refine ⟨extent, ?_, fun target => not_returns_widths_of_long _ extent long, ?_, ?_⟩
  · rw [share]
    exact not_returns_error _
  · exact (TextStyle.returns_ofFields_iff _).not.2 (by decide +kernel)
  · rw [spacing]
    exact not_returns_error _

end Receipt
