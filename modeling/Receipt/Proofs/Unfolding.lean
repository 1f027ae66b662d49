import Receipt.Proofs.Checking

/-!
# Unfolding gives the tree of a graph of mappings

Mappings may share entries as elements may, and `Value.unfold` follows the references. `Unfolds` is
the relation between an entry and the element that it stands for: a text or a number stands for a run
of text, a mapping for an element with the elements of its children, in the same order.

`unfold_decides`: a graph of mappings is unfolded exactly when every entry within reach describes an
element and none encloses itself, and what it is unfolded to passes every check of `Value.toNode`. Where
every entry describes an element and one encloses itself, the first one in document order that is met
inside itself is reported. Two entries stop the unfolding without being reported as flaws: a whole
number too long to be written out, and props that count neither as absent nor as given
(`unfold_not_flawed`).
-/

namespace Receipt

/-! ## Graphs of mappings -/

namespace Value

/-- The items of a list. -/
def listed : Value → List Value
  | list items => items
  | _ => []

/-- The children that a mapping names. -/
def mappedChildren : Value → List Value
  | mapping fields => (Fields.get fields "children").listed
  | _ => []

/-- The type name that a mapping names, empty when there is none. -/
def mappedName : Value → String
  | mapping fields => (Fields.typeName? fields).getD ""
  | _ => ""

/-- Whether a value is a mapping or counts as absent. -/
def isMappingOrVacant (value : Value) : Bool :=
  !value.isUndecided && (value.isVacant || value.isMapping)

/-- Whether a value describes an element: a text, a number that can be written out, or a mapping with a
type name whose props are a mapping or absent and whose style is a mapping or null. -/
def describes : Value → Bool
  | text _ | float _ => true
  | int number => isShort number
  | mapping fields =>
    (Fields.typeName? fields).isSome && (Fields.get fields "props").isMappingOrVacant &&
      ((Fields.get fields "style").isNull || (Fields.get fields "style").isMapping)
  | _ => false

/-- Whether a value is a whole number that cannot be written out. -/
def isLong : Value → Bool
  | int number => !isShort number
  | _ => false

/-- Whether a value is a mapping with props that count neither as absent nor as given. -/
def hasUndecidedProps : Value → Bool
  | mapping fields => (Fields.get fields "props").isUndecided
  | _ => false

/-- Whether a fault may be met at a value: a flaw where no element is described, and the others at
numbers that cannot be written out and at props that count neither as absent nor as given. -/
def mayMeet (value : Value) : TreeFault → Bool
  | .flawed _ _ => !value.describes
  | .tooLong => value.isLong
  | .undecided => value.hasUndecidedProps
  | .unlistable | .nothingOpen => false

/-- A fault is only met where no element is described. -/
theorem describes_of_mayMeet {value : Value} {fault : TreeFault} (met : value.mayMeet fault = true) :
    value.describes = false := by
  cases fault with
  | flawed path flaw => simpa [mayMeet] using met
  | tooLong =>
    cases value with
    | int number => simpa [mayMeet, isLong, describes] using met
    | _ => cases met
  | undecided =>
    cases value with
    | mapping fields =>
      have undecided : (Fields.get fields "props").isUndecided = true := met
      simp [describes, isMappingOrVacant, undecided]
    | _ => cases met
  | unlistable | nothingOpen => cases met

mutual

/-- Whether a value holds no element, its references lead into a table with so many values, and the
children of each of its mappings are a list, null or missing. -/
def isData (count : Nat) : Value → Bool
  | element _ _ _ _ => false
  | shared index => index < count
  | mapping fields => hasDataChildren count fields
  | null | bool _ | int _ | float _ | text _ | bytes _ | picture _ | samples _ | member _
  | list _ => true

/-- Whether this holds of the children among the fields of a mapping. -/
def hasDataChildren (count : Nat) : List (String × Value) → Bool
  | [] => true
  | (name, value) :: fields =>
    if name == "children" then listsData count value else hasDataChildren count fields

/-- Whether a value is null or a list of such entries. -/
def listsData (count : Nat) : Value → Bool
  | null => true
  | list items => areData count items
  | _ => false

/-- Whether this holds of several entries. -/
def areData (count : Nat) : List Value → Bool
  | [] => true
  | entry :: entries => isData count entry && areData count entries

end

/-- An element that passes every check, and so do the elements under it. -/
inductive Plain : Value → Prop
  | element {type : String} {props : Fields} {style : Value} {children : List Value}
      (named : type.isEmpty = false) (styled : style.isNull || style.isMapping)
      (below : ∀ child ∈ children, Plain child) :
      Plain (.element (.text type) (.mapping props) style children)

/-- What props or their absence stand for: no props when they count as absent. -/
def PropsOf (given : Value) (props : Fields) : Prop :=
  given.isVacant ∧ props = [] ∨ given = mapping props

/-- What a style or its absence stands for: no style when it is null or empty. -/
def StyleOf (given style : Value) : Prop :=
  (given = null ∨ given = mapping []) ∧ style = null ∨
    ∃ field fields, given = mapping (field :: fields) ∧ style = given

end Value

/-- What an entry stands for. -/
inductive Unfolds (table : List Value) : Value → Value → Prop
  | text (content : String) : Unfolds table (.text content) (textRun content)
  | int (number : Int) : Unfolds table (.int number) (textRun (toString number))
  | float (number : Float) : Unfolds table (.float number) (textRun (numberText number))
  | mapping {fields : Fields} {type : String} {props : Fields} {style : Value}
      {children : List Value} (named : fields.typeName? = some type)
      (propped : (fields.get "props").PropsOf props) (styled : (fields.get "style").StyleOf style)
      (below : List.Forall₂ (Unfolds table) (fields.get "children").listed children) :
      Unfolds table (.mapping fields) (.element (.text type) (.mapping props) style children)
  | shared {index : Nat} {value unfolded : Value} (entry : table[index]? = some value)
      (own : Unfolds table value unfolded) : Unfolds table (.shared index) unfolded

namespace Value

theorem sizeOf_lt_of_mem_listed {value entry : Value} (member : entry ∈ value.listed) :
    sizeOf entry < sizeOf value := by
  cases value with
  | list items =>
    have part := List.sizeOf_lt_of_mem member
    simp only [listed, Value.list.sizeOf_spec] at part ⊢
    omega
  | _ => cases member

theorem sizeOf_get_le (fields : Fields) (name : String) :
    sizeOf (fields.get name) ≤ sizeOf fields := by
  induction fields with
  | nil => exact Nat.le_refl 1
  | cons field fields ih =>
    obtain ⟨other, value⟩ := field
    simp only [Fields.get, Fields.get?, List.lookup_cons, List.cons.sizeOf_spec,
      Prod.mk.sizeOf_spec] at ih ⊢
    cases name == other with
    | true =>
      show sizeOf value ≤ _
      omega
    | false => exact Nat.le_trans ih (by omega)

theorem sizeOf_lt_of_mem_mappedChildren {value entry : Value}
    (member : entry ∈ value.mappedChildren) : sizeOf entry < sizeOf value := by
  cases value with
  | mapping fields =>
    have part := sizeOf_lt_of_mem_listed member
    have inside := sizeOf_get_le fields "children"
    simp only [Value.mapping.sizeOf_spec]
    omega
  | _ => cases member

end Value

namespace Graph

/-- The graph of mappings. -/
def ofMappings (table : List Value) : Graph where
  table := table
  typeName := Value.mappedName
  entries := Value.mappedChildren
  smaller _ _ member := Value.sizeOf_lt_of_mem_mappedChildren member

/-- A visit of what describes no element. -/
def Undescribed (graph : Graph) (visit : Visit) : Prop :=
  (graph.value visit.entry).describes = false

/-- A visit of what a fault may be met at. -/
def MayMeet (graph : Graph) (fault : TreeFault) (visit : Visit) : Prop :=
  (graph.value visit.entry).mayMeet fault = true

/-- Every entry within reach of a root describes an element. -/
def Described (graph : Graph) (root : Value) : Prop :=
  ∀ entry, graph.Reaches root entry → (graph.value entry).describes

/-- A visit that cannot be unfolded: it describes no element, or is met inside itself. -/
def Spoilt (graph : Graph) (visit : Visit) : Prop := graph.Undescribed visit ∨ visit.Reenters

end Graph

/-- A table of mappings and a root that make a graph without elements. -/
structure IsMappingGraph (table : List Value) (root : Value) : Prop where
  values : ∀ value ∈ table, value.isData table.length ∧ value.isMapping
  root : root.isData table.length

/-! ## What is unfolded passes every check -/

namespace Value

variable {follow : Opened → Place → Nat → Walked (Option Node)}

/-- Elements that pass every check one by one are walked together. -/
theorem walkAll_of_each {items : List Value}
    (each : ∀ item ∈ items, ∀ (opened : Opened) (place : Place),
      ∃ node, walk follow opened none place item = .ok (some node, opened))
    (opened : Opened) (path : String) (number : Nat) :
    ∃ nodes, walkAll follow opened path number items = .ok (nodes, opened) := by
  induction items generalizing number with
  | nil => exact ⟨[], rfl⟩
  | cons item items ih =>
    obtain ⟨node, walked⟩ := each item (List.mem_cons_self ..) opened ⟨path, number⟩
    obtain ⟨nodes, rest⟩ :=
      ih (fun later member => each later (List.mem_cons_of_mem _ member)) (number + 1)
    rw [walkAll, walked]
    simp only
    rw [rest]
    exact ⟨_, rfl⟩

/-- A plain element is walked to its end, whatever is open. -/
theorem walk_of_plain {value : Value} (plain : Plain value) (opened : Opened) (place : Place) :
    ∃ node, walk follow opened none place value = .ok (some node, opened) := by
  induction plain generalizing opened place with
  | @element type props style children named styled _ ih =>
    have parts : ∃ own, checkParts place false (.text type) (.mapping props) style =
        .ok (type, props, own) := by
      rw [checkParts_text place false named]
      cases style with
      | null => exact ⟨none, rfl⟩
      | mapping own => exact ⟨some own, rfl⟩
      | _ => cases styled
    obtain ⟨own, said⟩ := parts
    obtain ⟨nodes, walked⟩ := walkAll_of_each ih (none :: opened)
      (childPath place.parent type place.index) 0
    rw [walk]
    have closed : opened.holds none = false := rfl
    rw [closed, said]
    simp only
    rw [walked]
    exact ⟨_, rfl⟩

/-- A plain element is the tree that it looks like. -/
theorem toNode_of_plain {value : Value} (plain : Plain value) :
    ∃ node, value.toNode [] = .ok node := by
  obtain ⟨node, walked⟩ := walk_of_plain plain [] .root
  refine ⟨node, ?_⟩
  unfold toNode
  rw [walked]

theorem plain_textRun (content : String) : Plain (textRun content) :=
  .element rfl rfl (by simp)

end Value

/-! ## What a single mapping is unfolded to -/

namespace Fields

theorem get_children_cons (name : String) (value : Value) (fields : Fields) :
    Fields.get ((name, value) :: fields) "children" =
      if name == "children" then value else fields.get "children" := by
  unfold get get?
  by_cases same : name = "children"
  · rw [same, List.lookup_cons_self]
    rfl
  · have other : ("children" == name) = false := beq_false_of_ne (Ne.symm same)
    rw [if_neg (by simpa using same), List.lookup_cons, other]

theorem isEmpty_of_typeName? {fields : Fields} {type : String}
    (named : fields.typeName? = some type) : type.isEmpty = false := by
  unfold typeName? at named
  split at named
  · split at named
    · cases named
    · rename_i full
      obtain rfl := Option.some.inj named
      simpa using full
  · cases named

/-- A mapping whose props and style are what they may be becomes an element. -/
theorem toElement_of_described {fields : Fields} {type path : String} {children : List Value}
    (propped : (fields.get "props").isMappingOrVacant)
    (styled : (fields.get "style").isNull || (fields.get "style").isMapping) :
    ∃ props style, fields.toElement type path children =
        .ok (.element (.text type) (.mapping props) style children) ∧
      (fields.get "props").PropsOf props ∧ (fields.get "style").StyleOf style ∧
      (style.isNull || style.isMapping) = true := by
  rw [Value.isMappingOrVacant, Bool.and_eq_true, Bool.not_eq_true', Bool.or_eq_true] at propped
  obtain ⟨decided, propped⟩ := propped
  have given : ∃ props, (if (fields.get "props").isVacant then .mapping [] else fields.get "props") =
      .mapping props ∧ (fields.get "props").PropsOf props := by
    by_cases vacant : (fields.get "props").isVacant
    · exact ⟨[], if_pos vacant, Or.inl ⟨vacant, rfl⟩⟩
    · obtain ⟨props, same⟩ := Value.isMapping_iff.1 (propped.resolve_left vacant)
      exact ⟨props, (if_neg vacant).trans same, Or.inr same⟩
  obtain ⟨props, given, own⟩ := given
  unfold toElement
  simp only
  rw [decided, given, if_neg Bool.false_ne_true]
  simp only
  cases style : fields.get "style" with
  | null => exact ⟨props, .null, rfl, own, Or.inl ⟨Or.inl rfl, rfl⟩, rfl⟩
  | mapping written =>
    cases written with
    | nil => exact ⟨props, .null, rfl, own, Or.inl ⟨Or.inr rfl, rfl⟩, rfl⟩
    | cons field rest => exact ⟨props, _, rfl, own, Or.inr ⟨field, rest, rfl, rfl⟩, rfl⟩
  | _ =>
    rw [style] at styled
    cases styled

/-- Otherwise its path is named, or its props are undecided. -/
theorem toElement_of_loose {fields : Fields} (type path : String) (children : List Value)
    (loose : (fields.get "props").isMappingOrVacant = false ∨
      ((fields.get "style").isNull || (fields.get "style").isMapping) = false) :
    (fields.get "props").isUndecided = true ∧
        fields.toElement type path children = .error .undecided ∨
      ∃ flaw, fields.toElement type path children = .error (.flawed path flaw) := by
  unfold toElement
  simp only
  cases decided : (fields.get "props").isUndecided with
  | true => exact Or.inl ⟨rfl, rfl⟩
  | false =>
    refine Or.inr ?_
    rw [if_neg Bool.false_ne_true]
    rw [Value.isMappingOrVacant, decided, Bool.not_false, Bool.true_and, Bool.or_eq_false_iff] at loose
    split
    · next props given =>
      have styled := loose.resolve_left fun ⟨vacant, unmapped⟩ => by
        rw [if_neg (by rw [vacant]; exact Bool.false_ne_true)] at given
        rw [given] at unmapped
        cases unmapped
      cases style : fields.get "style" with
      | null | mapping _ =>
        rw [style] at styled
        cases styled
      | _ => exact ⟨.looseStyle, rfl⟩
    · exact ⟨.looseProps, rfl⟩

end Fields

/-! ## The walk -/

namespace Value

open Receipt.Graph

/-- Unfolding an entry gives what it stands for when nothing below it is spoilt. Or it ends where the
first entry in document order is met inside itself; or it ends at a fault that may be met at something
below it. -/
def Unfolded (table : List Value) (visit : Visit) (outcome : Except TreeFault Value) : Prop :=
  (∃ value, outcome = .ok value ∧ Unfolds table visit.entry value ∧ Plain value ∧
      (ofMappings table).Clear (ofMappings table).Spoilt visit) ∨
    (∃ found, (ofMappings table).First Visit.Reenters visit found ∧
      outcome = .error (.flawed ((ofMappings table).path found) .cycle)) ∨
    ∃ fault, ¬ (ofMappings table).Clear ((ofMappings table).MayMeet fault) visit ∧
      outcome = .error fault

/-- The same of the children of an entry, from a number on. -/
def UnfoldedFrom (table : List Value) (visit : Visit) (number : Nat)
    (outcome : Except TreeFault (List Value)) : Prop :=
  (∃ values, outcome = .ok values ∧
      List.Forall₂ (Unfolds table)
        (((ofMappings table).entries ((ofMappings table).value visit.entry)).drop number) values ∧
      (∀ value ∈ values, Plain value) ∧
      (ofMappings table).ClearFrom (ofMappings table).Spoilt visit number) ∨
    (∃ found, (ofMappings table).FirstFrom Visit.Reenters visit number found ∧
      outcome = .error (.flawed ((ofMappings table).path found) .cycle)) ∨
    ∃ fault, ¬ (ofMappings table).ClearFrom ((ofMappings table).MayMeet fault) visit number ∧
      outcome = .error fault

variable {table : List Value} {fuel : Nat} {follow : Follow}

/-- An entry stands for what its value stands for. -/
theorem unfolds_of_value {entry unfolded : Value}
    (own : Unfolds table ((ofMappings table).value entry) unfolded) :
    Unfolds table entry unfolded := by
  cases entry with
  | shared index =>
    unfold Graph.value at own
    cases found : table[index]? with
    | none =>
      simp only [ofMappings, found, Option.getD_none] at own
      cases own
    | some value =>
      simp only [ofMappings, found, Option.getD_some] at own
      exact .shared found own
  | _ => exact own

/-- What is neither a mapping nor a reference is unfolded to a run of text, or named as a flaw. -/
theorem unfolded_scalar {visit : Visit} {content : String}
    (here : ((ofMappings table).value visit.entry).describes = true)
    (single : ((ofMappings table).value visit.entry).mappedChildren = [])
    (fresh : ¬ visit.Reenters)
    (own : Unfolds table ((ofMappings table).value visit.entry) (textRun content)) :
    Unfolded table visit (.ok (textRun content)) := by
  refine Or.inl ⟨_, rfl, unfolds_of_value own, plain_textRun content, ?_⟩
  refine clear_of_children ?_ (clearFrom_of_length_le ?_)
  · rintro (undescribed | again)
    · rw [Undescribed, here] at undescribed
      cases undescribed
    · exact fresh again
  · show (((ofMappings table).value visit.entry).mappedChildren).length ≤ 0
    rw [single]
    exact Nat.le_refl 0

/-- What a fault may be met at ends with it. -/
theorem unfolded_fault {visit : Visit} {outcome : Except TreeFault Value} {fault : TreeFault}
    (here : ((ofMappings table).value visit.entry).mayMeet fault = true)
    (said : outcome = .error fault) : Unfolded table visit outcome :=
  Or.inr (Or.inr ⟨fault, fun clear => clear [] visit rfl here, said⟩)

theorem any_identity {visit : Visit} :
    visit.identity.any (visit.around.contains ·) = true ↔ visit.Reenters := by
  unfold Visit.Reenters
  simp only [← Visit.identity_eq_some]
  cases visit.identity with
  | none => simp
  | some index => simp

/-- What becomes of a mapping with a type name whose children are unfolded. -/
theorem unfolded_toElement {visit : Visit} {fields : Fields} {type : String} {values : List Value}
    (here : (ofMappings table).value visit.entry = mapping fields)
    (named : fields.typeName? = some type) (fresh : ¬ visit.Reenters)
    (unfolds : List.Forall₂ (Unfolds table) (fields.get "children").listed values)
    (plain : ∀ value ∈ values, Plain value)
    (clear : (ofMappings table).ClearFrom (ofMappings table).Spoilt visit 0) :
    Unfolded table visit (fields.toElement type ((ofMappings table).path visit) values) := by
  by_cases loose : (fields.get "props").isMappingOrVacant = false ∨
      ((fields.get "style").isNull || (fields.get "style").isMapping) = false
  · rcases Fields.toElement_of_loose type ((ofMappings table).path visit) values loose with
      ⟨undecided, said⟩ | ⟨flaw, said⟩
    · refine unfolded_fault ?_ said
      rw [here]
      exact undecided
    · refine unfolded_fault ?_ said
      rw [here, mayMeet, describes]
      rcases loose with loose | loose
      · simp [loose]
      · simp [loose]
  obtain ⟨propped, styled⟩ := not_or.1 loose
  have propped := eq_true_of_ne_false propped
  have styled := eq_true_of_ne_false styled
  obtain ⟨props, style, made, propsOf, styleOf, checked⟩ :=
    Fields.toElement_of_described propped styled
  rw [made]
  refine Or.inl ⟨_, rfl, unfolds_of_value ?_, ?_, clear_of_children ?_ clear⟩
  · rw [here]
    exact .mapping named propsOf styleOf unfolds
  · exact .element (Fields.isEmpty_of_typeName? named) checked plain
  · rintro (undescribed | again)
    · rw [Undescribed, here, describes, named, propped, styled] at undescribed
      cases undescribed
    · exact fresh again

/-- What a mapping is unfolded to when its children are unfolded as they should be. -/
theorem unfolded_mapping {visit : Visit} {fields : Fields}
    (here : (ofMappings table).value visit.entry = mapping fields)
    (below : ¬ visit.Reenters → UnfoldedFrom table visit 0
      (unfoldField follow (aroundChildren visit) ((ofMappings table).path visit) fields)) :
    Unfolded table visit
      (unfoldEntry follow visit.around visit.identity visit.place (mapping fields)) := by
  have entries : (ofMappings table).entries ((ofMappings table).value visit.entry) =
      (fields.get "children").listed := by
    rw [here]
    rfl
  rw [unfoldEntry]
  cases named : fields.typeName? with
  | none =>
    refine unfolded_fault ?_ rfl
    rw [here]
    simp [mayMeet, describes, named]
  | some type =>
    have path : childPath visit.place.parent type visit.place.index =
        (ofMappings table).path visit := by
      unfold Graph.path
      rw [here]
      show _ = childPath _ (fields.typeName?.getD "") _
      rw [named]
      rfl
    simp only
    rw [path]
    by_cases again : visit.Reenters
    · rw [if_pos (any_identity.2 again)]
      exact Or.inr (Or.inl ⟨visit, first_self again, rfl⟩)
    rw [if_neg (fun held => again (any_identity.1 held))]
    have inside := below again
    unfold aroundChildren at inside
    rcases inside with ⟨values, made, unfolds, plain, clear⟩ | ⟨found, first, said⟩ |
      ⟨fault, unclear, said⟩
    · rw [entries, List.drop_zero] at unfolds
      rw [made]
      exact unfolded_toElement here named again unfolds plain clear
    · rw [said]
      exact Or.inr (Or.inl ⟨found, first_of_children again first, rfl⟩)
    · rw [said]
      exact Or.inr (Or.inr ⟨fault, fun clear => unclear (clear.clearFrom 0), rfl⟩)

/-- What following a reference does while there is room. -/
def Resolves (table : List Value) (fuel : Nat) (follow : Follow) : Prop :=
  ∀ active place index, Room table.length fuel active → index < table.length →
    Unfolded table ⟨.shared index, place, active⟩ (follow active place index)

/-- An entry is followed when it is a reference, and else unfolded as it is. -/
theorem unfolded_entry (followed : Resolves table fuel follow) {active : List Nat}
    (room : Room table.length fuel active) (place : Place) {entry : Value}
    (valid : entry.isData table.length)
    (own : entry.isShared = false →
      Unfolded table ⟨entry, place, active⟩ (unfoldEntry follow active none place entry)) :
    Unfolded table ⟨entry, place, active⟩ (unfoldEntry follow active none place entry) := by
  cases entry with
  | shared index =>
    rw [unfoldEntry]
    exact followed active place index room (by simpa [isData] using valid)
  | _ => exact own rfl

-- The induction is on the value that is unfolded; references are left to `followed`. Only mappings
-- are shared, so nothing else is met inside itself.
mutual

/-- Unfolding a value unfolds the visit that it is the value of. -/
theorem unfolded_unfoldEntry (followed : Resolves table fuel follow) :
    ∀ (value : Value) (visit : Visit),
      (ofMappings table).value visit.entry = value → value.isShared = false →
      value.isData table.length → (visit.Reenters → value.isMapping) →
      (¬ visit.Reenters → Room table.length fuel (aroundChildren visit)) →
      Unfolded table visit (unfoldEntry follow visit.around visit.identity visit.place value)
  | .mapping fields, visit => by
    intro here _ valid _ room
    refine unfolded_mapping here fun fresh => ?_
    exact unfolded_unfoldField followed fields visit (by rw [here]; rfl)
      (by simpa [isData] using valid) (room fresh)
  | .text content, visit => by
    intro here _ _ single _
    refine unfolded_scalar (by rw [here]; rfl) (by rw [here]; rfl) (fun again => ?_) ?_
    · cases single again
    · rw [here]
      exact .text content
  | .int number, visit => by
    intro here _ _ single _
    rw [unfoldEntry]
    cases short : isShort number with
    | true =>
      refine unfolded_scalar (by rw [here]; exact short) (by rw [here]; rfl) (fun again => ?_) ?_
      · cases single again
      · rw [here]
        exact .int number
    | false =>
      refine unfolded_fault ?_ rfl
      rw [here, mayMeet, isLong, short]
      rfl
  | .float number, visit => by
    intro here _ _ single _
    refine unfolded_scalar (by rw [here]; rfl) (by rw [here]; rfl) (fun again => ?_) ?_
    · cases single again
    · rw [here]
      exact .float number
  | .element _ _ _ _, _ => by
    intro _ _ valid
    cases valid
  | .shared _, _ => by
    intro _ own
    cases own
  | .null, _ | .bool _, _ | .bytes _, _ | .picture _, _ | .samples _, _ | .member _, _
  | .list _, _ => by
    intro here _ _ _ _
    exact unfolded_fault (by rw [here]; rfl) rfl

/-- Unfolding the children among fields unfolds the visits below a mapping. -/
theorem unfolded_unfoldField (followed : Resolves table fuel follow) :
    ∀ (fields : List (String × Value)) (visit : Visit),
      (ofMappings table).entries ((ofMappings table).value visit.entry) =
        (Fields.get fields "children").listed →
      hasDataChildren table.length fields → Room table.length fuel (aroundChildren visit) →
      UnfoldedFrom table visit 0
        (unfoldField follow (aroundChildren visit) ((ofMappings table).path visit) fields)
  | [], visit => by
    intro entries _ _
    refine Or.inl ⟨[], rfl, ?_, nofun, clearFrom_of_length_le ?_⟩
    · rw [entries]
      exact List.Forall₂.nil
    · rw [entries]
      exact Nat.le_refl 0
  | (name, value) :: fields, visit => by
    intro entries valid room
    rw [hasDataChildren] at valid
    rw [Fields.get_children_cons] at entries
    rw [unfoldField]
    by_cases children : (name == "children") = true
    · rw [if_pos children] at entries valid ⊢
      exact unfolded_unfoldChildren followed value visit entries valid room
    · rw [if_neg children] at entries valid ⊢
      exact unfolded_unfoldField followed fields visit entries valid room

/-- Unfolding what the children are given as unfolds the visits below a mapping. -/
theorem unfolded_unfoldChildren (followed : Resolves table fuel follow) :
    ∀ (value : Value) (visit : Visit),
      (ofMappings table).entries ((ofMappings table).value visit.entry) = value.listed →
      listsData table.length value → Room table.length fuel (aroundChildren visit) →
      UnfoldedFrom table visit 0
        (unfoldChildren follow (aroundChildren visit) ((ofMappings table).path visit) value)
  | .list items, visit => by
    intro entries valid room
    exact unfolded_unfoldItems followed items visit 0 entries (by simpa [listsData] using valid) room
  | .null, visit => by
    intro entries _ _
    refine Or.inl ⟨[], rfl, ?_, nofun, clearFrom_of_length_le ?_⟩
    · rw [entries]
      exact List.Forall₂.nil
    · rw [entries]
      exact Nat.le_refl 0
  | .bool _, _ | .int _, _ | .float _, _ | .text _, _ | .bytes _, _ | .picture _, _
  | .samples _, _ | .member _, _ | .mapping _, _ | .element _ _ _ _, _ | .shared _, _ => by
    intro _ valid
    cases valid

/-- Unfolding entries unfolds the visits of the children from a number on. -/
theorem unfolded_unfoldItems (followed : Resolves table fuel follow) :
    ∀ (items : List Value) (visit : Visit) (number : Nat),
      ((ofMappings table).entries ((ofMappings table).value visit.entry)).drop number = items →
      areData table.length items → Room table.length fuel (aroundChildren visit) →
      UnfoldedFrom table visit number
        (unfoldItems follow (aroundChildren visit) ((ofMappings table).path visit) number items)
  | [], visit, number => by
    intro rest _ _
    refine Or.inl ⟨[], rfl, ?_, nofun, clearFrom_of_length_le (List.drop_eq_nil_iff.1 rest)⟩
    rw [rest]
    exact List.Forall₂.nil
  | item :: items, visit, number => by
    intro rest valid room
    obtain ⟨met, later⟩ := child?_of_drop rest
    let child : Visit := ⟨item, ⟨(ofMappings table).path visit, number⟩, aroundChildren visit⟩
    rw [areData, Bool.and_eq_true] at valid
    have first : Unfolded table child
        (unfoldEntry follow (aroundChildren visit) none child.place item) := by
      refine unfolded_entry followed room child.place valid.1 fun own => ?_
      have fresh : ¬ child.Reenters := Visit.not_reenters_of_not_isShared own
      have unfolded := unfolded_unfoldEntry followed item child (value_of_not_isShared own) own
        valid.1 (fun again => absurd again fresh) fun _ => by
          rw [aroundChildren_of_not_isShared child own]
          exact room
      rw [child.identity_of_not_isShared own] at unfolded
      exact unfolded
    rw [unfoldItems]
    rcases first with ⟨value, made, unfolds, plain, clear⟩ | ⟨found, first, said⟩ |
      ⟨fault, unclear, said⟩
    · rw [made]
      simp only
      rcases unfolded_unfoldItems followed items visit (number + 1) later valid.2 room with
        ⟨values, rest', behind, plains, clears⟩ | ⟨found, first, said⟩ |
        ⟨fault, unclear, said⟩
      · rw [rest']
        refine Or.inl ⟨value :: values, rfl, ?_, ?_, clearFrom_of_next met clear clears⟩
        · rw [later] at behind
          rw [rest]
          exact List.Forall₂.cons unfolds behind
        · intro other member
          rcases List.mem_cons.1 member with rfl | inside
          · exact plain
          · exact plains other inside
      · rw [said]
        exact Or.inr (Or.inl
          ⟨found, firstFrom_of_next met (clear.mono fun _ => Or.inr) first, rfl⟩)
      · rw [said]
        exact Or.inr (Or.inr ⟨fault, fun clear => unclear clear.next, rfl⟩)
    · rw [said]
      exact Or.inr (Or.inl ⟨found, firstFrom_here met first, rfl⟩)
    · rw [said]
      exact Or.inr (Or.inr
        ⟨fault, fun clear => unclear (clear number (Nat.le_refl _) child met), rfl⟩)

end

/-- References are resolved as they should be while there is room. -/
theorem resolves_unfoldShared {table : List Value}
    (values : ∀ value ∈ table, value.isData table.length ∧ value.isMapping) (fuel : Nat) :
    Resolves table fuel (unfoldShared table fuel) := by
  induction fuel with
  | zero =>
    intro active place index room _
    exact absurd room.pos (Nat.lt_irrefl 0)
  | succ fuel ih =>
    intro active place index room inside
    have entry := List.getElem?_eq_getElem inside
    obtain ⟨valid, mapped⟩ := values _ (List.getElem_mem inside)
    have here : (ofMappings table).value (.shared index) = table[index] :=
      (ofMappings table).value_shared inside
    obtain ⟨fields, same⟩ := isMapping_iff.1 mapped
    rw [unfoldShared, entry]
    rw [same] at here valid ⊢
    exact unfolded_unfoldEntry ih (mapping fields) ⟨.shared index, place, active⟩ here rfl valid
      (fun _ => rfl) fun fresh => room.enter (fun member => fresh ⟨index, member, rfl⟩) inside

/-- Unfolding the root unfolds everything within reach. -/
theorem unfolded_root {table : List Value} {root : Value} (graph : IsMappingGraph table root) :
    Unfolded table (.start root) (root.unfold table) := by
  have followed := resolves_unfoldShared graph.values (table.length + 1)
  have room : Room table.length (table.length + 1) [] := Room.start _
  refine unfolded_entry followed room .root graph.root fun own => ?_
  have fresh : ¬ (Visit.start root).Reenters := Visit.not_reenters_of_not_isShared own
  have unfolded := unfolded_unfoldEntry followed root (.start root) (value_of_not_isShared own) own
    graph.root (fun again => absurd again fresh) fun _ => by
      rw [aroundChildren_of_not_isShared (.start root) own]
      exact room
  rw [(Visit.start root).identity_of_not_isShared own] at unfolded
  exact unfolded

end Value

open Receipt.Graph

theorem Graph.clear_undescribed_iff (graph : Graph) (root : Value) :
    graph.Clear graph.Undescribed (.start root) ↔ graph.Described root := by
  unfold Described
  rw [← graph.forall_visits_iff fun value => value.describes = true]
  constructor
  · intro clear address found followed
    exact eq_true_of_ne_false (clear address found followed)
  · intro all address found followed undescribed
    rw [Undescribed, all address found followed] at undescribed
    cases undescribed

theorem Graph.exists_mayMeet (graph : Graph) {root : Value} {fault : TreeFault}
    (unclear : ¬ graph.Clear (graph.MayMeet fault) (.start root)) :
    ∃ entry, graph.Reaches root entry ∧ (graph.value entry).mayMeet fault = true := by
  refine Classical.byContradiction fun none => unclear ?_
  refine (graph.forall_visits_iff (fun value => ¬ value.mayMeet fault = true) root).2 ?_
  exact fun entry reaches met => none ⟨entry, reaches, met⟩

/-- A graph of mappings is unfolded exactly when every entry within reach describes an element and no
entry encloses itself. What comes out is what the root stands for, and a tree that passes every check.
Flaws are reported, and nothing else but whole numbers that cannot be written out and props that count
neither as absent nor as given. Where every entry describes an element but one encloses itself, it is
the cycle at the first entry in document order that is met inside itself. -/
theorem unfold_decides {table : List Value} {root : Value} (graph : IsMappingGraph table root) :
    ((∃ value, root.unfold table = .ok value) ↔
        (ofMappings table).Described root ∧ (ofMappings table).Acyclic root) ∧
      (∀ value, root.unfold table = .ok value →
        Unfolds table root value ∧ ∃ node, value.toNode [] = .ok node) ∧
      (∀ fault, root.unfold table = .error fault →
        (∃ path flaw, fault = .flawed path flaw) ∨
          ∃ entry, (ofMappings table).Reaches root entry ∧
            (fault = .tooLong ∧ ((ofMappings table).value entry).isLong = true ∨
              fault = .undecided ∧ ((ofMappings table).value entry).hasUndecidedProps = true)) ∧
      ((ofMappings table).Described root → ¬ (ofMappings table).Acyclic root →
        ∃ found, (ofMappings table).First Visit.Reenters (.start root) found ∧
          root.unfold table = .error (.flawed ((ofMappings table).path found) .cycle)) := by
  have allDescribed := (ofMappings table).clear_undescribed_iff root
  have acyclic := (ofMappings table).never_reenters_iff root
  rcases Value.unfolded_root graph with ⟨value, made, unfolds, plain, clear⟩ |
    ⟨found, first, said⟩ | ⟨fault, unclear, said⟩
  · have sound := allDescribed.1 (clear.mono fun _ => Or.inl)
    have never := acyclic.1 (clear.mono fun _ => Or.inr)
    rw [made]
    refine ⟨⟨fun _ => ⟨sound, never⟩, fun _ => ⟨value, rfl⟩⟩, ?_, nofun, ?_⟩
    · intro other same
      obtain rfl := Except.ok.inj same
      exact ⟨unfolds, Value.toNode_of_plain plain⟩
    · exact fun _ cyclic => absurd never cyclic
  · rw [said]
    refine ⟨⟨nofun, ?_⟩, nofun, ?_, fun _ _ => ⟨found, first, rfl⟩⟩
    · exact fun formed => absurd (acyclic.2 formed.2) first.not_clear
    · intro fault same
      exact Or.inl ⟨_, _, (Except.error.inj same).symm⟩
  · have loose : ¬ (ofMappings table).Described root := fun described =>
      unclear ((allDescribed.2 described).mono fun _ => Value.describes_of_mayMeet)
    rw [said]
    refine ⟨⟨nofun, fun formed => absurd formed.1 loose⟩, nofun, ?_,
      fun sound _ => absurd sound loose⟩
    intro other same
    obtain rfl := Except.error.inj same
    obtain ⟨entry, reaches, met⟩ := (ofMappings table).exists_mayMeet unclear
    cases fault with
    | flawed path flaw => exact Or.inl ⟨path, flaw, rfl⟩
    | tooLong => exact Or.inr ⟨entry, reaches, Or.inl ⟨rfl, met⟩⟩
    | undecided => exact Or.inr ⟨entry, reaches, Or.inr ⟨rfl, met⟩⟩
    | unlistable | nothingOpen => cases met

/-- A text that two pages share, as a mapping. -/
def sharedMappings : List Value :=
  [.mapping [("type", .text "Text"), ("style", .mapping []),
    ("children", .list [.text "Total", .int 12])]]

/-- A document of two pages with the same text, as a mapping. -/
def sharedDocument : Value :=
  .mapping [("type", .text "Document"), ("props", .null),
    ("children", .list
      [.mapping [("type", .text "Page"), ("children", .list [.shared 0])],
        .mapping [("type", .text "Page"), ("children", .list [.shared 0, .shared 0])]])]

/-- A view and a group that hold each other. -/
def knottedMappings : List Value :=
  [.mapping [("type", .text "View"), ("children", .list [.int 1, .shared 1])],
    .mapping [("type", .text "Group"), ("children", .list [.shared 0])]]

theorem described_knottedMappings : (ofMappings knottedMappings).Described (.shared 0) := by
  have within (entry : Value) (reaches : (ofMappings knottedMappings).Reaches (.shared 0) entry) :
      entry = .shared 0 ∨ entry = .shared 1 ∨ entry = .int 1 := by
    induction reaches with
    | refl => exact Or.inl rfl
    | @tail parent child _ under ih =>
      rcases ih with rfl | rfl | rfl
      · have below : child ∈ [.int 1, .shared 1] := under
        simp only [List.mem_cons, List.not_mem_nil, or_false] at below
        exact Or.inr below.symm
      · have below : child ∈ [.shared 0] := under
        exact Or.inl (List.mem_singleton.1 below)
      · cases under
  intro entry reaches
  rcases within entry reaches with rfl | rfl | rfl
  · rfl
  · rfl
  · rfl

theorem unfold_decides_sharedDocument :
    IsMappingGraph sharedMappings sharedDocument ∧
      (ofMappings sharedMappings).Acyclic sharedDocument ∧
      (∃ value, sharedDocument.unfold sharedMappings = .ok value ∧
        Unfolds sharedMappings sharedDocument value ∧ ∃ node, value.toNode [] = .ok node) ∧
      IsMappingGraph knottedMappings (.shared 0) ∧
      ∃ found, (ofMappings knottedMappings).First Visit.Reenters (.start (.shared 0)) found ∧
        (Value.shared 0).unfold knottedMappings =
          .error (.flawed ((ofMappings knottedMappings).path found) .cycle) := by
  have shared : IsMappingGraph sharedMappings sharedDocument := ⟨by decide, by decide⟩
  have knotted : IsMappingGraph knottedMappings (.shared 0) := ⟨by decide, by decide⟩
  have made : ∃ value, sharedDocument.unfold sharedMappings = .ok value := ⟨_, rfl⟩
  have refused : (Value.shared 0).unfold knottedMappings =
      .error (.flawed "View/Group[1]/View[0]" .cycle) := by rfl
  obtain ⟨value, unfolded⟩ := made
  obtain ⟨unfolds, others, _, _⟩ := unfold_decides shared
  obtain ⟨same, _, _, reenters⟩ := unfold_decides knotted
  refine ⟨shared, (unfolds.1 ⟨value, unfolded⟩).2, ⟨value, unfolded, others value unfolded⟩, knotted, ?_⟩
  refine reenters described_knottedMappings fun acyclic => ?_
  obtain ⟨value, wrong⟩ := same.2 ⟨described_knottedMappings, acyclic⟩
  rw [refused] at wrong
  cases wrong

/-- Nothing is shared without a table, so nothing encloses itself. -/
theorem acyclic_of_nil (root : Value) : (ofMappings []).Acyclic root := by
  intro entry _ closed
  obtain ⟨index, _, encloses⟩ := exists_shared_of_encloses_self closed
  obtain ⟨child, under, _⟩ := Relation.TransGen.head'_iff.1 encloses
  cases under

/-- A text whose content is a number. -/
def numberedText (number : Int) : Value :=
  .mapping [("type", .text "Text"), ("children", .list [.int number])]

theorem isMappingGraph_numberedText (number : Int) : IsMappingGraph [] (numberedText number) :=
  ⟨nofun, rfl⟩

theorem unfold_numberedText {number : Int} (long : isShort number = false) :
    (numberedText number).unfold [] = .error .tooLong := by
  have named : Fields.typeName? [("type", .text "Text"), ("children", .list [.int number])] =
      some "Text" := rfl
  simp [numberedText, Value.unfold, Value.unfoldEntry, Value.unfoldField, Value.unfoldChildren,
    Value.unfoldItems, named, long]

/-- A view whose props are an array of two cells. -/
def sampledView : Value :=
  .mapping [("type", .text "View"), ("props", .samples ⟨"uint8", [2], [1, 2]⟩)]

/-- No flaw is named for a number of 4301 digits, nor for props that are an array of two cells. -/
theorem unfold_not_flawed :
    (∃ number, IsMappingGraph [] (numberedText number) ∧
      (ofMappings []).Acyclic (numberedText number) ∧
      (numberedText number).unfold [] = .error .tooLong) ∧
    IsMappingGraph [] sampledView ∧ (ofMappings []).Acyclic sampledView ∧
      sampledView.unfold [] = .error .undecided := by
  have long : isShort (pow10 4300 : Nat) = false := by decide +kernel
  exact ⟨⟨_, isMappingGraph_numberedText _, acyclic_of_nil _, unfold_numberedText long⟩,
    ⟨nofun, rfl⟩, acyclic_of_nil _, rfl⟩

end Receipt
