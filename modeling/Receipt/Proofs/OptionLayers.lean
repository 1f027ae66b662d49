import Mathlib.Data.List.Nodup
import Receipt.Proofs.SettingsFields

/-!
# Layers of settings, and overrides

Settings come from layers, and options from settings and overrides over them. Both are put together
from named values before anything is read, so what a field is read from is a matter of what its name
is found with: `Fields.get?_filterMap` for the layers, `Fields.get?_overlaid` for the overrides.

`Options.ofSettings_layered`: every field of settings has its content from the first layer with a value
for it, and overrides over such settings are accepted exactly when each of them is; then the options
hold the overrides and else the settings. Otherwise there is an issue about each override that is not
accepted, and about nothing else.
-/

namespace Receipt

/-! ## Layers -/

namespace Fields

theorem get?_cons (first : String) (value : Value) (fields : Fields) (name : String) :
    Fields.get? ((first, value) :: fields) name =
      if name = first then some value else fields.get? name := by
  unfold get?
  rw [List.lookup_cons]
  by_cases same : name = first
  · simp [same]
  · rw [if_neg same, beq_false_of_ne same]

theorem get?_eq_none_of_notMem {fields : Fields} {name : String}
    (missing : name ∉ fields.map Prod.fst) : fields.get? name = none := by
  refine List.lookup_eq_none_iff.2 fun field member => ?_
  rw [bne_iff_ne]
  rintro rfl
  exact missing (List.mem_map_of_mem member)

theorem get?_eq_some_iff_mem {fields : Fields} (distinct : (fields.map Prod.fst).Nodup)
    (name : String) (value : Value) : fields.get? name = some value ↔ (name, value) ∈ fields := by
  induction fields with
  | nil => simp [get?]
  | cons field rest ih =>
    obtain ⟨first, old⟩ := field
    obtain ⟨fresh, distinct⟩ := List.nodup_cons.1 distinct
    rw [get?_cons, List.mem_cons, Prod.mk.injEq]
    by_cases same : name = first
    · subst same
      have missing : (name, value) ∉ rest := fun member => fresh (List.mem_map.2 ⟨_, member, rfl⟩)
      simp [missing, eq_comm]
    · rw [if_neg same, ih distinct]
      simp [same]

theorem get?_set (fields : Fields) (name : String) (value : Value) (other : String) :
    Fields.get? (Fields.set name value fields) other =
      if other = name then some value else fields.get? other := by
  induction fields with
  | nil => exact get?_cons name value [] other
  | cons field rest ih =>
    obtain ⟨first, old⟩ := field
    rw [set]
    by_cases here : first = name
    · subst here
      rw [if_pos rfl, get?_cons, get?_cons]
      split <;> rfl
    · rw [if_neg here, get?_cons, get?_cons, ih]
      by_cases same : other = first
      · subst same
        rw [if_pos rfl, if_neg here, if_pos rfl]
      · rw [if_neg same, if_neg same]

theorem mem_names_set (fields : Fields) (name : String) (value : Value) (other : String) :
    other ∈ (Fields.set name value fields).map Prod.fst ↔
      other = name ∨ other ∈ fields.map Prod.fst := by
  induction fields with
  | nil => simp [set]
  | cons field rest ih =>
    obtain ⟨first, old⟩ := field
    rw [set]
    by_cases here : first = name
    · subst here
      simp
    · rw [if_neg here, List.map_cons, List.mem_cons, ih, List.map_cons, List.mem_cons]
      tauto

/-- Fields with others laid over them. -/
def overlaid (fields overrides : Fields) : Fields :=
  overrides.foldl (fun values field => Fields.set field.1 field.2 values) fields

theorem get?_overlaid (fields : Fields) {overrides : Fields}
    (distinct : (overrides.map Prod.fst).Nodup) (name : String) :
    (fields.overlaid overrides).get? name = (overrides.get? name).or (fields.get? name) := by
  unfold overlaid
  induction overrides generalizing fields with
  | nil => rfl
  | cons field rest ih =>
    obtain ⟨first, value⟩ := field
    obtain ⟨fresh, distinct⟩ := List.nodup_cons.1 distinct
    rw [List.foldl_cons, ih _ distinct, get?_set, get?_cons]
    by_cases same : name = first
    · subst same
      rw [get?_eq_none_of_notMem fresh, if_pos rfl, if_pos rfl]
      rfl
    · rw [if_neg same, if_neg same]

theorem mem_names_overlaid (fields overrides : Fields) (name : String) :
    name ∈ (fields.overlaid overrides).map Prod.fst ↔
      name ∈ overrides.map Prod.fst ∨ name ∈ fields.map Prod.fst := by
  unfold overlaid
  induction overrides generalizing fields with
  | nil => simp
  | cons field rest ih =>
    rw [List.foldl_cons, ih, mem_names_set, List.map_cons, List.mem_cons]
    tauto

/-- The values that names have, kept in the order of the names. -/
theorem get?_filterMap (source : String → Option Value) (names : List String) (name : String) :
    Fields.get? (names.filterMap fun field => (source field).map fun value => (field, value)) name =
      if name ∈ names then source name else none := by
  induction names with
  | nil => rfl
  | cons first rest ih =>
    rw [List.filterMap_cons]
    by_cases same : name = first
    · subst same
      rw [if_pos (List.mem_cons_self ..)]
      cases found : source name with
      | some value => exact (get?_cons ..).trans (if_pos rfl)
      | none =>
        refine ih.trans ?_
        rw [found, ite_self]
    · have later : name ∈ first :: rest ↔ name ∈ rest := by simp [same]
      rw [if_congr later rfl rfl]
      cases source first with
      | some value => exact (get?_cons ..).trans ((if_neg same).trans ih)
      | none => exact ih

end Fields

namespace Settings

theorem names_fields : fields.map Field.name = fieldNames := rfl

theorem eq_of_name {field other : Field} (known : field ∈ fields)
    (among : other ∈ fields) (same : field.name = other.name) : field = other := by
  have distinct : (fields.map Field.name).Nodup := by
    rw [names_fields]
    decide
  exact List.inj_on_of_nodup_map distinct known among same

/-- Settings have a value for every field, in its format. -/
theorem get?_toFields (settings : Settings) : ∀ field ∈ fields,
    settings.toFields.get? field.name = some (field.format.write (field.held settings)) := by
  simp only [fields, List.forall_mem_cons]
  exact ⟨rfl, rfl, rfl, rfl, rfl, rfl, rfl, rfl, rfl, List.forall_mem_nil _⟩

/-- The variables of an environment: all of them have a value. -/
def exported (environment : List (String × String)) : List EnvFile.Variable :=
  environment.map fun entry => (entry.1, some entry.2)

/-- Variables set a field to a text: the last one with the name of the field in any case does. -/
def Sets (defined : List EnvFile.Variable) (field text : String) : Prop :=
  ∃ before name after, defined = before ++ (name, some text) :: after ∧
    lowerText name = variableStart ++ field ∧
    ∀ later ∈ after, lowerText later.1 ≠ variableStart ++ field

theorem lookUp?_eq_some_iff (defined : List EnvFile.Variable) (field : String) (value : Value) :
    lookUp? defined field = some value ↔ ∃ text, value = .text text ∧ Sets defined field text := by
  unfold lookUp?
  simp only [Option.map_eq_some_iff, Option.bind_eq_some_iff, List.find?_eq_some_iff_append,
    beq_iff_eq, Bool.not_eq_true', beq_eq_false_iff_ne]
  constructor
  · rintro ⟨text, ⟨⟨name, _⟩, ⟨named, after, before, split, least⟩, rfl⟩, rfl⟩
    refine ⟨text, rfl, before.reverse, name, after.reverse, ?_, named, ?_⟩
    · rw [← List.reverse_reverse defined, split]
      simp
    · exact fun later member => least later (List.mem_reverse.1 member)
  · rintro ⟨text, rfl, before, name, after, rfl, named, least⟩
    refine ⟨text, ⟨(name, some text), ⟨named, after.reverse, before.reverse, by simp, ?_⟩, rfl⟩, rfl⟩
    exact fun later member => least later (List.mem_reverse.1 member)

theorem lookUp?_eq_none_iff (defined : List EnvFile.Variable) (field : String) :
    lookUp? defined field = none ↔ ∀ text, ¬ Sets defined field text := by
  rw [Option.eq_none_iff_forall_ne_some]
  constructor
  · exact fun none text sets => none _ ((lookUp?_eq_some_iff ..).2 ⟨text, rfl, sets⟩)
  · intro unset value found
    obtain ⟨text, _, sets⟩ := (lookUp?_eq_some_iff ..).1 found
    exact unset text sets

/-- Where a field has its content from: the first layer with a value for it, or its default. -/
inductive Field.Layered (field : Field) (given : Fields) (environment file : List EnvFile.Variable) :
    field.Content → Prop
  | given {value : Value} {content : field.Content} (here : given.get? field.name = some value)
      (takes : field.format.Takes value content) : Layered field given environment file content
  | environment {text : String} {content : field.Content} (ungiven : given.get? field.name = none)
      (here : Sets environment field.name text) (takes : field.format.Takes (.text text) content) :
      Layered field given environment file content
  | file {text : String} {content : field.Content} (ungiven : given.get? field.name = none)
      (unset : ∀ text, ¬ Sets environment field.name text) (here : Sets file field.name text)
      (takes : field.format.Takes (.text text) content) :
      Layered field given environment file content
  | standard (ungiven : given.get? field.name = none)
      (unset : ∀ text, ¬ Sets environment field.name text)
      (unfiled : ∀ text, ¬ Sets file field.name text) :
      Layered field given environment file (field.held standard)

/-- Every field of layered settings has its content from the first layer with a value for it. -/
theorem layered_fields {given : Fields} {environment : List (String × String)}
    {file : List EnvFile.Variable} {settings : Settings}
    (made : layered given environment file = .ok settings) :
    ∀ field ∈ fields, field.Layered given (exported environment) file (field.held settings) := by
  intro field member
  have known : field.name ∈ fieldNames := by
    rw [← names_fields]
    exact List.mem_map_of_mem member
  have gives := (ofFields_eq_ok_iff _ settings).1 made field member
  let source (name : String) : Option Value :=
    ((given.get? name).or (lookUp? (exported environment) name)).or (lookUp? file name)
  have found : (layers given environment file).get? field.name = source field.name :=
    (Fields.get?_filterMap source fieldNames field.name).trans (if_pos known)
  rw [found] at gives
  unfold source at gives
  cases direct : given.get? field.name with
  | some value =>
    rw [direct] at gives
    exact .given direct gives
  | none =>
    rw [direct, Option.none_or] at gives
    cases around : lookUp? (exported environment) field.name with
    | some value =>
      rw [around] at gives
      obtain ⟨text, rfl, sets⟩ := (lookUp?_eq_some_iff ..).1 around
      exact .environment direct sets gives
    | none =>
      rw [around, Option.none_or] at gives
      have unset := (lookUp?_eq_none_iff ..).1 around
      cases filed : lookUp? file field.name with
      | some value =>
        rw [filed] at gives
        obtain ⟨text, rfl, sets⟩ := (lookUp?_eq_some_iff ..).1 filed
        exact .file direct unset sets gives
      | none =>
        rw [filed] at gives
        have same : field.held settings = field.held standard := gives
        rw [same]
        exact .standard direct unset ((lookUp?_eq_none_iff ..).1 filed)

end Settings

/-! ## Overrides -/

/-- An issue is about a field, or about a part of it. -/
def Issue.IsAbout (issue : Issue) (name : String) : Prop :=
  issue.field = name ∨ ∃ part, issue.field = name ++ "." ++ part

namespace Options

/-- What a custom name may stand for: a standard kind, or a name as text or as its bytes. -/
inductive StandsFor : Value → NameTarget → Prop
  | kind (kind : Kind) : StandsFor (.member kind) (.kind kind)
  | text (name : String) : StandsFor (.text name) (.name name)
  | bytes (name : String) : StandsFor (.bytes name.toUTF8.data.toList) (.name name)

/-- A field of a mapping is a custom name with what it stands for. -/
def Defines (field : String × Value) (entry : String × NameTarget) : Prop :=
  field.1 = entry.1 ∧ StandsFor field.2 entry.2

/-- The custom names that a value defines, or none for null. -/
def Names (value : Value) : Option Naming → Prop
  | none => value = .null
  | some naming => ∃ fields, value = .mapping fields ∧ List.Forall₂ Defines fields naming

/-- Bytes are decoded when they encode a text. -/
theorem fromUTF8?_eq_some_iff {content : List UInt8} {name : String} :
    String.fromUTF8? ⟨content.toArray⟩ = some name ↔ content = name.toUTF8.data.toList := by
  unfold String.fromUTF8?
  constructor
  · intro decoded
    split at decoded
    · obtain rfl := Option.some.inj decoded
      rfl
    · cases decoded
  · rintro rfl
    exact dif_pos name.isValidUTF8

theorem readTarget_eq_ok_iff {value : Value} {target : NameTarget} :
    readTarget value = .ok target ↔ StandsFor value target := by
  constructor
  · intro read
    cases value with
    | member kind =>
      obtain rfl := Except.ok.inj read
      exact .kind kind
    | text name =>
      obtain rfl := Except.ok.inj read
      exact .text name
    | bytes content =>
      simp only [readTarget] at read
      split at read
      · next name decoded =>
        obtain rfl := Except.ok.inj read
        rw [fromUTF8?_eq_some_iff.1 decoded]
        exact .bytes name
      · cases read
    | _ => cases read
  · intro stands
    cases stands with
    | kind kind => rfl
    | text name => rfl
    | bytes name =>
      simp only [readTarget, fromUTF8?_eq_some_iff.2 rfl]

/-- The fields of a mapping define custom names when there is no issue about them. -/
theorem forall₂_defines_iff (fields : Fields) (naming : Naming) :
    List.Forall₂ Defines fields naming ↔
      nameIssues fields = [] ∧ namePairs fields = naming := by
  induction fields generalizing naming with
  | nil =>
    rw [List.forall₂_nil_left_iff]
    exact ⟨fun empty => ⟨rfl, empty.symm⟩, fun both => both.2.symm⟩
  | cons field rest ih =>
    obtain ⟨name, value⟩ := field
    rw [List.forall₂_cons_left_iff]
    cases read : readTarget value with
    | error kind =>
      constructor
      · rintro ⟨entry, _, ⟨_, stands⟩, _⟩
        rw [readTarget_eq_ok_iff.2 stands] at read
        cases read
      · rintro ⟨none, _⟩
        unfold nameIssues at none
        rw [List.flatMap_cons, List.append_eq_nil_iff] at none
        simp only [read] at none
        cases none.1
    | ok target =>
      have issues : nameIssues ((name, value) :: rest) = nameIssues rest := by
        unfold nameIssues
        simp only [List.flatMap_cons, read, List.nil_append]
      have pairs : namePairs ((name, value) :: rest) = (name, target) :: namePairs rest := by
        unfold namePairs
        simp only [List.filterMap_cons, read, Except.toOption, Option.map_some]
      rw [issues, pairs]
      constructor
      · rintro ⟨⟨other, found⟩, others, ⟨rfl, stands⟩, later, rfl⟩
        obtain ⟨none, rfl⟩ := (ih others).1 later
        rw [Except.ok.inj (read.symm.trans (readTarget_eq_ok_iff.2 stands))]
        exact ⟨none, rfl⟩
      · rintro ⟨none, rfl⟩
        exact ⟨(name, target), namePairs rest, ⟨rfl, readTarget_eq_ok_iff.1 read⟩,
          (ih _).2 ⟨none, rfl⟩, rfl⟩

theorem isAbout_of_mem_nameIssues {fields : Fields} {issue : Issue}
    (member : issue ∈ nameIssues fields) : issue.IsAbout "component_mapping" := by
  obtain ⟨⟨name, value⟩, _, own⟩ := List.mem_flatMap.1 member
  have front : "component_mapping." = "component_mapping" ++ "." := rfl
  dsimp only at own
  rw [front] at own
  split at own
  · cases own
  · rcases List.mem_pair.1 own with rfl | rfl
    · exact Or.inr ⟨name ++ ".enum[NodeType]", String.append_assoc ..⟩
    · exact Or.inr ⟨name ++ ".str", String.append_assoc ..⟩

/-- Custom names are read as what their value stands for; else there are issues about them. -/
theorem readMapping_cases (values : Fields) :
    (∃ names, readMapping values = .ok names ∧
        ∀ other, Names (values.get "component_mapping") other ↔ other = names) ∨
      ∃ issues, readMapping values = .error issues ∧ issues ≠ [] ∧
        (∀ issue ∈ issues, issue.IsAbout "component_mapping") ∧
        ∀ names, ¬ Names (values.get "component_mapping") names := by
  unfold readMapping
  cases values.get "component_mapping" with
  | null =>
    refine Or.inl ⟨none, rfl, fun other => ?_⟩
    cases other <;> simp [Names]
  | mapping fields =>
    by_cases none : nameIssues fields = []
    · refine Or.inl ⟨some (namePairs fields), by simp [none], fun other => ?_⟩
      cases other with
      | none => simp [Names]
      | some naming =>
        simp only [Names, Value.mapping.injEq, exists_eq_left', forall₂_defines_iff, none, true_and,
          Option.some.injEq]
        exact eq_comm
    · refine Or.inr ⟨nameIssues fields, by simp [none], none,
        fun issue => isAbout_of_mem_nameIssues, ?_⟩
      rintro (_ | naming) names
      · cases names
      · obtain ⟨_, same, defines⟩ := names
        obtain rfl := Value.mapping.inj same
        exact none ((forall₂_defines_iff fields naming).1 defines).1
  | _ =>
    refine Or.inr ⟨_, rfl, nofun, ?_, ?_⟩
    · intro issue member
      exact Or.inl (by rw [List.mem_singleton.1 member])
    · rintro (_ | naming) names
      · cases names
      · obtain ⟨_, same, _⟩ := names
        cases same

theorem mem_unknownNames_iff (values : Fields) (issue : Issue) :
    issue ∈ unknownNames values ↔
      ∃ name ∈ values.map Prod.fst, name ∉ fieldNames ∧ issue = ⟨name, .unknownField⟩ := by
  unfold unknownNames
  simp only [List.mem_map, List.mem_filter, Bool.not_eq_true', List.contains_eq_mem,
    decide_eq_false_iff_not]
  constructor
  · rintro ⟨field, ⟨member, unknown⟩, rfl⟩
    exact ⟨field.1, ⟨field, member, rfl⟩, unknown, rfl⟩
  · rintro ⟨_, ⟨field, member, rfl⟩, unknown, rfl⟩
    exact ⟨field, ⟨member, unknown⟩, rfl⟩

/-- The issues of a reading. -/
def issuesOf {α : Type} : Except (List Issue) α → List Issue
  | .ok _ => []
  | .error issues => issues

theorem issuesOf_settings_eq_nil {values : Fields}
    (none : issuesOf (Settings.ofFields values) = []) :
    ∃ settings, Settings.ofFields values = .ok settings := by
  rcases Settings.ofFields_cases values with
    ⟨settings, made, _⟩ | ⟨refused, field, member, issue, said⟩
  · exact ⟨settings, made⟩
  · rw [refused] at none
    have own := List.flatMap_eq_nil_iff.1 none field member
    rw [said] at own
    cases own

theorem issuesOf_readMapping_eq_nil {values : Fields} (none : issuesOf (readMapping values) = []) :
    ∃ names, readMapping values = .ok names := by
  rcases readMapping_cases values with ⟨names, read, _⟩ | ⟨issues, refused, some, _⟩
  · exact ⟨names, read⟩
  · rw [refused] at none
    exact absurd none some

/-- Options are read when the settings and the custom names are and no name is unknown; else all issues
are reported. -/
theorem ofFields_cases (values : Fields) :
    (∃ options, ofFields values = .ok options ∧
        Settings.ofFields values = .ok options.toSettings ∧
        readMapping values = .ok options.names ∧ unknownNames values = []) ∨
      ∃ issues, ofFields values = .error issues ∧ issues ≠ [] ∧ ∀ issue, issue ∈ issues ↔
        issue ∈ issuesOf (Settings.ofFields values) ∨ issue ∈ issuesOf (readMapping values) ∨
          issue ∈ unknownNames values := by
  by_cases none : issuesOf (Settings.ofFields values) = [] ∧ issuesOf (readMapping values) = [] ∧
      unknownNames values = []
  · obtain ⟨settings, made⟩ := issuesOf_settings_eq_nil none.1
    obtain ⟨names, read⟩ := issuesOf_readMapping_eq_nil none.2.1
    refine Or.inl ⟨{ settings with names := names }, ?_, made, read, none.2.2⟩
    unfold ofFields
    rw [made, read, none.2.2]
  · have said : ofFields values = .error
        ((issuesOf (Settings.ofFields values) ++ issuesOf (readMapping values) ++
          unknownNames values).mergeSort Issue.before) := by
      unfold ofFields
      split
      · next made read known =>
        rw [made, read] at none
        exact absurd ⟨rfl, rfl, known⟩ none
      · rfl
    refine Or.inr ⟨_, said, ?_, fun issue => ?_⟩
    · intro empty
      have lengths := congrArg List.length empty
      rw [List.length_mergeSort] at lengths
      have nothing := List.length_eq_zero_iff.1 lengths
      rw [List.append_eq_nil_iff, List.append_eq_nil_iff, and_assoc] at nothing
      exact none nothing
    · rw [List.mem_mergeSort, List.mem_append, List.mem_append, or_assoc]

/-- An override that is accepted: it names a field, whose format takes its value, or the custom names,
and its value stands for some. -/
inductive Admits : String × Value → Prop
  | field (field : Settings.Field) (known : field ∈ Settings.fields) {value : Value}
      {content : field.Content} (takes : field.format.Takes value content) :
      Admits (field.name, value)
  | names {value : Value} {names : Option Naming} (stands : Names value names) :
      Admits ("component_mapping", value)

/-- Options are settings with overrides over them: each field and the custom names hold what their
override is coerced into, where there is one, and else what the settings hold, and no custom names. -/
structure Overlays (settings : Settings) (overrides : Fields) (options : Options) : Prop where
  fields : ∀ field ∈ Settings.fields,
    match overrides.get? field.name with
    | some value => field.format.Coerces value (field.held options.toSettings)
    | none => field.held options.toSettings = field.held settings
  names :
    match overrides.get? "component_mapping" with
    | some value => Names value options.names
    | none => options.names = none

theorem name_ne_of_mem {field : Settings.Field} (known : field ∈ Settings.fields) :
    field.name ≠ "component_mapping" := by
  intro same
  have inside : field.name ∈ Settings.fieldNames := by
    rw [← Settings.names_fields]
    exact List.mem_map_of_mem known
  rw [same] at inside
  revert inside
  decide

theorem admits_field_iff {field : Settings.Field} (known : field ∈ Settings.fields)
    {name : String} (named : field.name = name) (value : Value) :
    Admits (name, value) ↔ ∃ content, field.format.Takes value content := by
  subst named
  constructor
  · intro admits
    generalize override : (field.name, value) = pair at admits
    cases admits with
    | field other among takes =>
      obtain ⟨same, rfl⟩ := Prod.mk.inj override
      obtain rfl := Settings.eq_of_name known among same
      exact ⟨_, takes⟩
    | names _ => exact absurd (Prod.mk.inj override).1 (name_ne_of_mem known)
  · rintro ⟨content, takes⟩
    exact .field field known takes

theorem admits_names_iff (value : Value) :
    Admits ("component_mapping", value) ↔ ∃ names, Names value names := by
  constructor
  · intro admits
    generalize override : ("component_mapping", value) = pair at admits
    cases admits with
    | field other among takes => exact absurd (Prod.mk.inj override).1.symm (name_ne_of_mem among)
    | names stands =>
      obtain ⟨_, rfl⟩ := Prod.mk.inj override
      exact ⟨_, stands⟩
  · rintro ⟨names, stands⟩
    exact .names stands

/-- A known name is that of the custom names or of a field. -/
theorem mem_fieldNames_iff (name : String) :
    name ∈ fieldNames ↔
      name = "component_mapping" ∨ ∃ field ∈ Settings.fields, field.name = name := by
  unfold fieldNames
  rw [List.mem_cons, ← Settings.names_fields, List.mem_map]

theorem mem_fieldNames_of_admits {override : String × Value} (admits : Admits override) :
    override.1 ∈ fieldNames := by
  rw [mem_fieldNames_iff]
  cases admits with
  | field field known _ => exact Or.inr ⟨field, known, rfl⟩
  | names _ => exact Or.inl rfl

section Overlay

variable {settings : Settings} {overrides : Fields}

/-- A field of settings with overrides over them gives what its override is taken for, where there is
one, and else what the settings hold. -/
theorem gives_overlaid (valid : settings.InRange) (distinct : (overrides.map Prod.fst).Nodup)
    {field : Settings.Field} (known : field ∈ Settings.fields) (content : field.Content) :
    field.Gives ((settings.toFields.overlaid overrides).get? field.name) content ↔
      match overrides.get? field.name with
      | some value => field.format.Takes value content
      | none => content = field.held settings := by
  rw [Fields.get?_overlaid _ distinct, Settings.get?_toFields settings field known]
  cases overrides.get? field.name with
  | some value => exact Iff.rfl
  | none =>
    have allowed := Settings.inRange_iff.1 valid field known
    have back := (field.format.read_eq_ok_iff _ _).2 ⟨field.format.coerces_write _, allowed⟩
    constructor
    · intro takes
      have read := (field.format.read_eq_ok_iff _ _).2 takes
      exact Except.ok.inj (read.symm.trans back)
    · rintro rfl
      exact ⟨field.format.coerces_write _, allowed⟩

theorem get_overlaid_names (distinct : (overrides.map Prod.fst).Nodup) :
    (settings.toFields.overlaid overrides).get "component_mapping" =
      overrides.get "component_mapping" := by
  have bare : settings.toFields.get? "component_mapping" = none := rfl
  unfold Fields.get
  rw [Fields.get?_overlaid _ distinct, bare, Option.or_none]

theorem unknown_overlaid_iff (name : String) (unknown : name ∉ fieldNames) :
    name ∈ (settings.toFields.overlaid overrides).map Prod.fst ↔ name ∈ overrides.map Prod.fst := by
  rw [Fields.mem_names_overlaid]
  refine or_iff_left fun own => unknown ?_
  exact List.mem_cons_of_mem _ own

/-- Every issue of settings with overrides over them is about an override that is not accepted. -/
theorem exists_override_of_issue (valid : settings.InRange)
    (distinct : (overrides.map Prod.fst).Nodup) {issue : Issue}
    (among : issue ∈ issuesOf (Settings.ofFields (settings.toFields.overlaid overrides)) ∨
      issue ∈ issuesOf (readMapping (settings.toFields.overlaid overrides)) ∨
        issue ∈ unknownNames (settings.toFields.overlaid overrides)) :
    ∃ override ∈ overrides, ¬ Admits override ∧ issue.IsAbout override.1 := by
  rcases among with own | own | own
  · rcases Settings.ofFields_cases (settings.toFields.overlaid overrides) with
      ⟨_, made, _⟩ | ⟨refused, _⟩
    · rw [made] at own
      cases own
    · rw [refused] at own
      obtain ⟨field, known, own⟩ := List.mem_flatMap.1 own
      cases said : field.readFrom (settings.toFields.overlaid overrides) with
      | ok content =>
        rw [said] at own
        cases own
      | error other =>
        rw [said] at own
        obtain rfl := List.mem_singleton.1 own
        obtain ⟨named, value, found, refuses⟩ := Settings.Field.of_readFrom_eq_error said
        cases laid : overrides.get? field.name with
        -- The settings are valid, so what they hold is not refused.
        | none =>
          have gives := (gives_overlaid valid distinct known (field.held settings)).2
            (by rw [laid])
          rw [found] at gives
          exact absurd gives (refuses _)
        | some value' =>
          rw [Fields.get?_overlaid _ distinct, laid] at found
          obtain rfl := Option.some.inj found
          refine ⟨(field.name, value'), (Fields.get?_eq_some_iff_mem distinct ..).1 laid, ?_,
            Or.inl named⟩
          intro admits
          obtain ⟨content, takes⟩ := (admits_field_iff known rfl value').1 admits
          exact refuses content takes
  · rcases readMapping_cases (settings.toFields.overlaid overrides) with
      ⟨_, read, _⟩ | ⟨issues, refused, _, about, refuses⟩
    · rw [read] at own
      cases own
    · rw [refused] at own
      rw [get_overlaid_names distinct] at refuses
      cases laid : overrides.get? "component_mapping" with
      | none =>
        unfold Fields.get at refuses
        rw [laid] at refuses
        exact absurd rfl (refuses none)
      | some value =>
        unfold Fields.get at refuses
        rw [laid] at refuses
        refine ⟨("component_mapping", value), (Fields.get?_eq_some_iff_mem distinct ..).1 laid, ?_,
          about issue own⟩
        intro admits
        obtain ⟨names, stands⟩ := (admits_names_iff value).1 admits
        exact refuses names stands
  · obtain ⟨name, member, unknown, rfl⟩ := (mem_unknownNames_iff ..).1 own
    obtain ⟨override, inside, rfl⟩ := List.mem_map.1 ((unknown_overlaid_iff name unknown).1 member)
    exact ⟨override, inside, fun admits => unknown (mem_fieldNames_of_admits admits), Or.inl rfl⟩

/-- Every override that is not accepted has an issue. -/
theorem exists_issue_of_override (settings : Settings) {overrides : Fields}
    (distinct : (overrides.map Prod.fst).Nodup) {override : String × Value}
    (member : override ∈ overrides) (refused : ¬ Admits override) :
    ∃ issue : Issue, issue.IsAbout override.1 ∧
      (issue ∈ issuesOf (Settings.ofFields (settings.toFields.overlaid overrides)) ∨
        issue ∈ issuesOf (readMapping (settings.toFields.overlaid overrides)) ∨
          issue ∈ unknownNames (settings.toFields.overlaid overrides)) := by
  obtain ⟨name, value⟩ := override
  have laid : overrides.get? name = some value := (Fields.get?_eq_some_iff_mem distinct ..).2 member
  by_cases known : name ∈ fieldNames
  · rcases (mem_fieldNames_iff name).1 known with rfl | ⟨field, among, rfl⟩
    · have found : (settings.toFields.overlaid overrides).get "component_mapping" = value := by
        rw [get_overlaid_names distinct, Fields.get, laid]
        rfl
      rcases readMapping_cases (settings.toFields.overlaid overrides) with
        ⟨names, _, stands⟩ | ⟨issues, said, some, about, _⟩
      · rw [found] at stands
        exact absurd ((admits_names_iff value).2 ⟨names, (stands names).2 rfl⟩) refused
      · obtain ⟨issue, inside⟩ := List.exists_mem_of_ne_nil issues some
        refine ⟨issue, about issue inside, Or.inr (Or.inl ?_)⟩
        rw [said]
        exact inside
    · have found : (settings.toFields.overlaid overrides).get? field.name = some value := by
        rw [Fields.get?_overlaid _ distinct, laid]
        rfl
      cases said : field.readFrom (settings.toFields.overlaid overrides) with
      | ok content =>
        have gives := (field.readFrom_eq_ok_iff _ content).1 said
        rw [found] at gives
        exact absurd ((admits_field_iff among rfl value).2 ⟨content, gives⟩) refused
      | error issue =>
        refine ⟨issue, Or.inl (Settings.Field.of_readFrom_eq_error said).1, Or.inl ?_⟩
        rcases Settings.ofFields_cases (settings.toFields.overlaid overrides) with
          ⟨_, _, reads⟩ | ⟨refuses, _⟩
        · rw [reads field among] at said
          cases said
        · rw [refuses]
          refine List.mem_flatMap.2 ⟨field, among, ?_⟩
          rw [said]
          exact List.mem_singleton_self issue
  · refine ⟨⟨name, .unknownField⟩, Or.inl rfl, Or.inr (Or.inr ?_)⟩
    refine (mem_unknownNames_iff ..).2 ⟨name, ?_, known, rfl⟩
    exact (unknown_overlaid_iff name known).2 (List.mem_map_of_mem member)

/-- Options that are read from settings with overrides over them are those settings with those
overrides, and all overrides are accepted. -/
theorem overlays_of_ofFields (valid : settings.InRange)
    (distinct : (overrides.map Prod.fst).Nodup) {options : Options}
    (made : Settings.ofFields (settings.toFields.overlaid overrides) = .ok options.toSettings)
    (read : readMapping (settings.toFields.overlaid overrides) = .ok options.names) :
    Overlays settings overrides options := by
  have gives := (Settings.ofFields_eq_ok_iff ..).1 made
  constructor
  · intro field known
    have given := (gives_overlaid valid distinct known _).1 (gives field known)
    cases laid : overrides.get? field.name with
    | some value =>
      rw [laid] at given
      exact given.1
    | none =>
      rw [laid] at given
      exact given
  · rcases readMapping_cases (settings.toFields.overlaid overrides) with
      ⟨names, said, stands⟩ | ⟨_, refused, _⟩
    · obtain rfl := Except.ok.inj (read.symm.trans said)
      rw [get_overlaid_names distinct] at stands
      have own := (stands options.names).2 rfl
      unfold Fields.get at own
      cases laid : overrides.get? "component_mapping" with
      | some value =>
        rw [laid] at own
        exact own
      | none =>
        rw [laid] at own
        cases held : options.names with
        | none => rfl
        | some naming =>
          rw [held] at own
          obtain ⟨_, nothing, _⟩ := own
          cases nothing
    · rw [refused] at read
      cases read

end Overlay

/-- What laying overrides over settings comes to: all overrides are accepted, and the options are the
settings with them; or the issues are about those that are not accepted. -/
theorem ofSettings_cases {settings : Settings} (valid : settings.InRange) {overrides : Fields}
    (distinct : (overrides.map Prod.fst).Nodup) :
    (∃ options, ofSettings settings overrides = .ok options ∧
        (∀ override ∈ overrides, Admits override) ∧ Overlays settings overrides options ∧
        options.InRange) ∨
      ∃ issues, ofSettings settings overrides = .error issues ∧ issues ≠ [] ∧
        (∀ issue ∈ issues, ∃ override ∈ overrides, ¬ Admits override ∧ issue.IsAbout override.1) ∧
        ∀ override ∈ overrides, ¬ Admits override → ∃ issue ∈ issues, issue.IsAbout override.1 := by
  rcases ofFields_cases (settings.toFields.overlaid overrides) with
    ⟨options, said, made, read, known⟩ | ⟨issues, said, some, members⟩
  · refine Or.inl ⟨options, said, fun override member => ?_,
      overlays_of_ofFields valid distinct made read, Settings.inRange_of_ofFields made⟩
    by_contra refused
    obtain ⟨issue, _, own⟩ := exists_issue_of_override settings distinct member refused
    rw [made, read, known] at own
    simp [issuesOf] at own
  · refine Or.inr ⟨issues, said, some, fun issue member => ?_, fun override member refused => ?_⟩
    · exact exists_override_of_issue valid distinct ((members issue).1 member)
    · obtain ⟨issue, about, own⟩ := exists_issue_of_override settings distinct member refused
      exact ⟨issue, (members issue).2 own, about⟩

/-- In settings every field has its content from the first layer with a value for it: given directly,
the environment, the environment file, its default. Overrides over them are accepted exactly when each
one names a field, or the custom names, and its value is taken there; then the options hold what the
overrides are coerced into and else what the settings hold, all of it within bounds. Otherwise there is
an issue about every override that is not accepted, and about nothing else. So settings alone are
always accepted. -/
theorem ofSettings_layered {given : Fields} {environment : List (String × String)} {text : String}
    {settings : Settings}
    (made : Settings.layered given environment (EnvFile.read environment text) = .ok settings)
    {overrides : Fields} (distinct : (overrides.map Prod.fst).Nodup) :
    (∀ field ∈ Settings.fields, field.Layered given (Settings.exported environment)
        (EnvFile.read environment text) (field.held settings)) ∧
      ((∃ options, ofSettings settings overrides = .ok options) ↔
        ∀ override ∈ overrides, Admits override) ∧
      (∀ options, ofSettings settings overrides = .ok options →
        Overlays settings overrides options ∧ options.InRange) ∧
      (∀ issues, ofSettings settings overrides = .error issues →
        (∀ issue ∈ issues, ∃ override ∈ overrides, ¬ Admits override ∧ issue.IsAbout override.1) ∧
          ∀ override ∈ overrides, ¬ Admits override → ∃ issue ∈ issues, issue.IsAbout override.1) ∧
      ofSettings settings [] = .ok { settings with names := none } := by
  have valid : settings.InRange := Settings.inRange_of_ofFields made
  have layers := Settings.layered_fields made
  refine ⟨layers, ?_, ?_, ?_, ?_⟩
  · rcases ofSettings_cases valid distinct with
      ⟨options, said, admits, _⟩ | ⟨issues, said, some, offends, _⟩
    · exact ⟨fun _ => admits, fun _ => ⟨options, said⟩⟩
    · rw [said]
      constructor
      · rintro ⟨_, made⟩
        cases made
      · intro admits
        obtain ⟨issue, member⟩ := List.exists_mem_of_ne_nil issues some
        obtain ⟨override, inside, refused, _⟩ := offends issue member
        exact absurd (admits override inside) refused
  · intro options said
    rcases ofSettings_cases valid distinct with ⟨other, made, _, overlays, bounds⟩ | ⟨_, refused, _⟩
    · obtain rfl := Except.ok.inj (said.symm.trans made)
      exact ⟨overlays, bounds⟩
    · rw [refused] at said
      cases said
  · intro issues said
    rcases ofSettings_cases valid distinct with ⟨_, made, _⟩ | ⟨other, refused, _, offends, reported⟩
    · rw [made] at said
      cases said
    · obtain rfl := Except.error.inj (said.symm.trans refused)
      exact ⟨offends, reported⟩
  · have distinct : (List.map Prod.fst ([] : Fields)).Nodup := List.nodup_nil
    rcases ofSettings_cases valid distinct with
      ⟨options, said, _, overlays, _⟩ | ⟨issues, _, some, offends, _⟩
    · have same : options.toSettings = settings := Settings.eq_of_fields overlays.fields
      have bare : options.names = none := overlays.names
      rw [said]
      cases options
      subst same bare
      rfl
    · obtain ⟨issue, member⟩ := List.exists_mem_of_ne_nil issues some
      obtain ⟨_, inside, _⟩ := offends issue member
      cases inside

/-- An environment that sets the backend. -/
def pageBackend : List (String × String) := [("ThermalPrint_Backend", "pdf")]

/-- An environment file that sets the backend and the cut. -/
def printerFile : String := "THERMALPRINT_BACKEND=escpos\nexport THERMALPRINT_CUT='none'\n"

/-- The settings that they make. -/
def pageSettings : Settings := { Settings.standard with backend := .page, cut := none }

/-- Custom names for a text and for a picture. -/
def receiptNames : Fields :=
  [("Total", .bytes "text".toUTF8.data.toList), ("Logo", .member .image)]

/-- A paper width and custom names. -/
def receiptOverrides : Fields :=
  [("paper_width", .int 32), ("component_mapping", .mapping receiptNames)]

theorem ofSettings_layered_printerFile :
    Settings.layered [] pageBackend (EnvFile.read pageBackend printerFile) = .ok pageSettings ∧
      (receiptOverrides.map Prod.fst).Nodup ∧
      (∃ options, ofSettings pageSettings receiptOverrides = .ok options ∧
        Overlays pageSettings receiptOverrides options ∧ options.InRange) ∧
      ofSettings pageSettings [] = .ok { pageSettings with names := none } := by
  have read : EnvFile.read pageBackend printerFile =
      [("THERMALPRINT_BACKEND", some "escpos"), ("THERMALPRINT_CUT", some "none")] := by
    decide +kernel
  have made : Settings.layered [] pageBackend (EnvFile.read pageBackend printerFile) =
      .ok pageSettings := by
    rw [read]
    rfl
  have distinct : (receiptOverrides.map Prod.fst).Nodup := by decide
  have width : Admits ("paper_width", .int 32) :=
    .field ⟨"paper_width", _, .wholeFrom 1, Settings.paperWidth⟩ (.tail _ (.tail _ (.head _)))
      ⟨rfl, (by decide : (1 : Int) ≤ 32)⟩
  have names : Names (.mapping receiptNames) (some [("Total", .name "text"), ("Logo", .kind .image)]) :=
    ⟨_, rfl, .cons ⟨rfl, .bytes "text"⟩ (.cons ⟨rfl, .kind .image⟩ .nil)⟩
  have custom : Admits ("component_mapping", .mapping receiptNames) := .names names
  have admits : ∀ override ∈ receiptOverrides, Admits override := by
    intro override member
    rcases List.mem_pair.1 member with rfl | rfl
    · exact width
    · exact custom
  obtain ⟨_, accepted, laid, _, alone⟩ := ofSettings_layered made distinct
  obtain ⟨options, said⟩ := accepted.2 admits
  exact ⟨made, distinct, ⟨options, said, laid options said⟩, alone⟩

end Options

end Receipt
