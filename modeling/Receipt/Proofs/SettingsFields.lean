import Mathlib.Data.List.Basic
import Receipt.Settings.Options

/-!
# The fields of the settings

A `Format` says what a field of the settings takes: which values stand for which content, and which
content is allowed. Reading a field is taking a value in its format, and what a format writes it takes
back. `Settings.fields` are the fields with their formats, so that what holds of every field is said
once.

`Settings.ofFields_cases`: settings are read when every field is, and else every issue of a field is
reported. Settings that were read are within the bounds of their fields (`Settings.InRange`), since
the defaults are (`Settings.inRange_standard`).
-/

namespace Receipt

/-- How a field is read and written, and what that means: a value is coerced into some content, and of
the contents only those that are allowed are accepted. -/
structure Format (Content : Type) where
  read : Value → Except IssueKind Content
  write : Content → Value
  Coerces : Value → Content → Prop
  Allowed : Content → Prop
  read_eq_ok_iff : ∀ value content,
    read value = .ok content ↔ Coerces value content ∧ Allowed content
  coerces_write : ∀ content, Coerces (write content) content

namespace Format

/-- A value is taken for a content. -/
def Takes {Content : Type} (format : Format Content) (value : Value) (content : Content) : Prop :=
  format.Coerces value content ∧ format.Allowed content

/-- One of several words. -/
def word {Content : Type} (ofName? : String → Option Content) (nameOf : Content → String)
    (named : ∀ name content, ofName? name = some content ↔ name = nameOf content) :
    Format Content where
  read := Reading.word ofName?
  write content := .text (nameOf content)
  Coerces value content := value = .text (nameOf content)
  Allowed _ := True
  read_eq_ok_iff value content := by
    rw [and_true]
    cases value with
    | text name =>
      simp only [Reading.word, Value.text.injEq, ← named]
      cases ofName? name <;> simp
    | _ => simp [Reading.word]
  coerces_write _ := rfl

/-- A switch. -/
def switch : Format Bool where
  read := Reading.switch
  write := .bool
  Coerces value holds := Reading.switch value = .ok holds
  Allowed _ := True
  read_eq_ok_iff _ _ := (and_true _).symm ▸ Iff.rfl
  coerces_write _ := rfl

/-- A whole number that is not below a bound. -/
def wholeFrom (least : Int) : Format Int where
  read := Reading.wholeFrom least
  write := .int
  Coerces value n := Reading.whole value = .ok n
  Allowed n := least ≤ n
  read_eq_ok_iff value n := by
    unfold Reading.wholeFrom
    cases Reading.whole value with
    | error kind => simp
    | ok number =>
      by_cases below : number < least
      · simp [below]
        omega
      · simp [below]
        omega
  coerces_write _ := rfl

/-- A whole number between two bounds. -/
def wholeBetween (least greatest : Int) : Format Int where
  read := Reading.wholeBetween least greatest
  write := .int
  Coerces value n := Reading.whole value = .ok n
  Allowed n := least ≤ n ∧ n ≤ greatest
  read_eq_ok_iff value n := by
    unfold Reading.wholeBetween
    cases Reading.whole value with
    | error kind => simp
    | ok number =>
      by_cases above : greatest < number
      · simp [above]
        omega
      · by_cases below : number < least
        · simp [above, below]
          omega
        · simp [above, below]
          omega
  coerces_write _ := rfl

/-- A number above zero. -/
def aboveZero : Format Float where
  read := Reading.numberAboveZero
  write := .float
  Coerces value x := Reading.number value = .ok x
  Allowed x := 0.0 < x
  read_eq_ok_iff value x := by
    unfold Reading.numberAboveZero
    cases Reading.number value with
    | error kind => simp
    | ok number =>
      by_cases above : (0.0 : Float) < number
      · simp [above]
        rintro rfl
        exact above
      · simp [above]
        rintro rfl
        exact above
  coerces_write _ := rfl

/-- What a format takes, or null for nothing, when the format itself does not take null. -/
def optional {Content : Type} (format : Format Content)
    (filled : ∀ content, ¬ format.Coerces .null content) : Format (Option Content) where
  read := Reading.optional format.read
  write content := (content.map format.write).getD .null
  Coerces value
    | none => value = .null
    | some content => format.Coerces value content
  Allowed content := ∀ inner, content = some inner → format.Allowed inner
  read_eq_ok_iff value content := by
    by_cases null : value = .null
    · subst null
      cases content with
      | none => simp [Reading.optional, Value.isNull]
      | some inner => simp [Reading.optional, Value.isNull, filled]
    · have some_only : Reading.optional format.read value = (format.read value).map some := by
        cases value with
        | null => exact absurd rfl null
        | _ => rfl
      have taken := format.read_eq_ok_iff value
      rw [some_only]
      cases content with
      | none => cases format.read value <;> simp [Except.map, null]
      | some inner =>
        simp only [Option.some.injEq, forall_eq', ← taken]
        cases format.read value <;> simp [Except.map]
  coerces_write content := by
    cases content with
    | none => rfl
    | some inner => exact format.coerces_write inner

end Format

/-! ## The fields -/

theorem Backend.ofOptionName?_eq_some_iff (name : String) (backend : Backend) :
    Backend.ofOptionName? name = some backend ↔ name = backend.optionName := by
  constructor
  · intro named
    unfold ofOptionName? at named
    split at named
    · next page =>
      obtain rfl := Option.some.inj named
      exact page
    · obtain ⟨protocol, found, rfl⟩ := Option.map_eq_some_iff.1 named
      have same := List.find?_some found
      exact (beq_iff_eq.1 same).symm
  · rintro rfl
    rcases backend with (_ | _) | _ <;> rfl

theorem cutOfName?_eq_some_iff (name : String) (cut : Option Cut) :
    cutOfName? name = some cut ↔ name = cutName cut := by
  constructor
  · intro named
    unfold cutOfName? Cut.ofName? at named
    grind [cutName]
  · rintro rfl
    rcases cut with _ | (_ | _) <;> rfl

namespace Settings

/-- A field of the settings. -/
structure Field where
  name : String
  Content : Type
  format : Format Content
  held : Settings → Content

/-- All fields. -/
def fields : List Field :=
  [⟨"backend", _, .word Backend.ofOptionName? Backend.optionName Backend.ofOptionName?_eq_some_iff,
      Settings.backend⟩,
    ⟨"debug", _, .switch, Settings.debug⟩,
    ⟨"paper_width", _, .wholeFrom 1, Settings.paperWidth⟩,
    ⟨"dots_per_char", _, .wholeFrom 1, Settings.dotsPerCharacter⟩,
    ⟨"line_spacing", _, .optional (.wholeBetween 0 255) nofun, Settings.lineSpacing⟩,
    ⟨"cut", _, .word cutOfName? cutName cutOfName?_eq_some_iff, Settings.cut⟩,
    ⟨"feed_before_cut", _, .wholeBetween 0 255, Settings.feedBeforeCut⟩,
    ⟨"point_width", _, .aboveZero, Settings.pointWidth⟩,
    ⟨"point_height", _, .optional .aboveZero nofun, Settings.pointHeight⟩]

/-- Settings are within the bounds of their fields. -/
structure InRange (settings : Settings) : Prop where
  backend : settings.backend.optionName ∈ ["escpos", "escbematech", "pdf"]
  cut : cutName settings.cut ∈ ["full", "partial", "none"]
  paperWidth : 1 ≤ settings.paperWidth
  dotsPerCharacter : 1 ≤ settings.dotsPerCharacter
  feedBeforeCut : 0 ≤ settings.feedBeforeCut ∧ settings.feedBeforeCut ≤ 255
  lineSpacing : ∀ spacing, settings.lineSpacing = some spacing → 0 ≤ spacing ∧ spacing ≤ 255
  pointWidth : 0.0 < settings.pointWidth
  pointHeight : ∀ height, settings.pointHeight = some height → 0.0 < height

theorem inRange_iff {settings : Settings} :
    settings.InRange ↔ ∀ field ∈ fields, field.format.Allowed (field.held settings) := by
  have backend : settings.backend.optionName ∈ ["escpos", "escbematech", "pdf"] := by
    rcases settings.backend with (_ | _) | _ <;> decide
  have cut : cutName settings.cut ∈ ["full", "partial", "none"] := by
    rcases settings.cut with _ | (_ | _) <;> decide
  constructor
  · intro range
    simp only [fields, List.forall_mem_cons]
    exact ⟨trivial, trivial, range.paperWidth, range.dotsPerCharacter, range.lineSpacing, trivial,
      range.feedBeforeCut, range.pointWidth, range.pointHeight, List.forall_mem_nil _⟩
  · intro allowed
    simp only [fields, List.forall_mem_cons] at allowed
    obtain ⟨_, _, paperWidth, dotsPerCharacter, lineSpacing, _, feedBeforeCut, pointWidth,
      pointHeight, _⟩ := allowed
    exact ⟨backend, cut, paperWidth, dotsPerCharacter, feedBeforeCut, lineSpacing, pointWidth,
      pointHeight⟩

/-- The defaults are within their bounds. -/
theorem inRange_standard : standard.InRange where
  backend := by decide
  cut := by decide
  paperWidth := by decide
  dotsPerCharacter := by decide
  feedBeforeCut := by decide
  lineSpacing := nofun
  pointWidth := by decide
  pointHeight := nofun

/-! ## Reading the fields -/

/-- Reads a field from values. -/
def Field.readFrom (field : Field) (values : Fields) : Except Issue field.Content :=
  readField values field.name field.format.read (field.held standard)

/-- What a field holds where a value is found for it, and else: its default. -/
def Field.Gives (field : Field) (found : Option Value) (content : field.Content) : Prop :=
  match found with
  | some value => field.format.Takes value content
  | none => content = field.held standard

theorem Field.readFrom_eq_ok_iff (field : Field) (values : Fields) (content : field.Content) :
    field.readFrom values = .ok content ↔ field.Gives (values.get? field.name) content := by
  unfold readFrom readField Gives
  cases values.get? field.name with
  | none => exact ⟨fun same => (Except.ok.inj same).symm, fun same => congrArg _ same.symm⟩
  | some value =>
    show _ ↔ field.format.Coerces value content ∧ field.format.Allowed content
    rw [← field.format.read_eq_ok_iff]
    simp only
    cases field.format.read value <;> simp

/-- Where a field is not read, a value was found for it that its format does not take. -/
theorem Field.of_readFrom_eq_error {field : Field} {values : Fields} {issue : Issue}
    (refused : field.readFrom values = .error issue) :
    issue.field = field.name ∧ ∃ value, values.get? field.name = some value ∧
      ∀ content, ¬ field.format.Takes value content := by
  unfold readFrom readField at refused
  cases found : values.get? field.name with
  | none =>
    rw [found] at refused
    cases refused
  | some value =>
    rw [found] at refused
    cases read : field.format.read value with
    | ok content => simp [read] at refused
    | error kind =>
      simp only [read, Except.error.injEq] at refused
      subst refused
      refine ⟨rfl, value, rfl, fun content takes => ?_⟩
      rw [(field.format.read_eq_ok_iff value content).2 takes] at read
      cases read

/-- Settings are read when every field is, and else all issues of the fields are reported. -/
theorem ofFields_cases (values : Fields) :
    (∃ settings, ofFields values = .ok settings ∧
        ∀ field ∈ fields, field.readFrom values = .ok (field.held settings)) ∨
      ofFields values = .error (fields.flatMap fun field => issueOf (field.readFrom values)) ∧
        ∃ field ∈ fields, ∃ issue, field.readFrom values = .error issue := by
  unfold ofFields
  dsimp only
  split
  · refine Or.inl ⟨_, rfl, ?_⟩
    simp only [fields, List.forall_mem_cons]
    refine ⟨?_, ?_, ?_, ?_, ?_, ?_, ?_, ?_, ?_, List.forall_mem_nil _⟩ <;> assumption
  · next refused =>
    refine Or.inr ⟨?_, ?_⟩
    -- One branch stands for all the ways in which some field is not read.
    · simp [fields, Field.readFrom, Format.word, Format.switch, Format.wholeFrom,
        Format.wholeBetween, Format.aboveZero, Format.optional]
    · by_contra none
      have read : ∀ field ∈ fields, ∃ content, field.readFrom values = .ok content := by
        intro field member
        cases said : field.readFrom values with
        | ok content => exact ⟨content, rfl⟩
        | error issue => exact absurd ⟨field, member, issue, said⟩ none
      simp only [fields, List.forall_mem_cons] at read
      obtain ⟨⟨_, backend⟩, ⟨_, debug⟩, ⟨_, paperWidth⟩, ⟨_, dotsPerCharacter⟩, ⟨_, lineSpacing⟩,
        ⟨_, cut⟩, ⟨_, feedBeforeCut⟩, ⟨_, pointWidth⟩, ⟨_, pointHeight⟩, _⟩ := read
      exact refused _ _ _ _ _ _ _ _ _ backend debug paperWidth dotsPerCharacter lineSpacing cut
        feedBeforeCut pointWidth pointHeight

theorem eq_of_fields {settings other : Settings}
    (same : ∀ field ∈ fields, field.held settings = field.held other) : settings = other := by
  simp only [fields, List.forall_mem_cons] at same
  cases settings
  cases other
  simp_all

/-- Settings are read as what every field gives. -/
theorem ofFields_eq_ok_iff (values : Fields) (settings : Settings) :
    ofFields values = .ok settings ↔
      ∀ field ∈ fields, field.Gives (values.get? field.name) (field.held settings) := by
  simp only [← Field.readFrom_eq_ok_iff]
  rcases ofFields_cases values with ⟨other, made, reads⟩ | ⟨refused, field, member, issue, said⟩
  · rw [made]
    constructor
    · intro same
      obtain rfl := Except.ok.inj same
      exact reads
    · intro own
      refine congrArg _ (eq_of_fields fun field member => ?_)
      exact Except.ok.inj ((reads field member).symm.trans (own field member))
  · rw [refused]
    constructor
    · nofun
    · intro own
      rw [own field member] at said
      cases said

/-- Settings that were read are within the bounds of their fields. -/
theorem inRange_of_ofFields {values : Fields} {settings : Settings}
    (made : ofFields values = .ok settings) : settings.InRange := by
  refine inRange_iff.2 fun field member => ?_
  have given := (ofFields_eq_ok_iff values settings).1 made field member
  unfold Field.Gives at given
  cases found : values.get? field.name with
  | some value =>
    rw [found] at given
    exact given.2
  | none =>
    rw [found] at given
    rw [given]
    exact inRange_iff.1 inRange_standard field member

end Settings

end Receipt
