import Receipt.Printer.Command
import Receipt.Settings.EnvFile
import Receipt.Settings.Reading
import Receipt.Tree.Kind

/-!
# Settings and options

`Settings` are the defaults of all conversions, `Options` those of one: the same fields and custom
names of elements. Settings are layered: what is given directly, then the environment, then the
environment file, then the defaults, field by field (`Settings.layered`). `Options.ofSettings` lays
overrides over settings; an override with an unknown name is refused there, while settings pass over
unknown names.
-/

namespace Receipt

/-- What a conversion makes. -/
inductive Backend where
  | printer (protocol : Protocol)
  | page
deriving DecidableEq, Repr

namespace Backend

/-- The name of a backend among the options. -/
def optionName : Backend → String
  | printer protocol => protocol.optionName
  | page => "pdf"

/-- The backend with an option name. -/
def ofOptionName? (name : String) : Option Backend :=
  if name = "pdf" then some page else (Protocol.ofOptionName? name).map printer

/-- The name of a backend in results. -/
def name : Backend → String
  | printer protocol => protocol.name
  | page => "PDF"

end Backend

/-- How the receipt is cut off, none for not at all, by its option name. -/
def cutOfName? (name : String) : Option (Option Cut) :=
  if name = "none" then some none else (Cut.ofName? name).map some

/-- The option name of a cut. -/
def cutName : Option Cut → String
  | some .full => "full"
  | some .part => "partial"
  | none => "none"

/-- The defaults of all conversions. -/
structure Settings where
  backend : Backend
  debug : Bool
  paperWidth : Int
  dotsPerCharacter : Int
  lineSpacing : Option Int
  cut : Option Cut
  feedBeforeCut : Int
  pointWidth : Float
  pointHeight : Option Float

/-- The options of one conversion. -/
structure Options extends Settings where
  /-- Custom names of elements, when there are any. -/
  names : Option Naming

namespace Settings

/-- The settings when nothing is set. -/
def standard : Settings where
  backend := .printer .escPos
  debug := false
  paperWidth := 48
  dotsPerCharacter := 12
  lineSpacing := none
  cut := some .full
  feedBeforeCut := 3
  pointWidth := 205.0
  pointHeight := none

/-- The names of the fields. -/
def fieldNames : List String :=
  ["backend", "debug", "paper_width", "dots_per_char", "line_spacing", "cut", "feed_before_cut",
    "point_width", "point_height"]

/-- The fields as values. -/
def toFields (settings : Settings) : Fields :=
  [("backend", .text settings.backend.optionName),
    ("debug", .bool settings.debug),
    ("paper_width", .int settings.paperWidth),
    ("dots_per_char", .int settings.dotsPerCharacter),
    ("line_spacing", (settings.lineSpacing.map Value.int).getD .null),
    ("cut", .text (cutName settings.cut)),
    ("feed_before_cut", .int settings.feedBeforeCut),
    ("point_width", .float settings.pointWidth),
    ("point_height", (settings.pointHeight.map Value.float).getD .null)]

/-- Reads one field, or takes its default when it is missing. -/
def readField {β : Type} (values : Fields) (name : String) (read : Value → Except IssueKind β)
    (default : β) : Except Issue β :=
  match values.get? name with
  | none => .ok default
  | some value =>
    match read value with
    | .ok accepted => .ok accepted
    | .error kind => .error ⟨name, kind⟩

/-- The issue of a reading that failed. -/
def issueOf {β : Type} : Except Issue β → List Issue
  | .ok _ => []
  | .error issue => [issue]

/-- Reads settings from values, passing over unknown names. All issues are reported. -/
def ofFields (values : Fields) : Except (List Issue) Settings :=
  let backend := readField values "backend" (Reading.word Backend.ofOptionName?) standard.backend
  let debug := readField values "debug" Reading.switch standard.debug
  let paperWidth := readField values "paper_width" (Reading.wholeFrom 1) standard.paperWidth
  let dotsPerCharacter :=
    readField values "dots_per_char" (Reading.wholeFrom 1) standard.dotsPerCharacter
  let lineSpacing :=
    readField values "line_spacing" (Reading.optional (Reading.wholeBetween 0 255))
      standard.lineSpacing
  let cut := readField values "cut" (Reading.word cutOfName?) standard.cut
  let feedBeforeCut :=
    readField values "feed_before_cut" (Reading.wholeBetween 0 255) standard.feedBeforeCut
  let pointWidth := readField values "point_width" Reading.numberAboveZero standard.pointWidth
  let pointHeight :=
    readField values "point_height" (Reading.optional Reading.numberAboveZero)
      standard.pointHeight
  match backend, debug, paperWidth, dotsPerCharacter, lineSpacing, cut, feedBeforeCut, pointWidth,
    pointHeight with
  | .ok backend, .ok debug, .ok paperWidth, .ok dotsPerCharacter, .ok lineSpacing, .ok cut,
    .ok feedBeforeCut, .ok pointWidth, .ok pointHeight =>
    .ok ⟨backend, debug, paperWidth, dotsPerCharacter, lineSpacing, cut, feedBeforeCut, pointWidth,
      pointHeight⟩
  | _, _, _, _, _, _, _, _, _ =>
    .error (issueOf backend ++ issueOf debug ++ issueOf paperWidth ++ issueOf dotsPerCharacter ++
      issueOf lineSpacing ++ issueOf cut ++ issueOf feedBeforeCut ++ issueOf pointWidth ++
      issueOf pointHeight)

/-- What the names of the variables of the environment begin with, in lower case. -/
def variableStart : String := "thermalprint_"

/-- A name in lower case. -/
def lowerText (name : String) : String := String.ofList (name.toList.map Character.lower)

/-- The value of a field among variables: that of the last variable with its name in any case, when
it has one. -/
def lookUp? (defined : List EnvFile.Variable) (field : String) : Option Value :=
  ((defined.reverse.find? fun entry => lowerText entry.1 == variableStart ++ field).bind
    (·.2)).map Value.text

/-- The value of each field from the first layer that has it: given directly, the environment, the
environment file. -/
def layers (given : Fields) (environment : List (String × String))
    (file : List EnvFile.Variable) : Fields :=
  let around := environment.map fun entry => (entry.1, some entry.2)
  fieldNames.filterMap fun field =>
    (((given.get? field).or (lookUp? around field)).or (lookUp? file field)).map
      fun value => (field, value)

/-- The settings that the layers make. -/
def layered (given : Fields) (environment : List (String × String))
    (file : List EnvFile.Variable) : Except (List Issue) Settings :=
  ofFields (layers given environment file)

end Settings

namespace Options

/-- The names of the fields. -/
def fieldNames : List String := "component_mapping" :: Settings.fieldNames

/-- Reads what a custom name stands for: a standard kind, or a name as text or as bytes. -/
def readTarget : Value → Except IssueKind NameTarget
  | .member kind => .ok (.kind kind)
  | .text name => .ok (.name name)
  | .bytes content =>
    match String.fromUTF8? ⟨content.toArray⟩ with
    | some name => .ok (.name name)
    | none => .error .noUnicode
  | _ => .error .noText

/-- The issues of custom names: one that stands for nothing is neither a kind nor a text. -/
def nameIssues (fields : Fields) : List Issue :=
  fields.flatMap fun (name, value) =>
    match readTarget value with
    | .ok _ => []
    | .error kind =>
      [⟨"component_mapping." ++ name ++ ".enum[NodeType]", .noKind⟩,
        ⟨"component_mapping." ++ name ++ ".str", kind⟩]

/-- The custom names and what they stand for. -/
def namePairs (fields : Fields) : Naming :=
  fields.filterMap fun (name, value) => (readTarget value).toOption.map fun target => (name, target)

/-- Reads the custom names of elements. -/
def readMapping (values : Fields) : Except (List Issue) (Option Naming) :=
  match values.get "component_mapping" with
  | .null => .ok none
  | .mapping fields =>
    if (nameIssues fields).isEmpty then .ok (some (namePairs fields))
    else .error (nameIssues fields)
  | _ => .error [⟨"component_mapping", .noMapping⟩]

/-- The issues of names that are no fields. -/
def unknownNames (values : Fields) : List Issue :=
  (values.filter fun field => !fieldNames.contains field.1).map fun field =>
    ⟨field.1, .unknownField⟩

/-- Reads options from values; all issues are reported, by field. -/
def ofFields (values : Fields) : Except (List Issue) Options :=
  match Settings.ofFields values, readMapping values, unknownNames values with
  | .ok settings, .ok names, [] => .ok { settings with names := names }
  | settings, names, unknown =>
    let issues {β : Type} : Except (List Issue) β → List Issue
      | .ok _ => []
      | .error issues => issues
    .error ((issues settings ++ issues names ++ unknown).mergeSort Issue.before)

/-- Lays overrides over settings. -/
def ofSettings (settings : Settings) (overrides : Fields) : Except (List Issue) Options :=
  ofFields (overrides.foldl (fun values field => Fields.set field.1 field.2 values)
    settings.toFields)

/-- The custom names in force. -/
def naming (options : Options) : Naming := options.names.getD []

end Options

end Receipt
