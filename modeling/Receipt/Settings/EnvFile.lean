import Receipt.Text.Lines

/-!
# Environment files

A file of variables has a binding on each line: an optional `export`, a name, an equals sign and a
value. A value stands in single or double quotes, where it may run over several lines and hold
escapes, or reaches to the end of its line, without a comment behind a blank. A line that is no
binding is passed over. In a value, a name in braces behind a dollar sign stands for the value of
an earlier binding or of the environment, or for the text behind `:-` when there is none.
-/

namespace Receipt.EnvFile

open Receipt.Character (isBlank)

/-- A blank that does not end a line. -/
def isInnerBlank (c : Char) : Bool := isBlank c && c != '\n' && c != '\r'

/-- Makes every line end a single line feed. -/
def levelLineEnds : List Char → List Char
  | [] => []
  | '\r' :: '\n' :: rest => '\n' :: levelLineEnds rest
  | c :: rest => (if c = '\r' then '\n' else c) :: levelLineEnds rest

/-- A quoted text behind its opening quote, and what follows the closing one. A quote behind a
backslash closes only when no other does. -/
def readQuoted (quote : Char) : List Char → Option (List Char × List Char)
  | [] => none
  | '\\' :: c :: rest =>
    if c = quote then
      match readQuoted quote rest with
      | some (text, after) => some ('\\' :: c :: text, after)
      | none => some (['\\'], rest)
    else (readQuoted quote (c :: rest)).map fun (text, after) => ('\\' :: text, after)
  | c :: rest =>
    if c = quote then some ([], rest)
    else (readQuoted quote rest).map fun (text, after) => (c :: text, after)

/-- The character that an escape in double quotes stands for. -/
def escaped? : Char → Option Char
  | '\\' => some '\\'
  | '\x27' => some '\x27'
  | '"' => some '"'
  | 'a' => some '\x07'
  | 'b' => some '\x08'
  | 'f' => some '\x0c'
  | 'n' => some '\n'
  | 'r' => some '\r'
  | 't' => some '\t'
  | 'v' => some '\x0b'
  | _ => none

/-- Puts in the characters that escapes stand for. -/
def unescape (escape? : Char → Option Char) : List Char → List Char
  | [] => []
  | '\\' :: c :: rest =>
    match escape? c with
    | some meant => meant :: unescape escape? rest
    | none => '\\' :: unescape escape? (c :: rest)
  | c :: rest => c :: unescape escape? rest

/-- The escapes in single quotes. -/
def singleEscaped? (c : Char) : Option Char := if c = '\\' ∨ c = '\x27' then some c else none

/-- Cuts a text before the blanks in front of a number sign. -/
def beforeComment (afterBlank : Bool) : List Char → List Char
  | [] => []
  | c :: rest =>
    if afterBlank && c == '#' then [] else c :: beforeComment (isBlank c) rest

/-- Removes blanks at the end. -/
def stripEnd (text : List Char) : List Char := (text.reverse.dropWhile isBlank).reverse

/-- The rest of a line, and what follows its end. -/
def restOfLine (text : List Char) : List Char × List Char :=
  (text.takeWhile (· != '\n'), (text.dropWhile (· != '\n')).drop 1)

/-- A value behind its equals sign, and what follows it. -/
def readValue (text : List Char) : Option (List Char × List Char) :=
  match text with
  | '\x27' :: rest =>
    (readQuoted '\x27' rest).map fun (value, after) => (unescape singleEscaped? value, after)
  | '"' :: rest => (readQuoted '"' rest).map fun (value, after) => (unescape escaped? value, after)
  | rest =>
    some (stripEnd (beforeComment false (rest.takeWhile (· != '\n'))), rest.dropWhile (· != '\n'))

/-- A name, and what follows it; a comment has none. -/
def readName (text : List Char) : Option (Option (List Char) × List Char) :=
  match text with
  | '#' :: _ => some (none, text)
  | '\x27' :: rest =>
    let name := rest.takeWhile (· != '\x27')
    if name.isEmpty then none
    else
      match rest.dropWhile (· != '\x27') with
      | [] => none
      | _ :: after => some (some name, after)
  | rest =>
    let isNameChar (c : Char) : Bool := c != '=' && c != '#' && !isBlank c
    let name := rest.takeWhile isNameChar
    if name.isEmpty then none else some (some name, rest.dropWhile isNameChar)

/-- Leaves out `export` and the blanks behind it. -/
def dropExport (text : List Char) : List Char :=
  match text with
  | 'e' :: 'x' :: 'p' :: 'o' :: 'r' :: 't' :: rest =>
    if (rest.head?.map isInnerBlank).getD false then rest.dropWhile isInnerBlank else text
  | _ => text

/-- Leaves out a comment and the end of a line; nothing else may stand there. -/
def readLineEnd (text : List Char) : Option (List Char) :=
  let behind := text.dropWhile isInnerBlank
  let behind :=
    match behind with
    | '#' :: _ => behind.dropWhile (· != '\n')
    | _ => behind
  match behind with
  | [] => some []
  | '\n' :: rest => some rest
  | _ => none

/-- A binding: a name and the value behind an equals sign, when there is one. -/
abbrev Binding := List Char × Option (List Char)

/-- Reads an equals sign and the value behind it, when there is one. A value that does not end leaves
the text behind the sign. -/
def readAssigned (text : List Char) : Except (List Char) (Option (List Char) × List Char) :=
  match text with
  | '=' :: behind =>
    let behind := behind.dropWhile isInnerBlank
    match readValue behind with
    | some (value, rest) => .ok (some value, rest)
    | none => .error behind
  | _ => .ok (none, text)

/-- Reads the binding at the front of a text, and what follows its line. Where there is none, the
text is given from the place on where the reading stopped. -/
def readBinding (text : List Char) : Except (List Char) (Option Binding × List Char) :=
  match readName (dropExport text) with
  | none => .error (dropExport text)
  | some (name, rest) =>
    match readAssigned (rest.dropWhile isInnerBlank) with
    | .error rest => .error rest
    | .ok (value, rest) =>
      match readLineEnd rest with
      | some after => .ok (name.map fun name => (name, value), after)
      | none => .error rest

/-- Reads bindings to the end of a text, passing over the rest of a line where reading stopped. Every
step takes at least one character, so the fuel is the length of the text. -/
def readBindings : Nat → List Char → List Binding
  | 0, _ => []
  | fuel + 1, text =>
    match text.dropWhile isBlank with
    | [] => []
    | c :: rest =>
      match readBinding (c :: rest) with
      | .ok (binding, after) => binding.toList ++ readBindings fuel after
      | .error rest => readBindings fuel (restOfLine rest).2

/-- Puts in the values of names in braces behind a dollar sign. The fuel is the length of the
text. -/
def expand (valueOf : String → Option String) : Nat → List Char → List Char
  | 0, text => text
  | _, [] => []
  | fuel + 1, '$' :: '\x7b' :: rest =>
    let name := rest.takeWhile fun c => c != '\x7d' && c != ':'
    let known := valueOf (String.ofList name)
    match rest.drop name.length with
    | '\x7d' :: after => (known.getD "").toList ++ expand valueOf fuel after
    | ':' :: '-' :: behind =>
      let fallback := behind.takeWhile (· != '\x7d')
      match behind.drop fallback.length with
      | '\x7d' :: after =>
        ((known.map String.toList).getD fallback) ++ expand valueOf fuel after
      | _ => '$' :: '\x7b' :: expand valueOf fuel rest
    | _ => '$' :: '\x7b' :: expand valueOf fuel rest
  | fuel + 1, c :: rest => c :: expand valueOf fuel rest

/-- A variable of a file: its name, and its value when the binding has one. -/
abbrev Variable := String × Option String

/-- Gives a variable a value, in its old place when it has one. -/
def setVariable (name : String) (value : Option String) : List Variable → List Variable
  | [] => [(name, value)]
  | (other, old) :: rest =>
    if other = name then (name, value) :: rest else (other, old) :: setVariable name value rest

/-- The value that a name in braces stands for behind the bindings that are `done`. -/
def valueOf? (environment : List (String × String)) (done : List Variable) (name : String) :
    Option String :=
  match done.lookup name with
  | some earlier => some (earlier.getD "")
  | none => environment.lookup name

/-- Adds bindings to the variables of those before them, with the names in braces put in. The last
binding of a name counts, and one without a value leaves the name without. -/
def resolve (environment : List (String × String)) (done : List Variable) :
    List Binding → List Variable
  | [] => done
  | (name, value) :: rest =>
    let value := value.map fun text =>
      String.ofList (expand (valueOf? environment done) (text.length + 1) text)
    resolve environment (setVariable (String.ofList name) value done) rest

/-- The variables of a file, each name once and in the place of its first binding. -/
def read (environment : List (String × String)) (file : String) : List Variable :=
  let text := levelLineEnds file.toList
  resolve environment [] (readBindings (text.length + 1) text)

end Receipt.EnvFile
