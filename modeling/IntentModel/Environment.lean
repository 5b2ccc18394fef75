import IntentModel.FileStore
import IntentModel.Text.Blank
import IntentModel.Text.Lowercase
import IntentModel.Text.Utf8

/-! # Environment variables

The variables of a process, and files that set variables in lines `NAME=value`. A value may stand
between quotes, where it may go over several lines and hold escapes; without quotes it ends at a
comment. A value may refer to other variables as `${NAME}` or `${NAME:-default}`. A line that is not
understood is passed over. Variables that the process has already win over those of a file, and one
of them can keep the process from taking any from a file.
-/

namespace IntentModel

/-- The variables of a process. -/
abbrev Environment := List (Text × Text)

namespace Environment

/-- Blanks that do not end a line. -/
def isInlineBlank (c : CodePoint) : Bool :=
  isBlank c && c != '\n' && c != '\r'

/-- Characters that do not end a line. -/
def isInline (c : CodePoint) : Bool :=
  c != '\n' && c != '\r'

/-- What a line sets: a variable, with its value if it has one. -/
structure Assignment where
  name : Text
  value : Option Text
deriving DecidableEq, Repr

/-- Splits off what stands before the closing quote. A quote behind a backslash closes only when
no other one does. -/
def closeQuote? (quote : CodePoint) : Text → Option (Text × Text)
  | [] => none
  | .char '\\' :: c :: text =>
    if c == quote then
      match closeQuote? quote text with
      | some (value, rest) => some (.char '\\' :: c :: value, rest)
      | none => some ([.char '\\'], text)
    else (closeQuote? quote (c :: text)).map fun (value, rest) => (.char '\\' :: value, rest)
  | c :: text =>
    if c == quote then some ([], text)
    else (closeQuote? quote text).map fun (value, rest) => (c :: value, rest)

/-- The character that an escape stands for between double quotes. -/
def escaped? : CodePoint → Option CodePoint
  | .char '\\' => some '\\'
  | .char '\x27' => some '\x27'
  | .char '\x22' => some '\x22'
  | .char 'a' => some '\x07'
  | .char 'b' => some '\x08'
  | .char 'f' => some '\x0c'
  | .char 'n' => some '\n'
  | .char 'r' => some '\r'
  | .char 't' => some '\t'
  | .char 'v' => some '\x0b'
  | _ => none

/-- The character that an escape stands for between single quotes. -/
def escapedPlain? (c : CodePoint) : Option CodePoint :=
  if c == '\\' || c == '\x27' then some c else none

def unescape (read? : CodePoint → Option CodePoint) : Text → Text
  | .char '\\' :: c :: text =>
    match read? c with
    | some d => d :: unescape read? text
    | none => .char '\\' :: unescape read? (c :: text)
  | c :: text => c :: unescape read? text
  | [] => []

/-- The part of a value without quotes before a comment, which begins behind a blank. -/
def beforeComment : Text → Text
  | [] => []
  | c :: text =>
    if isBlank c && (text.dropWhile isBlank).head? == some '#' then []
    else c :: beforeComment text

/-- Reads a value and what stands behind it. -/
def readValue? : Text → Option (Text × Text)
  | .char '\x27' :: text => (closeQuote? '\x27' text).map fun (value, rest) =>
      (unescape escapedPlain? value, rest)
  | .char '\x22' :: text => (closeQuote? '\x22' text).map fun (value, rest) =>
      (unescape escaped? value, rest)
  | text =>
    some (Text.trimEnd (beforeComment (text.takeWhile isInline)), text.dropWhile isInline)

/-- The rest of a text behind the end of a line, before which only blanks may stand. -/
def endLine? (text : Text) : Option Text :=
  match text.dropWhile isInlineBlank with
  | [] => some []
  | .char '\r' :: .char '\n' :: text => some text
  | .char '\r' :: text => some text
  | .char '\n' :: text => some text
  | _ => none

/-- The rest of a text behind the line that begins it. -/
def skipLine (text : Text) : Text :=
  match text.dropWhile isInline with
  | .char '\r' :: .char '\n' :: text => text
  | _ :: text => text
  | [] => []

/-- Moves over a comment and the blanks before it, if there is one. -/
def skipComment (text : Text) : Text :=
  match text.dropWhile isInlineBlank with
  | .char '#' :: rest => rest.dropWhile isInline
  | _ => text

/-- Moves over the word `export` with blanks behind it. -/
def skipExport (text : Text) : Text :=
  match Text.after? "export" text with
  | some (c :: rest) => if isInlineBlank c then rest.dropWhile isInlineBlank else text
  | _ => text

/-- Reads the name of a variable; a comment has none. -/
def readName? : Text → Option (Option Text × Text)
  | .char '#' :: text => some (none, .char '#' :: text)
  | .char '\x27' :: text =>
    let name := text.takeWhile (· != .char '\x27')
    match text.dropWhile (· != .char '\x27') with
    | .char '\x27' :: rest => if name.isEmpty then none else some (some name, rest)
    | _ => none
  | text =>
    let inName (c : CodePoint) : Bool := c != '=' && c != '#' && !isBlank c
    let name := text.takeWhile inName
    if name.isEmpty then none else some (some name, text.dropWhile inName)

/-- Reads what a line sets; where it is not understood, only what is left of the text. -/
def readAssignment (text : Text) : Option Assignment × Text :=
  let start := skipExport text
  match readName? start with
  | none => (none, skipLine start)
  | some (name, rest) =>
    let rest := rest.dropWhile isInlineBlank
    let value? : Option (Option Text × Text) :=
      match rest with
      | .char '=' :: rest => (readValue? (rest.dropWhile isInlineBlank)).map fun (value, rest) =>
          (some value, rest)
      | rest => some (none, rest)
    match value? with
    | none => (none, skipLine (match rest with
        | .char '=' :: rest => rest.dropWhile isInlineBlank
        | rest => rest))
    | some (value, rest) =>
      let rest := skipComment rest
      match endLine? rest with
      | none => (none, skipLine rest)
      | some rest => (name.map fun name => ⟨name, value⟩, rest)

/-- Reads the assignments of a text. The first argument bounds their number. -/
def readAssignments : Nat → Text → List Assignment
  | 0, _ => []
  | count + 1, text =>
    match text.dropWhile isBlank with
    | [] => []
    | c :: text =>
      match readAssignment (c :: text) with
      | (some assignment, rest) => assignment :: readAssignments count rest
      | (none, rest) => readAssignments count rest

/-- Reads the reference that begins a text: its length, its name and its default. -/
def reference? (text : Text) : Option (Nat × Text × Text) :=
  match Text.after? [.char '$', .char '\x7b'] text with
  | none => none
  | some text =>
    let name := text.takeWhile fun c : CodePoint => c != '\x7d' && c != ':'
    match text.drop name.length with
    | .char '\x7d' :: _ => some (name.length + 3, name, [])
    | .char ':' :: .char '-' :: rest =>
      let fallback := rest.takeWhile (· != .char '\x7d')
      if rest.contains '\x7d' then some (name.length + fallback.length + 5, name, fallback)
      else none
    | _ => none

def references : Text → List Text
  | [] => []
  | c :: value =>
    match reference? (c :: value) with
    | some (_, name, _) => name :: references value
    | none => references value

/-- The names of the variables that a text of assignments sets or refers to. -/
def mentioned (text : Text) : List Text :=
  (readAssignments (text.length + 1) text).flatMap fun assignment =>
    assignment.name :: references (assignment.value.getD [])

def get? (environment : Environment) (name : Text) : Option Text :=
  environment.lookup name

/-- A value with its references replaced. The process comes before the assignments so far; a
variable without value is empty. -/
def resolve (environment : Environment) (assigned : List Assignment) (value : Text) : Text :=
  value.substitute fun rest =>
    (reference? rest).map fun (length, name, fallback) =>
      match environment.get? name, assigned.find? (·.name == name) with
      | some value, _ => (length, value)
      | none, some assignment => (length, assignment.value.getD [])
      | none, none => (length, fallback)

/-- Puts an assignment; a name that is there keeps its place. -/
def putAssignment (assignment : Assignment) : List Assignment → List Assignment
  | [] => [assignment]
  | earlier :: assigned =>
    if earlier.name = assignment.name then assignment :: assigned
    else earlier :: putAssignment assignment assigned

/-- The assignments of a text by name, with references replaced. -/
def assignments (environment : Environment) (text : Text) : List Assignment :=
  (readAssignments (text.length + 1) text).foldl
    (fun assigned assignment =>
      let value := assignment.value.map (resolve environment assigned)
      putAssignment { assignment with value } assigned)
    []

inductive LoadError
  /-- The file is required and is not there. -/
  | missing (path : Text)
  /-- The file is no text. -/
  | notText
  /-- A variable has an equals sign in its name, or the character that ends texts for the system in
  its name or its value. -/
  | unsettable (name : Text)
deriving DecidableEq, Repr

/-- Whether a process can have a variable with this name and value. -/
def isSettable (name value : Text) : Bool :=
  !(name.contains '=' || name.contains '\x00' || value.contains '\x00')

/-- Sets the variable of an assignment, unless the process has it or it has no value. -/
def set (environment : Environment) (assignment : Assignment) : Except LoadError Environment :=
  match assignment.value, environment.get? assignment.name with
  | some value, none =>
    if isSettable assignment.name value then .ok (environment ++ [(assignment.name, value)])
    else .error (.unsettable assignment.name)
  | _, _ => .ok environment

/-- Sets the variables that the process does not have. -/
def extend (environment : Environment) (assigned : List Assignment) :
    Except LoadError Environment :=
  assigned.foldlM set environment

/-- The text of the error, if it has one. -/
def LoadError.message? : LoadError → Option Text
  | missing path => some (".env file not found at expected path: " ++ path)
  | notText => none
  | unsettable _ => none

/-- Where variables are looked for if nothing else is said. -/
def defaultFile : Text :=
  ".env"

/-- The variable that says whether files of variables are left alone. -/
def offSwitch : Text :=
  "PYTHON_DOTENV_DISABLED"

/-- Whether a value says yes, in capital or small letters. The long s is a small letter of its own
for the same letter. -/
def isYes (value : Text) : Bool :=
  let letters := Text.lowerAscii (value.map fun c : CodePoint => if c == 'ſ' then .char 's' else c)
  (["1", "true", "t", "yes", "y"] : List Text).contains letters

/-- Whether files of variables are left alone. -/
def leavesFiles (environment : Environment) : Bool :=
  (environment.get? offSwitch).any isYes

/-- Sets the variables of a file, and says whether the file had any. Nothing changes where files are
left alone, or without the file, unless it is required. -/
def loadFile (store : FileStore) (source : Option Text) (required : Bool)
    (environment : Environment) : Except LoadError (Bool × Environment) :=
  let path := Path.ofText (source.getD defaultFile)
  match store.at? path with
  | none => if required then .error (.missing path.text) else .ok (false, environment)
  | some .directory => .ok (false, environment)
  | some (.file bytes) =>
    if environment.leavesFiles then .ok (false, environment)
    else
      match Text.ofUtf8? bytes with
      | none => .error .notText
      | some text =>
        let assigned := assignments environment text.withLineFeeds
        (environment.extend assigned).map fun environment => (!assigned.isEmpty, environment)

end Environment

end IntentModel
