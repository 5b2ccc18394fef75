import IntentModel.FileStore
import IntentModel.Settings
import IntentModel.Text.DecimalDigit

/-! # Arguments of the command line

A call names the training files and may name a culture, an output file, a policy for keys that
several files define, and ask for a timestamp. The files stand together, before, between or behind
the options. A long option may be shortened as long as it is the only one that begins so, and takes
its value behind an equals sign or as the next argument; a short one may have its value attached.
`--` ends the options. Of repeated options the last one counts.
-/

namespace IntentModel

/-- The options of the command line. -/
inductive Switch
  | help
  | culture
  | output
  | policy
  | timestamp
deriving DecidableEq, Repr

namespace Switch

def names : List (Text × Switch) :=
  [("-h", help), ("--help", help), ("-c", culture), ("--culture", culture), ("-o", output),
    ("--output", output), ("--conflict-policy", policy), ("--timestamp", timestamp)]

/-- The option that is written out in full. -/
def ofName? (written : Text) : Option Switch :=
  names.lookup written

def beginningWith (start : Text) : List Switch :=
  (names.filter fun (name, _) => name.beginsWith start).map (·.2)

def hasValue : Switch → Bool
  | culture => true
  | output => true
  | policy => true
  | _ => false

end Switch

inductive Argument
  /-- A word that is no option. -/
  | word (text : Text)
  /-- An option, what is attached to it, and whether that is joined to it without an equals sign. -/
  | switch (name : Switch) (attached : Option Text) (joined : Bool)
  /-- Something that looks like an option and is none. -/
  | unknown
  /-- The mark that ends the options. -/
  | separator
deriving DecidableEq, Repr

namespace Argument

/-- Whether a text is written like a negative number, with digits of any script. A line feed may
stand behind it. -/
def isNegativeNumber : Text → Bool
  | .char '-' :: number =>
    let isDigit (c : CodePoint) : Bool := (decimalDigit? c).isSome
    let number := if number.getLast? == some '\n' then number.dropLast else number
    let fraction := number.dropWhile isDigit
    (!number.isEmpty && number.all isDigit) ||
      (fraction.head? == some '.' && fraction.length > 1 && (fraction.drop 1).all isDigit)
  | _ => false

/-- The option that a text with a hyphen at its beginning is short for; nothing if it is short for
several. -/
def abbreviated? (text : Text) : Option (List Argument) :=
  match text with
  | .char '-' :: .char '-' :: _ =>
    let (start, attached) := match text.cutAt? [.char '='] with
      | some (start, value) => (start, some value)
      | none => (text, none)
    some ((Switch.beginningWith start).map fun found => .switch found attached false)
  | .char '-' :: c :: value =>
    let full := (Switch.beginningWith text).map fun found => Argument.switch found none false
    match Switch.ofName? ['-', c] with
    | some found => some (.switch found (some value) true :: full)
    | none => some full
  | _ => none

/-- An argument that may be an option; it is ill-formed if it is short for several options. -/
def ofText? (text : Text) : Option Argument :=
  if text = [.char '-', .char '-'] then some .separator
  else if !text.beginsWith [.char '-'] || text.length = 1 then some (.word text)
  else
    let attached? := (text.cutAt? [.char '=']).bind fun (name, value) =>
      (Switch.ofName? name).map fun found => Argument.switch found (some value) false
    match Switch.ofName? text, attached?, abbreviated? text with
    | some found, _, _ => some (.switch found none false)
    | none, some argument, _ => some argument
    | none, none, some [argument] => some argument
    | none, none, some (_ :: _ :: _) => none
    | none, none, _ =>
      if isNegativeNumber text || text.contains ' ' then some (.word text) else some .unknown

/-- The arguments of a call. Behind the mark that ends the options all are words. -/
def ofTexts? : List Text → Option (List Argument)
  | [] => some []
  | text :: texts => do
    let argument ← ofText? text
    if argument = .separator then return .separator :: texts.map .word
    else return argument :: (← ofTexts? texts)

end Argument

/-- What a call asks for. -/
structure Request where
  files : List Path
  culture : Option Text
  output : Path
  policy : Option ConflictPolicy
  timestamp : Bool
deriving DecidableEq, Repr

namespace Request

/-- Where the model goes if nothing is said. -/
def defaultOutput : Path :=
  .ofText "models/luis_model.json"

/-- A call as far as it has been read. -/
structure Draft where
  files : Option (List Text)
  culture : Option Text
  output : Option Text
  policy : Option ConflictPolicy
  timestamp : Bool
  /-- Something was said that is not understood. -/
  spoiled : Bool

def Draft.start : Draft :=
  ⟨none, none, none, none, false, false⟩

/-- How the reading of arguments ends. -/
inductive Reading
  /-- The call is understood. -/
  | request (request : Request)
  /-- The call asks for help. -/
  | help
  /-- The call is not well-formed. -/
  | usage
deriving DecidableEq, Repr

/-- Gives an option its value; there are only two policies. -/
def Draft.set (draft : Draft) (switch : Switch) (value : Text) : Option Draft :=
  match switch with
  | .culture => some { draft with culture := some value }
  | .output => some { draft with output := some value }
  | .policy => (ConflictPolicy.ofName? value).map fun policy => { draft with policy := some policy }
  | _ => none

/-- The file that stands for an argument, if it is a word or the mark that ends the options. -/
def fileOf? : Argument → Option (Option Text)
  | .word text => some (some text)
  | .separator => some none
  | _ => none

def Draft.finish (draft : Draft) : Reading :=
  match draft.files with
  | some files =>
    if draft.spoiled then .usage
    else
      .request
        { files := files.map .ofText
          culture := draft.culture
          output := (draft.output.map .ofText).getD defaultOutput
          policy := draft.policy
          timestamp := draft.timestamp }
  | none => .usage

/-- How a call for help ends that has further short options behind it in one word. The last of them
may take the next argument as its value, if that can be one. -/
def readCluster (valueFollows : Bool) : Text → Reading
  | [] => .help
  | .char '-' :: _ => .usage
  | .char '=' :: _ => .usage
  | c :: rest =>
    match Switch.ofName? ['-', c] with
    | none => .help
    | some .help => readCluster valueFollows rest
    | some _ => if rest.isEmpty && !valueFollows then .usage else .help

/-- Reads arguments. The first argument bounds their number. -/
def readFrom : Nat → Draft → List Argument → Reading
  | 0, _, _ => .usage
  | _, draft, [] => draft.finish
  | count + 1, draft, .switch switch attached joined :: arguments =>
    match switch.hasValue, attached, arguments with
    | true, some value, _ =>
      match draft.set switch value with
      | some draft => readFrom count draft arguments
      | none => .usage
    | true, none, .word value :: arguments =>
      match draft.set switch value with
      | some draft => readFrom count draft arguments
      | none => .usage
    | true, none, _ => .usage
    | false, none, _ =>
      if switch = .help then .help
      else readFrom count { draft with timestamp := true } arguments
    | false, some value, _ =>
      if joined then readCluster (arguments.head?.bind fileOf?).join.isSome value else .usage
  | count + 1, draft, .unknown :: arguments =>
    readFrom count { draft with spoiled := true } arguments
  | count + 1, draft, argument :: arguments =>
    let row := argument :: arguments.takeWhile fun next => (fileOf? next).isSome
    let rest := arguments.dropWhile fun next => (fileOf? next).isSome
    let files := row.filterMap fun next => (fileOf? next).join
    if draft.files.isSome || files.isEmpty then
      readFrom count { draft with spoiled := true } rest
    else readFrom count { draft with files := some files } rest

/-- Reads the arguments of a call. -/
def ofArguments (texts : List Text) : Reading :=
  match Argument.ofTexts? texts with
  | none => .usage
  | some arguments => readFrom (arguments.length + 1) .start arguments

end Request

end IntentModel
