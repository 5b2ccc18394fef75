import IntentModel.CommandLine.Arguments
import IntentModel.Compilation
import IntentModel.Corpus.Source
import IntentModel.Settings.Load
import IntentModel.Value.Json

/-! # Building a model from the command line

A build reads the variables and the settings, loads and compiles the training files, and writes the
model. `Request.run` is the whole effect of a call as a function: from the store of files, the
environment and the clock to what is printed, the exit status and the store afterwards.

Errors of the corpus are reported and nothing is written. Other failures leave the program as they
are; if the model turns out to hold a value that cannot be written, the output file has been opened
already and is left with the part before that value. What is printed goes out in UTF-8, where a text with a
surrogate has no form: as output it cannot be printed, among the errors each surrogate is spelled out.
-/

namespace IntentModel

/-- A failure that the program does not report as an error of the corpus. -/
inductive BuildFailure
  | environment (error : Environment.LoadError)
  | settings (error : Settings.LoadError)
  | badScalar (fault : Yaml.Fault)
  | badPath (fault : FileFault)
  | tooManyDigits
  | builtinKey (key : Value)
  | tooDeep
  | output (fault : FileFault)
  /-- The model holds a value that cannot be written. -/
  | unwritable (reason : Unwritable)
  /-- The model was written, but what is to be printed about it cannot be printed further than this. -/
  | unprintable (printed : Text)
deriving Repr

/-- How a call ends. -/
inductive Outcome
  /-- The arguments are not well-formed. -/
  | usage
  /-- Help was asked for. -/
  | help
  /-- The corpus has an error, which was reported. -/
  | reported (message : Text)
  /-- The model was written, and this summary printed. -/
  | built (summary : Text)
  /-- The program failed otherwise. -/
  | failed (failure : BuildFailure)
deriving Repr

/-- How a call ends, and the files it leaves behind. -/
structure Run where
  outcome : Outcome
  store : FileStore
deriving Repr

namespace Outcome

/-- The exit status; a failure that is not reported has the one of a reported error. -/
def exitStatus : Outcome → Nat
  | usage => 2
  | help => 0
  | reported _ => 1
  | built _ => 0
  | failed _ => 1

def output : Outcome → Text
  | built summary => summary
  | failed (.unprintable printed) => printed
  | _ => []

/-- A code point as it is printed among errors. -/
def spelled : CodePoint → Text
  | .char c => [.char c]
  | .surrogate index => "\\u" ++ Text.ofNatHex 4 (0xD800 + index)

def errors : Outcome → Text
  | reported message =>
    List.flatMap spelled (("Not able to compile language model\nError: " : Text) ++ message ++ [.char '\n'])
  | _ => []

end Outcome

/-- Why no model comes about: an error of the corpus, or another failure. -/
inductive BuildError
  | reported (message : Text)
  | failed (failure : BuildFailure)
deriving Repr

namespace BuildError

/-- An error on the way from files to a corpus. -/
def ofLoad : Corpus.LoadError → BuildError
  | .source (.badScalar fault) => .failed (.badScalar fault)
  | .source (.badPath fault) => .failed (.badPath fault)
  | .source .tooManyDigits => .failed .tooManyDigits
  | .source error => .reported (error.message?.getD [])
  | .corpus (.shape error) => .reported error.message
  | .corpus (.builtinKey key) => .failed (.builtinKey key)
  | .corpus .tooManyDigits => .failed .tooManyDigits

/-- An error on the way from a corpus to a model. -/
def ofCompilation : CompilationError → BuildError
  | .expansion (.tooDeep _) => .failed .tooDeep
  | error => .reported error.message

def outcome : BuildError → Outcome
  | reported message => .reported message
  | failed failure => .failed failure

end BuildError

namespace Request

/-- The model of the files that a request names. -/
def compile (request : Request) (store : FileStore) (settings : Settings) (now : Moment) :
    Except BuildError Model := do
  let policy := request.policy.getD settings.conflictPolicy
  let corpus ← (Corpus.load store policy (request.files.map (·.text))).mapError .ofLoad
  let generatedAt := if request.timestamp then some now else none
  (corpus.compile settings request.culture generatedAt).mapError .ofCompilation

/-- The settings of a request: those that come with the library, with the variables of the process
and of the file of variables. -/
def settings (store : FileStore) (environment : Environment) : Except BuildFailure Settings := do
  let (_, environment) ← (environment.loadFile store none false).mapError .environment
  (Settings.load store none environment).mapError .settings

def summaryLine (title : Text) (value : Text) : Text :=
  title ++ (": " : Text) ++ value ++ [.char '\n']

/-- The summary of a model that was written, before the line for the output. -/
def summaryHead (model : Model) : Text :=
  let rule := List.replicate 40 (.char '=') ++ [.char '\n']
  rule ++ ("LUIS Model Build Summary\n" : Text) ++ rule ++
    summaryLine "Culture     " model.culture ++
    summaryLine "Intents     " (Text.ofNat model.intents.length) ++
    summaryLine "Entities    " (Text.ofNat model.entities.length) ++
    summaryLine "Features    " (Text.ofNat model.features.length) ++
    summaryLine "Utterances  " (Text.ofNat model.utterances.length)

/-- Prints the summary of a model that was written, and whose culture can be printed therefore. -/
def report (output : Path) (model : Model) : Outcome :=
  if output.text.chars?.isSome then
    .built (summaryHead model ++ summaryLine "Output      " output.text)
  else .failed (.unprintable (summaryHead model))

/-- Writes a model. The directories of the output are made first, and stay where no file can be put
into them; then the file is emptied and filled as far as the model can be written. -/
def save (output : Path) (store : FileStore) (model : Model) : Run :=
  match store.makeDirectories output.parent with
  | .error halt => ⟨.failed (.output halt.fault), halt.store⟩
  | .ok store =>
    let written := model.toValue.toJson
    let content := if written.fault.isNone then written.text ++ ['\n'] else written.text
    match store.write output (Text.toUtf8 (String.ofList content)), written.fault with
    | .error fault, _ => ⟨.failed (.output fault), store⟩
    | .ok store, some reason => ⟨.failed (.unwritable reason), store⟩
    | .ok store, none => ⟨report output model, store⟩

def build (request : Request) (store : FileStore) (environment : Environment) (now : Moment) :
    Run :=
  match settings store environment with
  | .error failure => ⟨.failed failure, store⟩
  | .ok settings =>
    match request.compile store settings now with
    | .error error => ⟨error.outcome, store⟩
    | .ok model => save request.output store model

/-- The paths that a call looks at. -/
def pathsOf (arguments : List Text) : List Path :=
  match ofArguments arguments with
  | .request request =>
    .ofText Environment.defaultFile :: request.output :: request.files
  | _ => []

/-- Carries out a call with its arguments. -/
def run (arguments : List Text) (store : FileStore) (environment : Environment) (now : Moment) :
    Run :=
  match ofArguments arguments with
  | .usage => ⟨.usage, store⟩
  | .help => ⟨.help, store⟩
  | .request request => request.build store environment now

end Request

end IntentModel
