import IntentModel.Environment
import IntentModel.Settings
import IntentModel.Yaml.Load

/-! # Settings from a file and the environment

Settings are read from a file, or from the ones that come with the library, and some fields can be
overridden by environment variables. A variable that is empty overrides nothing.
-/

namespace IntentModel.Settings

inductive LoadError
  /-- There is no file. -/
  | missing (path : Text)
  /-- The file cannot be read. -/
  | unreadable (fault : FileFault)
  /-- The file has no value. -/
  | yaml (fault : Yaml.Fault)
  /-- The file holds no mapping from names. -/
  | notFields
  /-- A field has no value of its type. -/
  | badField
deriving DecidableEq, Repr

def LoadError.message? : LoadError → Option Text
  | missing path => some ("Compiler config not found: " ++ path)
  | _ => none

/-- The fields that variables override. -/
def overrides : List (Text × Text) :=
  [("LUIS_SCHEMA_VERSION", "luis_schema_version"), ("LUIS_MODEL_NAME", "model_name"),
    ("LUIS_MODEL_DESCRIPTION", "model_description"), ("LUIS_CULTURE", "default_culture"),
    ("LUIS_CONFLICT_POLICY", "conflict_policy")]

/-- The cultures that the service accepts. -/
def serviceCultures : List Text :=
  ["en-us", "es-es", "es-mx", "fr-fr", "fr-ca", "it-it", "de-de", "pt-br", "nl-nl", "zh-cn",
    "ja-jp", "ko-kr"]

/-- The fields that come with the library. -/
def packaged : Entries :=
  [(.text "luis_schema_version", .text "1.3.0"), (.text "model_name", .text "tef"),
    (.text "model_description", .text "Bot Model"), (.text "default_culture", .text "en-us"),
    (.text "supported_cultures", .list (serviceCultures.map .text)),
    (.text "max_intent_name_length", .int 50), (.text "conflict_policy", .text "override")]

/-- The fields with those that the environment overrides. -/
def override (environment : Environment) (entries : Entries) : Entries :=
  overrides.foldl
    (fun entries (name, field) =>
      match environment.get? name with
      | none => entries
      | some [] => entries
      | some (c :: value) => entries.put (.text field) (.text (c :: value)))
    entries

/-- The fields in a file; an empty value counts as no fields. -/
def fieldsOf (store : FileStore) (source : Text) : Except LoadError Entries := do
  let path := Path.ofText source
  if !(← (store.has? path).mapError .unreadable) then throw (.missing path.text)
  let bytes ← (store.read path).mapError .unreadable
  let value ← (Yaml.load bytes).mapError .yaml
  match value.opened with
  | .map entries => return entries
  | _ => if value.isEmpty then return [] else throw .notFields

/-- The settings of a file, or those that come with the library, in an environment. -/
def load (store : FileStore) (source : Option Text) (environment : Environment) :
    Except LoadError Settings := do
  let fields ← match source with
    | none => pure packaged
    | some source => fieldsOf store source
  let fields := override environment fields
  if !fields.all (·.1.isText) then throw .notFields
  match ofEntries? fields with
  | some settings => return settings
  | none => throw .badField

end IntentModel.Settings
