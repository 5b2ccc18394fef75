import IntentModel.Settings.IntegerText
import IntentModel.Text.Lowercase
import IntentModel.Value

/-! # Settings

What a compilation can be told: the heading of the model, the cultures, the greatest length of an
intent name, and what happens to keys that several files define. `Settings.ofEntries?` reads
settings from entries of unknown shape; a field that is missing has its default and a field that is
not known is passed over.
-/

namespace IntentModel

/-- What happens to a key that several files define: the later file wins, or it is an error. -/
inductive ConflictPolicy
  | override
  | error
deriving DecidableEq, Repr

namespace ConflictPolicy

def ofName? (name : Text) : Option ConflictPolicy :=
  if name = ("override" : Text) then some .override
  else if name = ("error" : Text) then some .error
  else none

def name : ConflictPolicy → Text
  | override => "override"
  | error => "error"

/-- The text of the error when a name is that of no policy. -/
def unknownMessage (name : Text) : Text :=
  "Unknown conflict policy '" ++ name ++ ("', expected one of ('override', 'error')" : Text)

end ConflictPolicy

structure Settings where
  schemaVersion : Text
  modelName : Text
  modelDescription : Text
  defaultCulture : Text
  supportedCultures : List Text
  maxIntentNameLength : Int
  conflictPolicy : ConflictPolicy
deriving DecidableEq, Repr

namespace Settings

/-- The settings where nothing is said. -/
def default : Settings where
  schemaVersion := "1.3.0"
  modelName := "tef"
  modelDescription := "Bot Model"
  defaultCulture := "en-us"
  supportedCultures := ["en-us"]
  maxIntentNameLength := 50
  conflictPolicy := .override

/-- Whether a culture is supported; capitals do not matter. -/
def supports (settings : Settings) (culture : Text) : Bool :=
  (settings.supportedCultures.map Text.lower).contains culture.lower

/-- A field with several texts. -/
def textsField? : Value → Option (List Text)
  | .list items => items.mapM Value.asText?
  | .tuple items => items.mapM Value.asText?
  | .set items => items.mapM Value.asText?
  | _ => none

/-- An integer field. Truth values, numbers without fraction and texts of integers count; a number
has to lie between `-2 ^ 63` and `2 ^ 63`. -/
def integerField? : Value → Option Int
  | .int number => some number
  | .bool truth => some (if truth then 1 else 0)
  | .float number => number.toInt?.filter fun n => n.natAbs < 0x8000000000000000
  | .text content => integerText? content
  | .bytes content => (Text.ofUtf8? content).bind integerText?
  | _ => none

/-- A field with the name of a policy. -/
def policyField? : Value → Option ConflictPolicy
  | .text content => ConflictPolicy.ofName? content
  | _ => none

/-- A field read in its way, or its default if it is missing. -/
def fieldOr? {α : Type} (entries : Entries) (name : Text) (read? : Value → Option α)
    (fallback : α) : Option α :=
  match entries.field? name with
  | none => some fallback
  | some value => read? value

/-- The settings that entries describe, if every known field is well-formed. -/
def ofEntries? (entries : Entries) : Option Settings := do
  return {
    schemaVersion :=
      ← fieldOr? entries "luis_schema_version" Value.asText? default.schemaVersion
    modelName := ← fieldOr? entries "model_name" Value.asText? default.modelName
    modelDescription :=
      ← fieldOr? entries "model_description" Value.asText? default.modelDescription
    defaultCulture := ← fieldOr? entries "default_culture" Value.asText? default.defaultCulture
    supportedCultures :=
      ← fieldOr? entries "supported_cultures" textsField? default.supportedCultures
    maxIntentNameLength :=
      ← fieldOr? entries "max_intent_name_length" integerField? default.maxIntentNameLength
    conflictPolicy := ← fieldOr? entries "conflict_policy" policyField? default.conflictPolicy }

end Settings

end IntentModel
