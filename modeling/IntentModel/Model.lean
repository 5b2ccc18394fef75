import IntentModel.Corpus
import IntentModel.Entity
import IntentModel.Text.Folding
import IntentModel.Utterance

/-! # The compiled model

The model that the service imports: its heading, the intents by name, the declared entities, the
phrase lists as features, and the utterances. `Model.toValue` gives it the layout of the written
model.
-/

namespace IntentModel

/-- A phrase list as the model holds it: its phrases stand in one text with commas between them. -/
structure Feature where
  name : Text
  interchangeable : Bool
  words : Text
  activated : Bool
deriving DecidableEq, Repr

/-- The feature of a phrase list. Each phrase is folded and tokenized; blank ones are left out. -/
def Phraselist.feature (phraselist : Phraselist) (culture : Text) : Feature :=
  let phrases := phraselist.words.map fun word => Text.joinTokens (word.normalize culture)
  { name := phraselist.name
    interchangeable := phraselist.interchangeable
    words := Text.join [.char ','] (phrases.filter (!·.isEmpty))
    activated := phraselist.activated }

structure Model where
  schemaVersion : Text
  name : Text
  description : Text
  culture : Text
  intents : List Text
  entities : List Entity
  builtin : List Fields
  features : List Feature
  utterances : List Utterance
deriving Repr

/-- What a model is put together from. -/
structure ModelParts where
  schemaVersion : Text
  name : Text
  description : Text
  culture : Text
  intents : List Text
  entities : List Entity
  phraselists : List Phraselist
  builtin : List Fields
  utterances : List Utterance

/-- Puts a model together; the phrase lists become features. -/
def ModelParts.assemble (parts : ModelParts) : Model where
  schemaVersion := parts.schemaVersion
  name := parts.name
  description := parts.description
  culture := parts.culture
  intents := parts.intents
  entities := parts.entities
  builtin := parts.builtin
  features := parts.phraselists.map (·.feature parts.culture)
  utterances := parts.utterances

/-- The written form of an entity; without children it has no field for them. -/
def Entity.toValue (entity : Entity) : Value :=
  let children := match entity.children with
    | none => []
    | some children => [(("children" : Text), Value.list (children.map .text))]
  Value.record ((("name" : Text), .text entity.name) :: children)

def Feature.toValue (feature : Feature) : Value :=
  Value.record
    [("name", .text feature.name), ("mode", .bool feature.interchangeable),
      ("words", .text feature.words), ("activated", .bool feature.activated)]

def Mention.toValue (mention : Mention) : Value :=
  Value.record
    [("entity", .text mention.label), ("startPos", .int mention.first),
      ("endPos", .int mention.last)]

def Utterance.toValue (utterance : Utterance) : Value :=
  Value.record
    [("text", .text utterance.text), ("intent", .text utterance.intent),
      ("entities", .list (utterance.mentions.map (·.toValue)))]

/-- The written form of a model. Composites, actions and regular expressions are always empty. -/
def Model.toValue (model : Model) : Value :=
  Value.record
    [("luis_schema_version", .text model.schemaVersion), ("name", .text model.name),
      ("desc", .text model.description), ("culture", .text model.culture),
      ("intents", .list (model.intents.map fun name => Value.record [("name", .text name)])),
      ("entities", .list (model.entities.map (·.toValue))), ("composites", .list []),
      ("bing_entities", .list (model.builtin.map Value.record)), ("actions", .list []),
      ("model_features", .list (model.features.map (·.toValue))), ("regex_features", .list []),
      ("utterances", .list (model.utterances.map (·.toValue)))]

end IntentModel
