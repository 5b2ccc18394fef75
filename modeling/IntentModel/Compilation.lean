import IntentModel.Model
import IntentModel.Settings
import IntentModel.Template.Expansion

/-! # Compilation

From a corpus to a model. First the culture and the names of the intents are checked. Then each
template is expanded, and each sentence declares the entities of its tags and becomes an utterance;
equal utterances of one intent are kept once. The first error ends the compilation, so there is no
half-finished model.
-/

namespace IntentModel

inductive CompilationError
  | unsupportedCulture (culture : Text) (supported : List Text)
  | intentNameTooLong (name : Text) (limit : Int)
  | expansion (error : ExpansionError)
  | emptyTag (error : EmptyTag)
deriving DecidableEq, Repr

namespace CompilationError

def message : CompilationError → Text
  | unsupportedCulture culture supported =>
    "Culture '" ++ culture ++ ("' is not supported. Supported cultures: " : Text) ++
      Text.join ", " supported
  | intentNameTooLong name limit =>
    "Not able to process intents longer than " ++ Text.ofInt limit ++ (" characters: '" : Text) ++
      name ++ ("' (" : Text) ++ Text.ofNat name.length ++ (" characters)" : Text)
  | expansion error => error.message
  | emptyTag error => error.message

end CompilationError

/-- What the sentences compiled so far have given. -/
structure Progress where
  catalog : EntityCatalog
  utterances : List Utterance
deriving DecidableEq, Repr

namespace Progress

def start : Progress :=
  ⟨.empty, []⟩

/-- Declares the entities of a sentence and takes up its utterance. -/
def addSentence (intent : Text) (progress : Progress) (sentence : Text) :
    Except CompilationError Progress := do
  let spans := sentence.spans
  let utterance ← (Utterance.ofSpans sentence intent spans).mapError .emptyTag
  return {
    catalog := progress.catalog.declareSpans spans
    utterances := Utterance.insertInto progress.utterances utterance }

/-- Expands a template and adds its sentences. -/
def addTemplate (lists : ValueLists) (intent : Text) (progress : Progress) (template : Text) :
    Except CompilationError Progress := do
  let sentences ← (expand template lists).mapError .expansion
  sentences.foldlM (addSentence intent) progress

def addIntent (lists : ValueLists) (progress : Progress) (intent : Intent) :
    Except CompilationError Progress :=
  intent.templates.foldlM (addTemplate lists intent.name) progress

end Progress

namespace Corpus

/-- The culture of a compilation: the one asked for, or the default when none or an empty one is
given, in small letters. -/
def cultureFor (settings : Settings) : Option Text → Text
  | none => settings.defaultCulture.lower
  | some [] => settings.defaultCulture.lower
  | some (c :: culture) => Text.lower (c :: culture)

/-- The first intent whose name is longer than the settings allow. -/
def tooLongIntent? (settings : Settings) (corpus : Corpus) : Option Intent :=
  corpus.intents.find? fun intent => settings.maxIntentNameLength < intent.name.length

/-- The description of the model, with the time of its making behind it if that is wanted. -/
def describe (settings : Settings) : Option Moment → Text
  | none => settings.modelDescription
  | some moment => settings.modelDescription ++ .char ' ' :: moment.iso

def compile (settings : Settings) (corpus : Corpus) (culture : Option Text)
    (generatedAt : Option Moment) : Except CompilationError Model := do
  let culture := cultureFor settings culture
  if !settings.supports culture then
    throw (.unsupportedCulture culture settings.supportedCultures)
  if let some intent := corpus.tooLongIntent? settings then
    throw (.intentNameTooLong intent.name settings.maxIntentNameLength)
  let progress ← corpus.intents.foldlM (Progress.addIntent corpus.lists) .start
  return ModelParts.assemble {
    schemaVersion := settings.schemaVersion
    name := settings.modelName
    description := describe settings generatedAt
    culture
    intents := corpus.intents.map (·.name)
    entities := progress.catalog.entities
    phraselists := corpus.phraselists
    builtin := corpus.builtin
    utterances := progress.utterances }

end Corpus

end IntentModel
