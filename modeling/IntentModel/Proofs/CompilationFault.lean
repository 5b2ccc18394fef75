import IntentModel.Proofs.Compilation
import IntentModel.Proofs.Text.Lowercase

/-! # Faults of a compilation

Whether a sentence, a template or an intent fails does not depend on what has been compiled before it,
so a compilation has the fault of the first template that has one (`fault?_foldlM_addIntent`). A tag is
refused when its value has no tokens, and that is when it holds blanks only. A template is expanded as a
whole before its sentences are read, so the error of its expansion comes before the blank tags of the
sentences that its other values would give.
-/

namespace IntentModel

def Tag.IsBlank (tag : Tag) : Prop :=
  ∀ c ∈ tag.value, isBlank c = true

instance (tag : Tag) : Decidable tag.IsBlank :=
  inferInstanceAs (Decidable (∀ c ∈ tag.value, isBlank c = true))

/-- No tag of the sentence is blank. -/
def Text.Tagged (sentence : Text) : Prop :=
  ∀ span ∈ sentence.spans, ¬ span.tag.IsBlank

/-- The template has an expansion, and no tag of its sentences is blank. -/
def Text.Compiles (lists : ValueLists) (template : Text) : Prop :=
  ∃ sentences, expand template lists = .ok sentences ∧ ∀ sentence ∈ sentences, sentence.Tagged

/-- What is wrong with a template: its expansion fails, or its sentences have a blank tag, of which the
leftmost one in the first sentence with such a tag counts. -/
inductive TemplateFault (lists : ValueLists) (template : Text) : CompilationError → Prop
  | expansion {error : ExpansionError} :
      expand template lists = .error error → TemplateFault lists template (.expansion error)
  | emptyTag {clean rest : List Text} {sentence : Text} {before after : List Span} {span : Span} :
      expand template lists = .ok (clean ++ sentence :: rest) →
      (∀ earlier ∈ clean, earlier.Tagged) →
      sentence.spans = before ++ span :: after → (∀ earlier ∈ before, ¬ earlier.tag.IsBlank) →
      span.tag.IsBlank → TemplateFault lists template (.emptyTag ⟨span.tag, sentence⟩)

/-! ## Sentences -/

namespace Utterance

/-- The fault of a span, if its tag is blank. -/
def blankTag? (sentence : Text) (span : Span) : Option EmptyTag :=
  if span.tag.IsBlank then some ⟨span.tag, sentence⟩ else none

theorem fault?_read (sentence : Text) (draft : Draft) (span : Span) :
    fault? (draft.read sentence span) = blankTag? sentence span := by
  have blank : span.tag.value.tokens.isEmpty = true ↔ span.tag.IsBlank := by
    rw [List.isEmpty_iff, Text.tokens_eq_nil_iff]
    rfl
  simp only [Draft.read, blank, blankTag?]
  split_ifs <;> rfl

/-- An utterance cannot be made of a sentence when a span is blank, and the first of them is to blame. -/
theorem fault?_ofSpans (sentence intent : Text) (spans : List Span) :
    fault? (ofSpans sentence intent spans) = spans.findSome? (blankTag? sentence) := by
  rw [← fault?_foldlM (fault?_read sentence) spans ⟨[], 0, []⟩]
  exact fault?_bind_ok _ _

end Utterance

/-! ## Templates -/

namespace Progress

variable {lists : ValueLists}

def templateFault? (lists : ValueLists) (template : Text) : Option CompilationError :=
  match expand template lists with
  | .error error => some (.expansion error)
  | .ok sentences => sentences.findSome? fun sentence =>
      (sentence.spans.findSome? (Utterance.blankTag? sentence)).map .emptyTag

theorem fault?_addSentence (intent : Text) (progress : Progress) (sentence : Text) :
    fault? (progress.addSentence intent sentence) =
      (sentence.spans.findSome? (Utterance.blankTag? sentence)).map .emptyTag := by
  rw [← Utterance.fault?_ofSpans sentence intent, ← fault?_mapError]
  exact fault?_bind_ok _ _

theorem fault?_addTemplate (intent : Text) (progress : Progress) (template : Text) :
    fault? (progress.addTemplate lists intent template) = templateFault? lists template := by
  rw [addTemplate, templateFault?]
  cases expand template lists with
  | error error => rfl
  | ok sentences => exact fault?_foldlM (fault?_addSentence intent) sentences progress

theorem fault?_addIntent (progress : Progress) (intent : Intent) :
    fault? (progress.addIntent lists intent) = intent.templates.findSome? (templateFault? lists) :=
  fault?_foldlM (fault?_addTemplate intent.name) intent.templates progress

/-- The intents have the fault of the first template that has one. -/
theorem fault?_foldlM_addIntent (intents : List Intent) (progress : Progress) :
    fault? (intents.foldlM (addIntent lists) progress) =
      (intents.flatMap (·.templates)).findSome? (templateFault? lists) := by
  rw [fault?_foldlM fault?_addIntent]
  induction intents with
  | nil => rfl
  | cons intent intents ih =>
    rw [List.findSome?_cons, List.flatMap_cons, List.findSome?_append, ← ih]
    cases intent.templates.findSome? (templateFault? lists) with
    | none => rfl
    | some error => rfl

end Progress

namespace Utterance

variable {sentence : Text}

theorem blankTag?_eq_none_iff {span : Span} :
    blankTag? sentence span = none ↔ ¬ span.tag.IsBlank := by
  rw [blankTag?]
  split_ifs with blank
  · simp [blank]
  · simp [blank]

theorem blankTag?_eq_some_iff {span : Span} {error : EmptyTag} :
    blankTag? sentence span = some error ↔ span.tag.IsBlank ∧ error = ⟨span.tag, sentence⟩ := by
  rw [blankTag?]
  split_ifs with blank
  · simp [blank, eq_comm]
  · simp [blank]

theorem findSome?_blankTag?_eq_none_iff :
    sentence.spans.findSome? (blankTag? sentence) = none ↔ sentence.Tagged := by
  rw [List.findSome?_eq_none_iff]
  exact forall₂_congr fun span _ => blankTag?_eq_none_iff

variable {intent : Text} {spans : List Span}

theorem ofSpans_eq_error_iff {error : EmptyTag} :
    ofSpans sentence intent spans = .error error ↔
      ∃ before span after, spans = before ++ span :: after ∧
        (∀ earlier ∈ before, ¬ earlier.tag.IsBlank) ∧ span.tag.IsBlank ∧
        error = ⟨span.tag, sentence⟩ := by
  rw [← fault?_eq_some_iff, fault?_ofSpans, List.findSome?_eq_some_iff]
  simp only [blankTag?_eq_some_iff, blankTag?_eq_none_iff]
  constructor
  · rintro ⟨before, span, after, split, ⟨blank, named⟩, visible⟩
    exact ⟨before, span, after, split, visible, blank, named⟩
  · rintro ⟨before, span, after, split, visible, blank, named⟩
    exact ⟨before, span, after, split, ⟨blank, named⟩, visible⟩

theorem exists_ofSpans_eq_ok_iff :
    (∃ utterance, ofSpans sentence intent spans = .ok utterance) ↔
      ∀ span ∈ spans, ¬ span.tag.IsBlank := by
  rw [← fault?_eq_none_iff, fault?_ofSpans, List.findSome?_eq_none_iff]
  exact forall₂_congr fun span _ => blankTag?_eq_none_iff

end Utterance

namespace Progress

variable {lists : ValueLists} {template : Text}

theorem templateFault?_eq_none_iff :
    templateFault? lists template = none ↔ template.Compiles lists := by
  rw [templateFault?, Text.Compiles]
  cases expand template lists with
  | error error => simp
  | ok sentences =>
    simp only [List.findSome?_eq_none_iff, Option.map_eq_none_iff, Except.ok.injEq,
      exists_eq_left']
    exact forall₂_congr fun sentence _ =>
      forall₂_congr fun span _ => Utterance.blankTag?_eq_none_iff

theorem templateFault?_eq_some_iff {error : CompilationError} :
    templateFault? lists template = some error ↔ TemplateFault lists template error := by
  rw [templateFault?]
  cases run : expand template lists with
  | error own =>
    constructor
    · rintro ⟨⟩
      exact .expansion run
    · intro fault
      cases fault with
      | expansion failed =>
        cases run.symm.trans failed
        rfl
      | emptyTag expanded =>
        cases run.symm.trans expanded
  | ok sentences =>
    simp only [List.findSome?_eq_some_iff, Option.map_eq_some_iff, Option.map_eq_none_iff,
      Utterance.findSome?_blankTag?_eq_none_iff, Utterance.blankTag?_eq_some_iff,
      Utterance.blankTag?_eq_none_iff]
    constructor
    · rintro ⟨clean, sentence, rest, rfl, ⟨_, ⟨before, span, after, spans, ⟨blank, rfl⟩, visible⟩, rfl⟩, tagged⟩
      exact .emptyTag run tagged spans visible blank
    · intro fault
      cases fault with
      | expansion failed => cases run.symm.trans failed
      | emptyTag expanded tagged spans visible blank =>
        cases run.symm.trans expanded
        exact ⟨_, _, _, rfl, ⟨_, ⟨_, _, _, spans, ⟨blank, rfl⟩, visible⟩, rfl⟩, tagged⟩

end Progress

namespace Corpus

variable {settings : Settings} {corpus : Corpus} {culture : Option Text}
  {generatedAt : Option Moment}

/-! ## The compilation -/

/-- The culture of a compilation is supported; capitals do not matter. -/
def HasCulture (settings : Settings) (culture : Option Text) : Prop :=
  ∃ supported ∈ settings.supportedCultures, supported.lower = cultureFor settings culture

/-- No intent has a longer name than the settings allow. -/
def NamesFit (settings : Settings) (intents : List Intent) : Prop :=
  ∀ intent ∈ intents, (intent.name.length : Int) ≤ settings.maxIntentNameLength

/-- What ends a compilation. The culture comes first, then the names of all intents, then the templates
in the order of the corpus. -/
inductive CompilationFault (settings : Settings) (corpus : Corpus) (culture : Option Text) :
    CompilationError → Prop
  | culture :
      ¬ HasCulture settings culture →
      CompilationFault settings corpus culture
        (.unsupportedCulture (cultureFor settings culture) settings.supportedCultures)
  | intentName {before after : List Intent} {intent : Intent} :
      HasCulture settings culture → corpus.intents = before ++ intent :: after →
      NamesFit settings before → settings.maxIntentNameLength < intent.name.length →
      CompilationFault settings corpus culture
        (.intentNameTooLong intent.name settings.maxIntentNameLength)
  | template {before after : List Text} {template : Text} {error : CompilationError} :
      HasCulture settings culture → NamesFit settings corpus.intents →
      corpus.intents.flatMap (·.templates) = before ++ template :: after →
      (∀ earlier ∈ before, earlier.Compiles corpus.lists) →
      TemplateFault corpus.lists template error →
      CompilationFault settings corpus culture error

theorem supports_cultureFor :
    settings.supports (cultureFor settings culture) = true ↔ HasCulture settings culture := by
  have small : (cultureFor settings culture).lower = cultureFor settings culture := by
    cases culture with
    | none => exact Text.lower_lower _
    | some culture =>
      cases culture with
      | nil => exact Text.lower_lower _
      | cons c culture => exact Text.lower_lower _
  rw [Settings.supports, small, List.contains_iff_mem, List.mem_map]
  rfl

theorem tooLongIntent?_eq_none_iff :
    corpus.tooLongIntent? settings = none ↔ NamesFit settings corpus.intents := by
  simp [tooLongIntent?, NamesFit]

theorem tooLongIntent?_eq_some_iff {intent : Intent} :
    corpus.tooLongIntent? settings = some intent ↔
      settings.maxIntentNameLength < intent.name.length ∧
        ∃ before after, corpus.intents = before ++ intent :: after ∧ NamesFit settings before := by
  simp [tooLongIntent?, NamesFit, List.find?_eq_some_iff_append]

/-- The fault of a compilation, if it has one. -/
theorem fault?_compile :
    fault? (corpus.compile settings culture generatedAt) =
      if settings.supports (cultureFor settings culture) then
        match corpus.tooLongIntent? settings with
        | some intent => some (.intentNameTooLong intent.name settings.maxIntentNameLength)
        | none =>
          (corpus.intents.flatMap (·.templates)).findSome? (Progress.templateFault? corpus.lists)
      else some (.unsupportedCulture (cultureFor settings culture) settings.supportedCultures) := by
  rw [compile]
  cases settings.supports (cultureFor settings culture) with
  | false => rfl
  | true =>
    cases corpus.tooLongIntent? settings with
    | some intent => rfl
    | none =>
      rw [← Progress.fault?_foldlM_addIntent corpus.intents .start]
      exact fault?_bind_ok _ _

theorem exists_compile_eq_ok_iff :
    (∃ model, corpus.compile settings culture generatedAt = .ok model) ↔
      HasCulture settings culture ∧ NamesFit settings corpus.intents ∧
        ∀ intent ∈ corpus.intents, ∀ template ∈ intent.templates,
          template.Compiles corpus.lists := by
  rw [← fault?_eq_none_iff, fault?_compile, ← supports_cultureFor, ← tooLongIntent?_eq_none_iff]
  cases settings.supports (cultureFor settings culture) with
  | false => simp
  | true =>
    cases corpus.tooLongIntent? settings with
    | some intent => simp
    | none =>
      simp only [if_true, List.findSome?_eq_none_iff, List.forall_mem_flatMap,
        Progress.templateFault?_eq_none_iff, true_and]

theorem compile_eq_error_iff {error : CompilationError} :
    corpus.compile settings culture generatedAt = .error error ↔
      CompilationFault settings corpus culture error := by
  rw [← fault?_eq_some_iff, fault?_compile]
  split_ifs with supported
  · rw [supports_cultureFor] at supported
    cases named : corpus.tooLongIntent? settings with
    | some intent =>
      obtain ⟨long, before, after, split, fit⟩ := tooLongIntent?_eq_some_iff.mp named
      constructor
      · rintro ⟨⟩
        exact .intentName supported split fit long
      · intro fault
        cases fault with
        | culture unsupported => exact absurd supported unsupported
        | intentName _ split fit long =>
          have found := tooLongIntent?_eq_some_iff.mpr ⟨long, _, _, split, fit⟩
          cases named.symm.trans found
          rfl
        | template _ fit => cases named.symm.trans (tooLongIntent?_eq_none_iff.mpr fit)
    | none =>
      have fit := tooLongIntent?_eq_none_iff.mp named
      simp only [List.findSome?_eq_some_iff, Progress.templateFault?_eq_none_iff,
        Progress.templateFault?_eq_some_iff]
      constructor
      · rintro ⟨before, template, after, split, fault, clean⟩
        exact .template supported fit split clean fault
      · intro fault
        cases fault with
        | culture unsupported => exact absurd supported unsupported
        | intentName _ split fitBefore long =>
          have found := tooLongIntent?_eq_some_iff.mpr ⟨long, _, _, split, fitBefore⟩
          cases named.symm.trans found
        | template _ _ split clean fault => exact ⟨_, _, _, split, fault, clean⟩
  · rw [supports_cultureFor] at supported
    constructor
    · rintro ⟨⟩
      exact .culture supported
    · intro fault
      cases fault with
      | culture => rfl
      | intentName known => exact absurd known supported
      | template known => exact absurd known supported

/-- A compilation succeeds exactly when the culture is supported, no intent has too long a name, and each
template has an expansion without blank tags. Otherwise it has the fault that comes first. -/
theorem compile_outcome (settings : Settings) (corpus : Corpus) (culture : Option Text)
    (generatedAt : Option Moment) :
    ((∃ model, corpus.compile settings culture generatedAt = .ok model) ↔
      HasCulture settings culture ∧ NamesFit settings corpus.intents ∧
        ∀ intent ∈ corpus.intents, ∀ template ∈ intent.templates,
          template.Compiles corpus.lists) ∧
    ∀ error, corpus.compile settings culture generatedAt = .error error ↔
      CompilationFault settings corpus culture error :=
  ⟨exists_compile_eq_ok_iff, fun _ => compile_eq_error_iff⟩

/-- An intent with too long a name comes before the blank tag of an earlier intent. -/
example :
    compile .default ⟨[⟨"i", ["[ :x]"]⟩, ⟨List.replicate 51 'n', []⟩], [], [], []⟩ none none =
      .error (.intentNameTooLong (List.replicate 51 'n') 50) := by rfl

end Corpus
end IntentModel
