import IntentModel.Compilation
import IntentModel.Proofs.Entity
import IntentModel.Proofs.Outcome
import IntentModel.Proofs.Utterance

/-! # Entities and utterances of a model

Each sentence declares its tags, and its utterance is kept unless it is there already. The mentions of
an utterance bear the labels of the tags, so a dropped utterance has declared nothing that its equal
has not. The entities are therefore those that the labels of the kept utterances declare, in order
(`Progress.Settled`), through every run of the compiler.
-/

namespace IntentModel

/-- The labels of an utterance, in the order of its mentions. -/
def Utterance.labels (utterance : Utterance) : List Text :=
  utterance.mentions.map (·.label)

/-- The mentions bear the labels of the spans, whatever spans are handed over. -/
theorem Utterance.labels_of_ofSpans {sentence intent : Text} {spans : List Span} {utterance : Utterance}
    (built : ofSpans sentence intent spans = .ok utterance) :
    utterance.labels = spans.map (·.tag.label) := by
  obtain ⟨draft, run, finished⟩ := bind_eq_ok_iff.mp built
  have all := foldlM_preserves
    (fun remaining (draft : Draft) =>
      draft.mentions.map (·.label) ++ remaining.map (·.tag.label) = spans.map (·.tag.label))
    (fun span remaining draft next kept step => by
      obtain ⟨-, rfl⟩ := Draft.read_eq_ok_iff.mp step
      simpa [locate] using kept)
    rfl run
  cases finished
  simpa [labels] using all

namespace Progress

variable {lists : ValueLists} {intent : Text} {progress next : Progress}

/-- The declared entities are those that the labels of the utterances declare, in order. -/
def Settled (progress : Progress) : Prop :=
  progress.catalog = EntityCatalog.empty.declareAll (progress.utterances.flatMap Utterance.labels)

theorem Settled.addSentence {sentence : Text} (settled : progress.Settled)
    (added : progress.addSentence intent sentence = .ok next) : next.Settled := by
  obtain ⟨utterance, built, final⟩ := bind_eq_ok_iff.mp added
  have labels := Utterance.labels_of_ofSpans (mapError_eq_ok_iff.mp built)
  cases final
  rw [Settled, EntityCatalog.declareSpans, ← labels, Utterance.insertInto]
  split_ifs with present
  · -- the equal utterance that is kept has declared the same labels
    rw [← settled]
    apply EntityCatalog.declareAll_eq_self
    intro label member
    rw [settled]
    exact EntityCatalog.declares_declareAll _ (List.mem_flatMap.mpr ⟨utterance, present, member⟩)
  · rw [settled, List.flatMap_append, EntityCatalog.declareAll_append, List.flatMap_singleton]

theorem Settled.addTemplate {template : Text} (settled : progress.Settled)
    (added : progress.addTemplate lists intent template = .ok next) : next.Settled := by
  obtain ⟨sentences, -, run⟩ := bind_eq_ok_iff.mp added
  exact foldlM_preserves (fun _ progress => progress.Settled)
    (fun _ _ _ _ settled step => settled.addSentence step) settled run

theorem Settled.addIntent {intent : Intent} (settled : progress.Settled)
    (added : progress.addIntent lists intent = .ok next) : next.Settled :=
  foldlM_preserves (fun _ progress => progress.Settled)
    (fun _ _ _ _ settled step => settled.addTemplate step) settled added

/-- Whatever intents have been compiled, the entities follow from the utterances. -/
theorem settled_of_run {intents : List Intent}
    (run : intents.foldlM (addIntent lists) start = .ok next) : next.Settled :=
  foldlM_preserves (fun _ progress => progress.Settled)
    (fun _ _ _ _ settled step => settled.addIntent step) rfl run

end Progress

namespace Corpus

variable {settings : Settings} {corpus : Corpus} {culture : Option Text}
  {generatedAt : Option Moment} {model : Model}

/-- A compilation succeeds when the culture and the names of the intents pass and the run over all
intents succeeds; the model is put together from the outcome of the run. -/
theorem compile_eq_ok_iff :
    corpus.compile settings culture generatedAt = .ok model ↔
      settings.supports (cultureFor settings culture) = true ∧
        corpus.tooLongIntent? settings = none ∧
        ∃ progress, corpus.intents.foldlM (Progress.addIntent corpus.lists) .start = .ok progress ∧
          model = ModelParts.assemble {
            schemaVersion := settings.schemaVersion
            name := settings.modelName
            description := describe settings generatedAt
            culture := cultureFor settings culture
            intents := corpus.intents.map (·.name)
            entities := progress.catalog.entities
            phraselists := corpus.phraselists
            builtin := corpus.builtin
            utterances := progress.utterances } := by
  rw [compile]
  cases supported : settings.supports (cultureFor settings culture) with
  | false => simp [throw, throwThe, MonadExceptOf.throw, bind, Except.bind]
  | true =>
    cases named : corpus.tooLongIntent? settings with
    | some intent => simp [throw, throwThe, MonadExceptOf.throw, bind, Except.bind]
    | none =>
      simp only [Bool.not_true, Bool.false_eq_true, if_false, true_and, bind_eq_ok_iff, pure,
        Except.pure, Except.ok.injEq, eq_comm (b := model)]

/-- The entities of a model are those that the labels of its utterances declare, in order. So each
label has its entity and its subtype, and no entity or subtype is without a label. -/
theorem entities_of_labels (compiled : corpus.compile settings culture generatedAt = .ok model) :
    model.entities =
        (EntityCatalog.empty.declareAll (model.utterances.flatMap Utterance.labels)).entities ∧
      (∀ utterance ∈ model.utterances, ∀ label ∈ utterance.labels, ∃ entity ∈ model.entities,
        entity.name = (LabelParts.ofLabel label).parent ∧
          ∀ child, (LabelParts.ofLabel label).child = some child →
            child ∈ entity.children.getD []) ∧
      ∀ entity ∈ model.entities,
        (∃ utterance ∈ model.utterances, ∃ label ∈ utterance.labels,
          (LabelParts.ofLabel label).parent = entity.name) ∧
        ∀ child ∈ entity.children.getD [], ∃ utterance ∈ model.utterances,
          ∃ label ∈ utterance.labels, LabelParts.ofLabel label = ⟨entity.name, some child⟩ := by
  obtain ⟨-, -, progress, run, rfl⟩ := compile_eq_ok_iff.mp compiled
  have settled : progress.catalog =
      EntityCatalog.empty.declareAll (progress.utterances.flatMap Utterance.labels) :=
    Progress.settled_of_run run
  refine ⟨congrArg EntityCatalog.entities settled, fun utterance member label named => ?_,
    fun entity among => ?_⟩
  · have declared : progress.catalog.Declares label := by
      rw [settled]
      exact EntityCatalog.declares_declareAll _ (List.mem_flatMap.mpr ⟨utterance, member, named⟩)
    obtain ⟨entity, found, has⟩ := declared
    obtain ⟨member, own⟩ := EntityCatalog.of_find? found
    exact ⟨entity, member, own, has⟩
  · have backed := EntityCatalog.backed_declareAll (progress.utterances.flatMap Utterance.labels)
    rw [← settled] at backed
    obtain ⟨⟨label, known, own⟩, children⟩ := backed entity among
    obtain ⟨utterance, member, named⟩ := List.mem_flatMap.mp known
    refine ⟨⟨utterance, member, label, named, own⟩, fun child inside => ?_⟩
    obtain ⟨label, known, own⟩ := children child inside
    obtain ⟨utterance, member, named⟩ := List.mem_flatMap.mp known
    exact ⟨utterance, member, label, named, own⟩

/-- A sentence that is written twice, and an entity that gets its first subtype later on. -/
theorem entities_of_repeated_labels :
    compile .default ⟨[⟨"i", ["[a:x]", "[a:x] ", "[b:z]", "[c:x::y]"]⟩], [], [], []⟩ none none =
      .ok ⟨"1.3.0", "tef", "Bot Model", "en-us", ["i"],
        [⟨"x", some ["y"]⟩, ⟨"z", none⟩], [], [],
        [⟨"a", "i", [⟨"x", 0, 0⟩]⟩, ⟨"b", "i", [⟨"z", 0, 0⟩]⟩, ⟨"c", "i", [⟨"x::y", 0, 0⟩]⟩]⟩ ∧
      [⟨"x", some ["y"]⟩, ⟨"z", none⟩] =
        (EntityCatalog.empty.declareAll ["x", "z", "x::y"]).entities := by
  refine (and_iff_left_of_imp fun compiled => (entities_of_labels compiled).1).mpr ?_
  rfl

end Corpus
end IntentModel
