import IntentModel.Proofs.Collection
import IntentModel.Proofs.CompilationFault

/-! # Leaving out an intent

Intents meet in a compilation only where equal utterances and entities are shared, and neither couples
them. Equal utterances have the same intent, so those of the other intents are collected as before
(`exists_run_without`). An entity is declared by whichever utterance names it, so fewer utterances
declare nothing new (`Settled.exists_entity`), though perhaps in another order.
-/

namespace IntentModel

def Corpus.without (corpus : Corpus) (name : Text) : Corpus :=
  { corpus with intents := corpus.intents.filter fun intent => intent.name ≠ name }

/-- What is made of the items that are kept is what is kept of everything that is made, if the items
decide it. -/
theorem flatMap_filter_eq {α β : Type} {part : α → List β} {keep : β → Bool} {keepItem : α → Bool}
    {items : List α} (decides : ∀ item ∈ items, ∀ made ∈ part item, keep made = keepItem item) :
    (items.filter keepItem).flatMap part = (items.flatMap part).filter keep := by
  induction items with
  | nil => rfl
  | cons item items ih =>
    obtain ⟨own, others⟩ := List.forall_mem_cons.mp decides
    rw [List.flatMap_cons, List.filter_append, List.filter_congr own, ← ih others]
    cases kept : keepItem item with
    | false => simp [kept]
    | true => simp [kept]

theorem Intent.intent_of_mem_utterances {lists : ValueLists} {intent : Intent}
    {made : List Utterance} (run : intent.utterances lists = .ok made) {utterance : Utterance}
    (member : utterance ∈ made) : utterance.intent = intent.name := by
  obtain ⟨part, templates, rfl⟩ := utterances_eq_ok_iff.mp run
  obtain ⟨template, among, member⟩ := List.mem_flatMap.mp member
  obtain ⟨sentences, -, result, each, all⟩ := Utterance.exists_of_ofTemplate (templates template among)
  obtain ⟨sentence, place, rfl⟩ := List.mem_map.mp (all ▸ member)
  exact Utterance.intent_of_ofSentence (each sentence place)

/-- What fewer utterances declare, more of them declare as well. -/
theorem Progress.Settled.exists_entity {progress whole : Progress} (settled : progress.Settled)
    (settledWhole : whole.Settled) (fewer : progress.utterances ⊆ whole.utterances)
    {entity : Entity} (member : entity ∈ progress.catalog.entities) :
    ∃ known ∈ whole.catalog.entities, known.name = entity.name ∧
      ∀ child ∈ entity.children.getD [], child ∈ known.children.getD [] := by
  rw [Settled] at settled settledWhole
  rw [settled] at member
  rw [settledWhole]
  refine EntityCatalog.exists_of_mem_declareAll (fun label listed => ?_) member
  obtain ⟨utterance, among, named⟩ := List.mem_flatMap.mp listed
  exact List.mem_flatMap.mpr ⟨utterance, fewer among, named⟩

namespace Corpus

variable {settings : Settings} {corpus : Corpus} {culture : Option Text}
  {generatedAt : Option Moment} {model : Model} {produced : List Utterance}

theorem names_without (corpus : Corpus) (name : Text) :
    (corpus.without name).intents.map (·.name) =
      (corpus.intents.map (·.name)).filter fun intent => intent ≠ name := by
  rw [List.filter_map]
  rfl

/-- Without an intent the corpus gives the utterances of the other ones. -/
theorem utterances_without (made : corpus.utterances = .ok produced) (name : Text) :
    (corpus.without name).utterances =
      .ok (produced.filter fun utterance => utterance.intent ≠ name) := by
  obtain ⟨part, intents, rfl⟩ := utterances_eq_ok_iff.mp made
  refine utterances_eq_ok_iff.mpr ⟨part, fun intent owner => ?_, flatMap_filter_eq ?_⟩
  · exact intents intent (List.mem_filter.mp owner).1
  · intro intent owner utterance member
    rw [Intent.intent_of_mem_utterances (intents intent owner) member]

/-- A run without an intent succeeds like the whole one and leaves the utterances of the others. -/
theorem exists_run_without {progress : Progress}
    (run : corpus.intents.foldlM (Progress.addIntent corpus.lists) .start = .ok progress)
    (name : Text) :
    ∃ rest, (corpus.without name).intents.foldlM
        (Progress.addIntent (corpus.without name).lists) .start = .ok rest ∧
      rest.utterances = progress.utterances.filter fun utterance => utterance.intent ≠ name := by
  obtain ⟨produced, made, rfl⟩ := foldlM_intents_eq_ok_iff.mp run
  refine ⟨_, foldlM_intents_eq_ok_iff.mpr ⟨_, utterances_without made name, rfl⟩, ?_⟩
  rw [Progress.utterances_foldl_add, Progress.utterances_foldl_add]
  exact (Utterance.filter_collect _ produced).symm

/-- A corpus from which an intent is taken compiles as before. Its utterances are those of the other
intents, in the same order, its intents are the other ones, and it declares no entity and no subtype
that the whole corpus does not declare. -/
theorem compile_without (compiled : corpus.compile settings culture generatedAt = .ok model)
    (name : Text) :
    ∃ rest, (corpus.without name).compile settings culture generatedAt = .ok rest ∧
      rest.culture = model.culture ∧
      rest.utterances = model.utterances.filter (fun utterance => utterance.intent ≠ name) ∧
      rest.intents = model.intents.filter (fun intent => intent ≠ name) ∧
      ∀ entity ∈ rest.entities, ∃ known ∈ model.entities, known.name = entity.name ∧
        ∀ child ∈ entity.children.getD [], child ∈ known.children.getD [] := by
  obtain ⟨supported, fit, progress, run, rfl⟩ := compile_eq_ok_iff.mp compiled
  have fitRest : (corpus.without name).tooLongIntent? settings = none := by
    rw [tooLongIntent?_eq_none_iff] at fit ⊢
    exact fun intent owner => fit intent (List.mem_filter.mp owner).1
  obtain ⟨rest, runRest, kept⟩ := exists_run_without run name
  refine ⟨_, compile_eq_ok_iff.mpr ⟨supported, fitRest, rest, runRest, rfl⟩, rfl, kept,
    names_without corpus name, ?_⟩
  intro entity among
  refine (Progress.settled_of_run runRest).exists_entity (Progress.settled_of_run run) ?_ among
  rw [kept]
  exact List.filter_sublist.subset

/-- Two intents with a sentence in common. The one that is left names the entities in another order and
one of them without its subtype. -/
theorem compile_without_shared :
    compile .default ⟨[⟨"i", ["[c:z]", "[a:x::y]", "b"]⟩, ⟨"j", ["[a:x]", "b", "[c:z]"]⟩], [], [], []⟩
        none none =
      .ok ⟨"1.3.0", "tef", "Bot Model", "en-us", ["i", "j"], [⟨"z", none⟩, ⟨"x", some ["y"]⟩], [], [],
        [⟨"c", "i", [⟨"z", 0, 0⟩]⟩, ⟨"a", "i", [⟨"x::y", 0, 0⟩]⟩, ⟨"b", "i", []⟩,
          ⟨"a", "j", [⟨"x", 0, 0⟩]⟩, ⟨"b", "j", []⟩, ⟨"c", "j", [⟨"z", 0, 0⟩]⟩]⟩ ∧
      ∃ rest, compile .default ⟨[⟨"j", ["[a:x]", "b", "[c:z]"]⟩], [], [], []⟩ none none = .ok rest ∧
        rest.utterances =
          [⟨"a", "j", [⟨"x", 0, 0⟩]⟩, ⟨"b", "j", []⟩, ⟨"c", "j", [⟨"z", 0, 0⟩]⟩] := by
  refine (and_iff_left_of_imp fun compiled => ?_).mpr ?_
  · obtain ⟨rest, compiledRest, -, utterances, -⟩ := compile_without compiled "i"
    exact ⟨rest, compiledRest, utterances⟩
  · rfl

end Corpus
end IntentModel
