import IntentModel.Proofs.Compilation
import Mathlib.Data.List.Induction
import Mathlib.Data.List.Nodup

/-! # The collected utterances

A compilation takes two steps that do not meet: the intents, their templates and the sentences of these
give utterances one after the other (`Corpus.utterances`), and of equal ones the first is kept
(`Utterance.collect`). `foldlM_addIntent_eq` states this of every run, failing ones included. What a
model holds of its utterances is therefore said about a plain list: nothing is lost, nothing is there
twice, and the order is that of first appearance.
-/

namespace IntentModel

namespace Utterance

/-- The utterances without those that an equal one comes before. -/
def collect (utterances : List Utterance) : List Utterance :=
  utterances.foldl insertInto []

/-- The utterances of a template for an intent, one for each sentence of its expansion. -/
def ofTemplate (lists : ValueLists) (intent template : Text) :
    Except CompilationError (List Utterance) := do
  let sentences ← (expand template lists).mapError .expansion
  sentences.mapM fun sentence => (ofSentence sentence intent).mapError .emptyTag

end Utterance

/-- The utterances of an intent, template by template. -/
def Intent.utterances (lists : ValueLists) (intent : Intent) :
    Except CompilationError (List Utterance) := do
  return (← intent.templates.mapM (Utterance.ofTemplate lists intent.name)).flatten

/-- The utterances of a corpus, intent by intent. Equal ones may be among them. -/
def Corpus.utterances (corpus : Corpus) : Except CompilationError (List Utterance) := do
  return (← corpus.intents.mapM (Intent.utterances corpus.lists)).flatten

/-! ## Keeping the first of equal utterances -/

namespace Utterance

variable {utterances : List Utterance} {utterance : Utterance}

theorem collect_concat (utterances : List Utterance) (utterance : Utterance) :
    collect (utterances ++ [utterance]) = insertInto (collect utterances) utterance :=
  List.foldl_concat ..

theorem mem_collect : utterance ∈ collect utterances ↔ utterance ∈ utterances := by
  induction utterances using List.reverseRecOn with
  | nil => rfl
  | append_singleton utterances last ih =>
    rw [collect_concat, insertInto, List.mem_append, List.mem_singleton]
    split_ifs with present
    · rw [ih]
      constructor
      · exact .inl
      · rintro (member | rfl)
        · exact member
        · exact ih.mp present
    · rw [List.mem_append, List.mem_singleton, ih]

/-- The utterances stand in the order in which they first appear. -/
theorem pairwise_collect (utterances : List Utterance) :
    (collect utterances).Pairwise fun earlier later =>
      utterances.idxOf earlier < utterances.idxOf later := by
  induction utterances using List.reverseRecOn with
  | nil => exact .nil
  | append_singleton utterances last ih =>
    -- the utterances before the last one keep their places
    have kept : (collect utterances).Pairwise fun earlier later =>
        (utterances ++ [last]).idxOf earlier < (utterances ++ [last]).idxOf later := by
      refine ih.imp_of_mem fun first second before => ?_
      rwa [List.idxOf_append_of_mem (mem_collect.mp first),
        List.idxOf_append_of_mem (mem_collect.mp second)]
    rw [collect_concat, insertInto]
    split_ifs with present
    · exact kept
    · refine List.pairwise_append.mpr ⟨kept, List.pairwise_singleton _ _, ?_⟩
      intro earlier member later only
      rw [List.mem_singleton.mp only, List.idxOf_append_of_mem (mem_collect.mp member),
        List.idxOf_append_of_notMem (mt mem_collect.mpr present)]
      exact Nat.lt_add_right _ (List.idxOf_lt_length_iff.mpr (mem_collect.mp member))

theorem nodup_collect (utterances : List Utterance) : (collect utterances).Nodup := by
  refine (pairwise_collect utterances).imp fun before => ?_
  rintro rfl
  exact Nat.lt_irrefl _ before

/-- Utterances may be left out before or after they are collected. -/
theorem filter_collect (keep : Utterance → Bool) (utterances : List Utterance) :
    (collect utterances).filter keep = collect (utterances.filter keep) := by
  induction utterances using List.reverseRecOn with
  | nil => rfl
  | append_singleton utterances last ih =>
    rw [collect_concat, insertInto, List.filter_append]
    cases kept : keep last with
    | false =>
      split_ifs
      · simp [kept, ih]
      · simp [kept, ih]
    | true =>
      have known : last ∈ collect (utterances.filter keep) ↔ last ∈ collect utterances := by
        simp [mem_collect, kept]
      have single : [last].filter keep = [last] := by simp [kept]
      rw [single, collect_concat, insertInto]
      by_cases present : last ∈ collect utterances
      · rw [if_pos present, if_pos (known.mpr present), ih]
      · rw [if_neg present, if_neg (mt known.mp present), List.filter_append, single, ih]

end Utterance

/-! ## A run in two steps -/

namespace Progress

variable {lists : ValueLists} {intent : Text}

/-- Declares the labels of an utterance and takes it up. -/
def add (progress : Progress) (utterance : Utterance) : Progress where
  catalog := progress.catalog.declareAll utterance.labels
  utterances := Utterance.insertInto progress.utterances utterance

theorem addSentence_eq (progress : Progress) (sentence : Text) :
    progress.addSentence intent sentence =
      (Utterance.ofSentence sentence intent).mapError .emptyTag >>= fun utterance =>
        .ok (progress.add utterance) := by
  rw [addSentence, Utterance.ofSentence]
  cases built : Utterance.ofSpans sentence intent sentence.spans with
  | error fault => rfl
  | ok utterance =>
    have declared : progress.catalog.declareSpans sentence.spans =
        progress.catalog.declareAll utterance.labels := by
      rw [Utterance.labels_of_ofSpans built]
      rfl
    exact congrArg (fun catalog => Except.ok (Progress.mk catalog _)) declared

theorem addTemplate_eq (progress : Progress) (template : Text) :
    progress.addTemplate lists intent template =
      Utterance.ofTemplate lists intent template >>= fun utterances =>
        .ok (utterances.foldl add progress) := by
  rw [addTemplate, Utterance.ofTemplate]
  cases expand template lists with
  | error fault => rfl
  | ok sentences => exact foldlM_eq_mapM addSentence_eq sentences progress

theorem addIntent_eq (progress : Progress) (intent : Intent) :
    progress.addIntent lists intent =
      intent.utterances lists >>= fun utterances => .ok (utterances.foldl add progress) := by
  rw [addIntent, foldlM_eq_mapM addTemplate_eq, Intent.utterances]
  cases intent.templates.mapM (Utterance.ofTemplate lists intent.name) with
  | error fault => rfl
  | ok parts => exact congrArg Except.ok List.foldl_flatten.symm

/-- A run over intents makes the utterances of all of them and takes these up one after the other. It
fails as the making does. -/
theorem foldlM_addIntent_eq (intents : List Intent) (progress : Progress) :
    intents.foldlM (addIntent lists) progress =
      intents.mapM (Intent.utterances lists) >>= fun parts =>
        .ok (parts.flatten.foldl add progress) := by
  rw [foldlM_eq_mapM addIntent_eq]
  simp only [List.foldl_flatten]

theorem utterances_foldl_add (utterances : List Utterance) (progress : Progress) :
    (utterances.foldl add progress).utterances =
      utterances.foldl Utterance.insertInto progress.utterances := by
  induction utterances generalizing progress with
  | nil => rfl
  | cons utterance utterances ih => exact ih (progress.add utterance)

end Progress

/-! ## Where utterances come from -/

namespace Utterance

variable {lists : ValueLists} {intent template : Text} {utterances : List Utterance}

/-- A template that gives utterances has an expansion, and each sentence of it gives one. -/
theorem exists_of_ofTemplate (made : ofTemplate lists intent template = .ok utterances) :
    ∃ sentences, expand template lists = .ok sentences ∧
      ∃ result : Text → Utterance,
        (∀ sentence ∈ sentences, ofSentence sentence intent = .ok (result sentence)) ∧
          utterances = sentences.map result := by
  have : Inhabited Utterance := ⟨⟨[], [], []⟩⟩
  obtain ⟨sentences, expanded, made⟩ := bind_eq_ok_iff.mp made
  obtain ⟨result, each, whole⟩ := exists_of_mapM_eq_ok made
  exact ⟨sentences, mapError_eq_ok_iff.mp expanded, result,
    fun sentence member => mapError_eq_ok_iff.mp (each sentence member), whole⟩

theorem intent_of_ofSentence {sentence : Text} {utterance : Utterance}
    (built : ofSentence sentence intent = .ok utterance) : utterance.intent = intent := by
  rw [(eq_of_ofSpans_spans built).2]

end Utterance

theorem Intent.utterances_eq_ok_iff {lists : ValueLists} {intent : Intent}
    {made : List Utterance} :
    intent.utterances lists = .ok made ↔
      ∃ part : Text → List Utterance,
        (∀ template ∈ intent.templates,
          Utterance.ofTemplate lists intent.name template = .ok (part template)) ∧
        intent.templates.flatMap part = made :=
  mapM_flatten_eq_ok_iff

namespace Corpus

variable {settings : Settings} {corpus : Corpus} {culture : Option Text}
  {generatedAt : Option Moment} {model : Model} {produced : List Utterance}

theorem utterances_eq_ok_iff :
    corpus.utterances = .ok produced ↔
      ∃ part : Intent → List Utterance,
        (∀ intent ∈ corpus.intents, intent.utterances corpus.lists = .ok (part intent)) ∧
        corpus.intents.flatMap part = produced :=
  mapM_flatten_eq_ok_iff

/-- Each template has an expansion, and each sentence of it gives an utterance. -/
theorem exists_utterance_of_sentence (made : corpus.utterances = .ok produced)
    {intent : Intent} (owner : intent ∈ corpus.intents) {template : Text}
    (among : template ∈ intent.templates) :
    ∃ sentences, expand template corpus.lists = .ok sentences ∧ ∀ sentence ∈ sentences,
      ∃ utterance ∈ produced, Utterance.ofSentence sentence intent.name = .ok utterance := by
  obtain ⟨part, intents, rfl⟩ := utterances_eq_ok_iff.mp made
  obtain ⟨own, templates, whole⟩ := Intent.utterances_eq_ok_iff.mp (intents intent owner)
  obtain ⟨sentences, expanded, result, each, all⟩ :=
    Utterance.exists_of_ofTemplate (templates template among)
  refine ⟨sentences, expanded, fun sentence member => ⟨result sentence, ?_, each sentence member⟩⟩
  have given : result sentence ∈ own template := all ▸ List.mem_map_of_mem member
  exact List.mem_flatMap.mpr
    ⟨intent, owner, whole ▸ List.mem_flatMap.mpr ⟨template, among, given⟩⟩

/-- Each utterance comes from a sentence of the corpus. -/
theorem exists_sentence_of_utterance (made : corpus.utterances = .ok produced)
    {utterance : Utterance} (member : utterance ∈ produced) :
    ∃ intent ∈ corpus.intents, ∃ template ∈ intent.templates, ∃ sentences,
      expand template corpus.lists = .ok sentences ∧ ∃ sentence ∈ sentences,
        Utterance.ofSentence sentence intent.name = .ok utterance := by
  obtain ⟨part, intents, rfl⟩ := utterances_eq_ok_iff.mp made
  obtain ⟨intent, owner, member⟩ := List.mem_flatMap.mp member
  obtain ⟨own, templates, whole⟩ := Intent.utterances_eq_ok_iff.mp (intents intent owner)
  obtain ⟨template, among, member⟩ := List.mem_flatMap.mp (whole ▸ member)
  obtain ⟨sentences, expanded, result, each, all⟩ :=
    Utterance.exists_of_ofTemplate (templates template among)
  obtain ⟨sentence, place, rfl⟩ := List.mem_map.mp (all ▸ member)
  exact ⟨intent, owner, template, among, sentences, expanded, sentence, place, each sentence place⟩

/-! ## The utterances of a model -/

/-- The run of a compilation, from the utterances of the corpus. -/
theorem foldlM_intents_eq_ok_iff {progress : Progress} :
    corpus.intents.foldlM (Progress.addIntent corpus.lists) .start = .ok progress ↔
      ∃ produced, corpus.utterances = .ok produced ∧
        produced.foldl Progress.add .start = progress := by
  rw [Progress.foldlM_addIntent_eq, utterances]
  cases corpus.intents.mapM (Intent.utterances corpus.lists) with
  | error fault => exact ⟨nofun, nofun⟩
  | ok parts => simp [bind, Except.bind, pure, Except.pure]

/-- The utterances of a model are those of the corpus, each once. -/
theorem exists_utterances_of_compile
    (compiled : corpus.compile settings culture generatedAt = .ok model) :
    ∃ produced, corpus.utterances = .ok produced ∧
      model.utterances = Utterance.collect produced := by
  obtain ⟨-, -, progress, run, rfl⟩ := compile_eq_ok_iff.mp compiled
  obtain ⟨produced, made, rfl⟩ := foldlM_intents_eq_ok_iff.mp run
  exact ⟨produced, made, Progress.utterances_foldl_add produced .start⟩

/-- No two utterances of a model are equal. Each sentence to which a template of an intent expands has
exactly one, each utterance is that of such a sentence, and they stand in the order in which the
intents, their templates and the expansions of these first give them. -/
theorem utterances_once_in_order
    (compiled : corpus.compile settings culture generatedAt = .ok model) :
    model.utterances.Nodup ∧
      (∀ intent ∈ corpus.intents, ∀ template ∈ intent.templates, ∃ sentences,
        expand template corpus.lists = .ok sentences ∧ ∀ sentence ∈ sentences, ∃ utterance,
          Utterance.ofSentence sentence intent.name = .ok utterance ∧
            model.utterances.count utterance = 1) ∧
      (∀ utterance ∈ model.utterances, ∃ intent ∈ corpus.intents, ∃ template ∈ intent.templates,
        ∃ sentences, expand template corpus.lists = .ok sentences ∧ ∃ sentence ∈ sentences,
          Utterance.ofSentence sentence intent.name = .ok utterance) ∧
      ∃ produced, corpus.utterances = .ok produced ∧
        model.utterances.Pairwise fun earlier later =>
          produced.idxOf earlier < produced.idxOf later := by
  obtain ⟨produced, made, collected⟩ := exists_utterances_of_compile compiled
  rw [collected]
  have single := Utterance.nodup_collect produced
  refine ⟨single, fun intent owner template among => ?_, fun utterance member => ?_,
    produced, made, Utterance.pairwise_collect produced⟩
  · obtain ⟨sentences, expanded, each⟩ := exists_utterance_of_sentence made owner among
    refine ⟨sentences, expanded, fun sentence place => ?_⟩
    obtain ⟨utterance, member, built⟩ := each sentence place
    exact ⟨utterance, built, List.count_eq_one_of_mem single (Utterance.mem_collect.mpr member)⟩
  · exact exists_sentence_of_utterance made (Utterance.mem_collect.mp member)

/-- A sentence that several templates and two intents of one name expand to, with other blanks between
its words in one of them and with a tag in another. -/
theorem utterances_once_of_overlapping :
    compile .default
        ⟨[⟨"i", ["a ${l}", "a  b"]⟩, ⟨"j", ["a b"]⟩, ⟨"i", ["${l}", "[a b:x]", "a b"]⟩],
          [("l", ["b", "c"])], [], []⟩ none none =
      .ok ⟨"1.3.0", "tef", "Bot Model", "en-us", ["i", "j", "i"], [⟨"x", none⟩], [], [],
        [⟨"a b", "i", []⟩, ⟨"a c", "i", []⟩, ⟨"a b", "j", []⟩, ⟨"b", "i", []⟩, ⟨"c", "i", []⟩,
          ⟨"a b", "i", [⟨"x", 0, 1⟩]⟩]⟩ ∧
      ∃ utterance, Utterance.ofSentence "a  b" "i" = .ok utterance ∧
        List.count utterance
          [⟨"a b", "i", []⟩, ⟨"a c", "i", []⟩, ⟨"a b", "j", []⟩, ⟨"b", "i", []⟩, ⟨"c", "i", []⟩,
            ⟨"a b", "i", [⟨"x", 0, 1⟩]⟩] = 1 := by
  refine (and_iff_left_of_imp fun compiled => ?_).mpr ?_
  · obtain ⟨sentences, expanded, each⟩ := (utterances_once_in_order compiled).2.1
      ⟨"i", ["a ${l}", "a  b"]⟩ (by decide) "a  b" (by decide)
    cases expanded
    exact each "a  b" (by decide)
  · rfl

end Corpus
end IntentModel
