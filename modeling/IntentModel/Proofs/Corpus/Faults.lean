import IntentModel.Proofs.Corpus.Sections
import IntentModel.Proofs.Value.Tangle

/-! # What a malformed corpus is reported as

Each check of a part of a corpus fails with a shape error, or because the part holds an integer that cannot
be shown (`Checks`); a part that cannot be shown makes the whole one that cannot (`Value.isShowable_of_mem`,
`Value.isShowable_of_mem_entries`). The keys of builtin entities are looked at last and outside of these
checks: one that is no text is an error of its own, and only if all entries have the shape that their keys
ask for (`ofValue_eq_builtinKey_iff`).
-/

namespace IntentModel

namespace Corpus

variable {α β : Type} {value part : Value}

/-- A check of a value fails with a shape error, or because a part of the value cannot be shown. -/
def Checks (value : Value) (outcome : Except CorpusError α) : Prop :=
  ∀ fault, outcome = .error fault →
    (∃ error, fault = .shape error) ∨ fault = .tooManyDigits ∧ value.isShowable = false

theorem checks_ok (result : α) : Checks value (.ok result) :=
  fun _ same => nomatch same

theorem checks_shape (error : ShapeError) :
    Checks value (.error (.shape error) : Except CorpusError α) := by
  intro fault same
  exact .inl ⟨error, (Except.error.inj same).symm⟩

theorem checks_showing (error : ShapeError) :
    Checks value (.error (.showing value error) : Except CorpusError α) := by
  unfold CorpusError.showing
  split_ifs with showable
  · exact checks_shape error
  · intro fault same
    exact .inr ⟨(Except.error.inj same).symm, Bool.eq_false_iff.mpr showable⟩

theorem checks_plain? : Checks value value.plain? := by
  unfold Value.plain?
  split_ifs with showable
  · exact checks_ok _
  · intro fault same
    exact .inr ⟨(Except.error.inj same).symm, Bool.eq_false_iff.mpr showable⟩

/-- What is checked of a part is checked of the whole. -/
theorem Checks.of_part {outcome : Except CorpusError α} (own : Checks part outcome)
    (within : value.isShowable = true → part.isShowable = true) : Checks value outcome := by
  intro fault failed
  rcases own fault failed with shape | ⟨digits, unshowable⟩
  · exact .inl shape
  · refine .inr ⟨digits, Bool.eq_false_iff.mpr fun whole => ?_⟩
    rw [within whole] at unshowable
    cases unshowable

theorem Checks.bind {outcome : Except CorpusError α} {next : α → Except CorpusError β}
    (first : Checks value outcome) (rest : ∀ found, Checks value (next found)) :
    Checks value (outcome >>= next) := by
  intro fault failed
  rcases bind_eq_error_iff.mp failed with early | ⟨found, -, late⟩
  · exact first fault early
  · exact rest found fault late

theorem Checks.map {outcome : Except CorpusError α} (own : Checks value outcome) (use : α → β) :
    Checks value (outcome.map use) := by
  cases outcome with
  | ok found => exact checks_ok _
  | error fault => exact fun _ same => own _ (congrArg _ (Except.error.inj same))

theorem checks_mapM {γ : Type} {step : γ → Except CorpusError α} {items : List γ}
    (each : ∀ item ∈ items, Checks value (step item)) : Checks value (items.mapM step) := by
  intro fault failed
  rw [← fault?_eq_some_iff, fault?_mapM] at failed
  obtain ⟨item, member, own⟩ := List.exists_of_findSome?_eq_some failed
  exact each item member fault (fault?_eq_some_iff.mp own)

/-! ## The checks of the sections -/

theorem checks_textItems (key : Text) : Checks value (textItems key value) := by
  unfold textItems
  cases shape : value.opened with
  | null => exact checks_ok _
  | list items =>
    refine checks_mapM fun item member => Checks.of_part ?_ (Value.isShowable_of_mem shape member)
    unfold textItem
    split_ifs
    · exact checks_plain?
    · exact checks_showing _
  | _ => exact checks_shape _

theorem checks_words (name : Text) : Checks value (words name value) := by
  unfold words
  split_ifs
  · exact checks_ok _
  · split
    · exact checks_ok _
    · exact checks_textItems _

theorem checks_phraselist : Checks value (phraselist value) := by
  cases shape : value.opened with
  | map fields =>
    cases named : Entries.field? "name" fields with
    | none =>
      rw [phraselist_of_unnamed shape named]
      exact checks_showing _
    | some name =>
      rw [phraselist_of_named shape named]
      refine Checks.bind (checks_plain?.of_part (Value.isShowable_of_field? shape named)) fun name => ?_
      refine Checks.bind ((checks_words name).of_part ?_) fun words => ?_
      · intro whole
        unfold writtenWords
        cases written : Entries.field? "words" fields with
        | none => rfl
        | some words => exact Value.isShowable_of_field? shape written whole
      · split
        · exact checks_ok _
        · exact checks_shape _
  | _ =>
    unfold phraselist
    rw [shape]
    exact checks_showing _

theorem checks_phraselistSection : Checks value (phraselistSection value) := by
  unfold phraselistSection
  cases shape : value.opened with
  | null => exact checks_ok _
  | list items =>
    exact checks_mapM fun item member => checks_phraselist.of_part (Value.isShowable_of_mem shape member)
  | _ => exact checks_shape _

theorem checks_builtinSection : Checks value (builtinSection value) := by
  unfold builtinSection
  cases shape : value.opened with
  | null => exact checks_ok _
  | list items =>
    refine checks_mapM fun item member => Checks.of_part ?_ (Value.isShowable_of_mem shape member)
    unfold builtinEntity
    cases item.opened with
    | text name => exact checks_ok _
    | map entries => exact checks_ok _
    | _ => exact checks_showing _
  | _ => exact checks_shape _

theorem checks_readSection (key : Text) : Checks value (readSection key value) := by
  unfold readSection
  split
  · exact (checks_textItems key).map _
  · exact checks_phraselistSection.map _
  · exact checks_builtinSection.map _
  · exact (checks_textItems key).map _

theorem checks_readEntries {entries : Entries} (shape : value.opened = .map entries) :
    Checks value (entries.mapM readEntry) := by
  refine checks_mapM fun entry member => Checks.bind (checks_plain?.of_part ?_) fun key => ?_
  · exact fun whole => (Value.isShowable_of_mem_entries shape member whole).1
  · exact (checks_readSection key).of_part fun whole =>
      (Value.isShowable_of_mem_entries shape member whole).2

/-! ## The keys of builtin entities -/

/-- The first key of builtin entities that is no text and does not encode one. -/
def firstOddKey? (entities : List Entries) : Option Value :=
  (entities.flatMap fun entries => entries.map (·.1)).find? (·.asText?.isNone)

theorem fault?_ofEntries (entries : Entries) :
    fault? (Fields.ofEntries entries) = (entries.map (·.1)).find? (·.asText?.isNone) := by
  rw [Fields.ofEntries, List.find?_map, List.find?_eq_findSome?_guard, List.map_findSome?]
  apply fault?_foldlM
  intro fields entry
  cases named : entry.1.asText? with
  | none => simp [named, fault?, Option.guard]
  | some name => simp [named, fault?, Option.guard]

theorem fault?_mapM_ofEntries (entities : List Entries) :
    fault? (entities.mapM Fields.ofEntries) = firstOddKey? entities := by
  rw [fault?_mapM, firstOddKey?, List.find?_flatMap]
  simp only [fault?_ofEntries]

/-- All entries have the shape that their keys ask for, and a key is the first one of a builtin entity that
is no text. -/
def HasOddKey (key raw : Value) : Prop :=
  match raw.opened with
  | .map entries =>
    (∀ entry ∈ entries, entry.1.isShowable = true ∧ MayHold entry.1.plain entry.2) ∧
      firstOddKey? (readList entityEntries (under "builtin" entries)) = some key
  | _ => False

theorem toCorpus_eq_error_iff {sections : Sections} {fault : CorpusError} :
    sections.toCorpus = .error fault ↔
      ∃ key, firstOddKey? sections.builtin = some key ∧ fault = .builtinKey key := by
  unfold Sections.toCorpus
  rw [← fault?_mapM_ofEntries, bind_eq_error_iff, mapError_eq_error_iff]
  simp only [fault?_eq_some_iff, eq_comm (a := fault)]
  constructor
  · rintro (failed | ⟨_, -, none⟩)
    · exact failed
    · cases none
  · exact .inl

theorem ofValue_eq_builtinKey_iff (raw key : Value) :
    ofValue raw = .error (.builtinKey key) ↔ HasOddKey key raw := by
  unfold HasOddKey
  cases shape : raw.opened with
  | map entries =>
    rw [ofValue_map shape, bind_eq_error_iff]
    constructor
    · rintro (early | ⟨parts, read, late⟩)
      · rcases checks_readEntries shape _ early with ⟨_, shape⟩ | ⟨digits, -⟩
        · cases shape
        · cases digits
      · obtain ⟨good, rfl⟩ := (mapM_eq_ok_iff readEntry_eq_ok_iff).mp read
        rw [foldl_take, toCorpus_eq_error_iff] at late
        obtain ⟨_, first, same⟩ := late
        cases same
        exact ⟨good, first⟩
    · rintro ⟨good, first⟩
      refine .inr ⟨_, (mapM_eq_ok_iff readEntry_eq_ok_iff).mpr ⟨good, rfl⟩, ?_⟩
      rw [foldl_take, toCorpus_eq_error_iff]
      exact ⟨key, first, rfl⟩
  | _ => simp [ofValue, shape]

/-- Without a builtin key that is no text, the checks are all that can fail. -/
theorem checks_ofValue {raw : Value} (texts : ∀ key, ¬HasOddKey key raw) : Checks raw (ofValue raw) := by
  cases shape : raw.opened with
  | map entries =>
    intro fault failed
    have whole := failed
    rw [ofValue_map shape, bind_eq_error_iff] at failed
    rcases failed with early | ⟨parts, -, late⟩
    · exact checks_readEntries shape fault early
    · obtain ⟨key, -, rfl⟩ := toCorpus_eq_error_iff.mp late
      exact absurd ((ofValue_eq_builtinKey_iff _ key).mp whole) (texts key)
  | null =>
    unfold ofValue
    rw [shape]
    exact checks_ok _
  | _ =>
    unfold ofValue
    rw [shape]
    exact checks_shape _

/-- A value that can be shown and whose builtin entities have texts as keys is a corpus or is reported with a
shape error. A builtin key that is no text is reported as such when all entries have their shape, and the
error for digits means that a part of the value cannot be shown. -/
theorem ofValue_reports (raw : Value) :
    (raw.isShowable = true → (∀ key, ¬HasOddKey key raw) →
      (∃ corpus, ofValue raw = .ok corpus) ∨ ∃ error, ofValue raw = .error (.shape error)) ∧
    (∀ key, ofValue raw = .error (.builtinKey key) ↔ HasOddKey key raw) ∧
    (ofValue raw = .error .tooManyDigits → raw.isShowable = false) := by
  refine ⟨?_, ofValue_eq_builtinKey_iff raw, ?_⟩
  · intro showable texts
    cases made : ofValue raw with
    | ok corpus => exact .inl ⟨corpus, rfl⟩
    | error fault =>
      rcases checks_ofValue texts fault made with ⟨error, rfl⟩ | ⟨-, unshowable⟩
      · exact .inr ⟨error, rfl⟩
      · rw [showable] at unshowable
        cases unshowable
  · intro failed
    have texts : ∀ key, ¬HasOddKey key raw := by
      intro key odd
      cases failed.symm.trans ((ofValue_eq_builtinKey_iff raw key).mpr odd)
    rcases checks_ofValue texts _ failed with ⟨_, shape⟩ | ⟨-, unshowable⟩
    · cases shape
    · exact unshowable

/-- A corpus in which a flag of a phrase list is null. -/
def flaglessValue : Value :=
  .map [(.text "hi", .list [.text "a"]), (.text "builtin", .list [.map [(.text "name", .text "n")]]),
    (.text "phraselist", .list [.map [(.text "name", .text "p"), (.text "mode", .null)]])]

theorem ofValue_reports_flag :
    flaglessValue.isShowable = true ∧ (∀ key, ¬HasOddKey key flaglessValue) ∧
      ∃ error, ofValue flaglessValue = .error (.shape error) := by
  have texts : ∀ key, ¬HasOddKey key flaglessValue := by
    rintro key ⟨-, odd⟩
    cases odd
  refine ⟨by decide, texts, ?_⟩
  rcases (ofValue_reports flaglessValue).1 (by decide) texts with ⟨_, made⟩ | reported
  · rw [show ofValue flaglessValue = .error (.shape (.phraselistFlag "p")) by decide +kernel] at made
    cases made
  · exact reported

/-- A key of a builtin mapping that is a number is not reported with a shape error. -/
theorem reported_without_shape :
    ¬ ∀ raw : Value, (∃ corpus, ofValue raw = .ok corpus) ∨ ∃ error, ofValue raw = .error (.shape error) := by
  intro reported
  have failed : ofValue (.map [(.text "builtin", .list [.map [(.int 1, .text "number")]])]) =
      .error (.builtinKey (.int 1)) := by decide +kernel
  rcases reported (.map [(.text "builtin", .list [.map [(.int 1, .text "number")]])]) with
    ⟨_, made⟩ | ⟨_, shape⟩
  · cases failed.symm.trans made
  · cases failed.symm.trans shape

end Corpus

end IntentModel
