import IntentModel.Proofs.Collection
import IntentModel.Proofs.CompilationFault
import IntentModel.Proofs.Tag.Pieces
import IntentModel.Proofs.Template.Replacement

/-! # A placeholder inside a tag

Where the value of a tag is a placeholder, the expansion writes each value of the list between the bracket
and the colon without looking at it (`expand_template`), and the sentences are read for tags only then. A
value without brackets and colons keeps its tag (`utterance_of_value`). Any other value is itself read as a
part of the notation: a colon ends the value of the tag early, an opening bracket begins it late, and a closing
one breaks it off, so that no tag is left (`tagFree_sentence`).
-/

namespace IntentModel

open Placeholder Text

/-- The text has none of the marks. -/
def Text.FreeOf (text : Text) (marks : List CodePoint) : Prop :=
  ∀ c ∈ text, c ∉ marks

instance (text : Text) (marks : List CodePoint) : Decidable (text.FreeOf marks) :=
  List.decidableBAll _ text

/-- The text has a character that is not blank. -/
def Text.Visible (text : Text) : Prop :=
  ∃ c ∈ text, isBlank c = false

instance (text : Text) : Decidable text.Visible :=
  List.decidableBEx _ text

/-- A template that consists of free text and of one tag, whose value is a placeholder. -/
structure TaggedPlaceholder where
  front : Text
  name : Text
  label : Text
  back : Text
  isName : IsName name
  label_ne_nil : label ≠ []
  front_free : front.FreeOf [.char '[', .char ']', .char '$', .char '{', .char '}']
  label_free : label.FreeOf [.char '[', .char ']', .char '$', .char '{', .char '}']
  back_free : back.FreeOf [.char '[', .char ']', .char '$', .char '{', .char '}']

namespace Text

variable {text : Text} {marks : List CodePoint}

theorem FreeOf.mono {fewer : List CodePoint} (free : text.FreeOf marks) (known : fewer ⊆ marks) :
    text.FreeOf fewer :=
  fun c member mark => free c member (known mark)

theorem freeOf_append {other : Text} :
    FreeOf (text ++ other) marks ↔ text.FreeOf marks ∧ other.FreeOf marks :=
  List.forall_mem_append

theorem freeOf_cons {c : CodePoint} : FreeOf (c :: text) marks ↔ c ∉ marks ∧ text.FreeOf marks :=
  List.forall_mem_cons

theorem FreeOf.isPlainChar (free : text.FreeOf [.char '$', .char '{', .char '}']) :
    ∀ c ∈ text, isPlainChar c = true := by
  intro c member
  simpa [Placeholder.isPlainChar, isNameChar] using free c member

theorem FreeOf.isValueChar (free : text.FreeOf [.char '[', .char ']', .char ':']) :
    ∀ c ∈ text, Tag.isValueChar c = true := by
  intro c member
  simpa [Tag.isValueChar, and_assoc] using free c member

theorem FreeOf.isLabelChar (free : text.FreeOf [.char '[', .char ']']) :
    ∀ c ∈ text, Tag.isLabelChar c = true := by
  intro c member
  simpa [Tag.isLabelChar] using free c member

theorem FreeOf.tagFree (free : text.FreeOf [.char '[']) : text.TagFree := by
  have plain : .char '[' ∉ text := fun member => free _ member (List.mem_singleton_self _)
  have none := spansFrom_append_of_no_bracket plain 0 []
  rwa [List.append_nil, spansFrom, spansFrom_eq_nil_iff] at none

end Text

/-- A closing bracket where a value stands leaves no tag. -/
theorem Tag.read?_broken {start : Text} (values : ∀ c ∈ start, isValueChar c = true) (rest : Text) :
    read? (.char '[' :: (start ++ .char ']' :: rest)) = none := by
  have bracket : isValueChar ']' = false := by decide
  rw [read?]
  simp [List.dropWhile_append_of_pos values, bracket]

namespace TaggedPlaceholder

variable {place : TaggedPlaceholder} {value : Text}

/-- The tag with a value in the place of the placeholder. -/
def tag (place : TaggedPlaceholder) (value : Text) : Tag :=
  ⟨value, place.label⟩

/-- The sentence with a value in the place of the placeholder. -/
def sentence (place : TaggedPlaceholder) (value : Text) : Text :=
  place.front ++ (place.tag value).text ++ place.back

def template (place : TaggedPlaceholder) : Text :=
  place.sentence (Placeholder.text place.name)

/-- The value without the tag around it, between the free texts. -/
def plain (place : TaggedPlaceholder) (value : Text) : Text :=
  place.front ++ value ++ place.back

/-! ## Expansion -/

def opening (place : TaggedPlaceholder) : Text :=
  place.front ++ [.char '[']

def closing (place : TaggedPlaceholder) : Text :=
  .char ':' :: place.label ++ .char ']' :: place.back

theorem sentence_eq (place : TaggedPlaceholder) (value : Text) :
    place.sentence value = place.opening ++ (value ++ place.closing) := by
  simp [sentence, tag, Tag.text, opening, closing]

theorem isPlainChar_opening (place : TaggedPlaceholder) : ∀ c ∈ place.opening, isPlainChar c = true := by
  have front : place.front.FreeOf [.char '$', .char '{', .char '}'] := place.front_free.mono (by simp)
  exact List.forall_mem_append.mpr ⟨front.isPlainChar, List.forall_mem_singleton.mpr (by decide)⟩

theorem isPlainChar_closing (place : TaggedPlaceholder) : ∀ c ∈ place.closing, isPlainChar c = true := by
  have label : place.label.FreeOf [.char '$', .char '{', .char '}'] := place.label_free.mono (by simp)
  have back : place.back.FreeOf [.char '$', .char '{', .char '}'] := place.back_free.mono (by simp)
  exact List.forall_mem_append.mpr ⟨List.forall_mem_cons.mpr ⟨by decide, label.isPlainChar⟩,
    List.forall_mem_cons.mpr ⟨by decide, back.isPlainChar⟩⟩

theorem references_template (place : TaggedPlaceholder) : place.template.references = [place.name] := by
  rw [template, sentence_eq, (WellFormed.of_plain place.isPlainChar_opening).references_append,
    references_of_plain place.isPlainChar_opening, references_place place.isName,
    references_of_plain place.isPlainChar_closing, List.nil_append]

theorem references_sentence (free : value.FreeOf [.char '$', .char '{', .char '}']) :
    (place.sentence value).references = [] := by
  rw [sentence_eq]
  apply references_of_plain
  exact List.forall_mem_append.mpr ⟨place.isPlainChar_opening,
    List.forall_mem_append.mpr ⟨free.isPlainChar, place.isPlainChar_closing⟩⟩

theorem fill_template (place : TaggedPlaceholder) (value : Text) :
    place.template.fill place.name value = place.sentence value := by
  have kept {text : Text} (plain : ∀ c ∈ text, isPlainChar c = true) (value? : Text → Option Text) :
      text.instantiate value? = text := by
    apply (WellFormed.of_plain plain).instantiate_eq_self
    simp [references_of_plain plain]
  rw [fill_eq_instantiate place.isName, template, sentence_eq, sentence_eq,
    (WellFormed.of_plain place.isPlainChar_opening).instantiate_append, instantiate_place place.isName,
    kept place.isPlainChar_opening, kept place.isPlainChar_closing, if_pos rfl, Option.getD_some]

variable {lists : ValueLists} {values : List Text}

theorem fillable (declared : lists.get? place.name = some values)
    (free : ∀ value ∈ values, value.FreeOf [.char '$', .char '{', .char '}']) :
    Fillable lists place.template place.name values := by
  refine ⟨?_, declared, Bool.eq_false_iff.mpr fun cyclic => ?_⟩
  · rw [leftmostPlaceholder?_eq_head?, references_template]
    rfl
  · -- the values refer to nothing, so no way leads on from the list
    obtain ⟨next, refers, -⟩ :=
      Relation.TransGen.head'_iff.mp ((ValueLists.leadsBack_iff lists place.name).mp cyclic)
    obtain ⟨own, found, value, choice, inside⟩ := ValueLists.refersTo_iff.mp refers
    cases declared.symm.trans found
    rw [references_of_plain (free value choice).isPlainChar] at inside
    cases inside

/-- The template expands to one sentence for each value. -/
theorem expand_template (declared : lists.get? place.name = some values)
    (free : ∀ value ∈ values, value.FreeOf [.char '$', .char '{', .char '}']) :
    expand place.template lists = .ok (values.map place.sentence) := by
  have each : ∀ value ∈ values, expandWithin lists place.template
      (Nat.pow (lists.length + 1) (lists.length + 1) + 999) (place.template.fill place.name value) =
        .ok [place.sentence value] := by
    intro value choice
    rw [fill_template]
    apply expandWithin_of_finished
    rw [leftmostPlaceholder?_eq_none_iff, references_sentence (free value choice)]
  have flat : (values.map fun value => [place.sentence value]).flatten = values.map place.sentence := by
    rw [← List.flatMap_def, List.map_eq_flatMap]
  rw [expand, replacementLimit, (fillable declared free).expandWithin_succ, mapM_eq_ok each]
  exact congrArg Except.ok flat

/-! ## Reading -/

def pieces (place : TaggedPlaceholder) (value : Text) : Pieces :=
  ⟨place.front, [(place.tag value, place.back)]⟩

theorem text_pieces (place : TaggedPlaceholder) (value : Text) :
    (place.pieces value).text = place.sentence value := by
  simp [pieces, Pieces.text, sentence]

theorem tagFree_front (place : TaggedPlaceholder) : place.front.TagFree := by
  have front : place.front.FreeOf [.char '['] := place.front_free.mono (by simp)
  exact front.tagFree

theorem wellFormed_pieces (present : value ≠ []) (free : value.FreeOf [.char '[', .char ']', .char ':']) :
    (place.pieces value).WellFormed := by
  have label : place.label.FreeOf [.char '[', .char ']'] := place.label_free.mono (by simp)
  have back : place.back.FreeOf [.char '['] := place.back_free.mono (by simp)
  exact Pieces.wellFormed_cons.mpr ⟨untagged_iff.mpr place.tagFree_front,
    ⟨present, place.label_ne_nil, free.isValueChar, label.isLabelChar⟩,
    untagged_iff.mpr back.tagFree, by simp, by simp⟩

theorem spans_sentence (present : value ≠ []) (free : value.FreeOf [.char '[', .char ']', .char ':']) :
    (place.sentence value).spans =
      [⟨place.tag value, place.front.length, place.front.length + (place.tag value).text.length⟩] := by
  rw [← text_pieces, Pieces.spans_text (wellFormed_pieces present free)]
  rfl

theorem withoutTags_sentence (present : value ≠ []) (free : value.FreeOf [.char '[', .char ']', .char ':']) :
    (place.sentence value).withoutTags = place.plain value := by
  rw [← text_pieces, Pieces.withoutTags_text (wellFormed_pieces present free)]
  simp [pieces, Pieces.plain, plain, tag]

/-- A closing bracket in a value breaks the tag off, and no other one begins. -/
theorem tagFree_sentence (broken : .char ']' ∈ value) (free : value.FreeOf [.char '[', .char ':']) :
    (place.sentence value).TagFree := by
  obtain ⟨start, rest, split, first⟩ := List.eq_append_cons_of_mem broken
  have own : Text.FreeOf start [.char '[', .char ']', .char ':'] := by
    intro c member mark
    have other : c ≠ ']' := fun same => first (same ▸ member)
    exact free c (split ▸ List.mem_append_left _ member) (by simpa [other] using mark)
  have nothing : Tag.read? (.char '[' :: (value ++ place.closing)) = none := by
    rw [split, List.append_assoc]
    exact Tag.read?_broken own.isValueChar _
  have whole : place.sentence value = place.front ++ .char '[' :: (value ++ place.closing) := by
    simp [sentence_eq, opening]
  have behind : Text.FreeOf (value ++ place.closing) [.char '['] := by
    have label : place.label.FreeOf [.char '['] := place.label_free.mono (by simp)
    have back : place.back.FreeOf [.char '['] := place.back_free.mono (by simp)
    exact freeOf_append.mpr ⟨free.mono (by simp), freeOf_append.mpr
      ⟨freeOf_cons.mpr ⟨by decide, label⟩, freeOf_cons.mpr ⟨by decide, back⟩⟩⟩
  -- the bracket cuts the sentence, and what it begins is no tag
  have cut := spansFrom_append_bracket 0 place.front (value ++ place.closing)
  rw [← whole, spansFrom_cons_none nothing, (spansFrom_eq_nil_iff _ _).mpr place.tagFree_front,
    (spansFrom_eq_nil_iff _ _).mpr behind.tagFree] at cut
  exact (spansFrom_eq_nil_iff 0 _).mp cut

/-- A value without brackets and colons keeps its tag: the one mention of the utterance bears the label and
covers the tokens of the value. -/
theorem utterance_of_value {intent : Text} {utterance : Utterance} (present : value ≠ [])
    (free : value.FreeOf [.char '[', .char ']', .char ':'])
    (built : Utterance.ofSentence (place.sentence value) intent = .ok utterance) :
    utterance.intent = intent ∧ utterance.text = (place.plain value).joinTokens ∧
      ∃ first last : Nat, utterance.mentions = [⟨place.label, first, last⟩] ∧
        ∀ number, first ≤ number ∧ number ≤ last ↔
          ∃ offset, place.front.length ≤ offset ∧ offset < (place.front ++ value).length ∧
            (place.plain value).Covers number offset := by
  obtain ⟨filled, rfl⟩ := Utterance.eq_of_ofSpans_spans built
  have spans := @spans_sentence place value present free
  rw [spans] at filled
  have tokens : value.tokens ≠ [] := filled _ (List.mem_singleton_self _)
  obtain ⟨first, last, located, covers⟩ := Utterance.exists_locate place.label place.front tokens
  obtain ⟨starts, ends⟩ := covers place.back
  have text := @withoutTags_sentence place value present free
  refine ⟨rfl, by rw [text], first, last, ?_, covers_value_iff tokens starts ends⟩
  have upTo : (place.sentence value).take place.front.length = place.front := by
    rw [sentence, List.append_assoc, List.take_left]
  rw [spans, List.map_singleton, Utterance.mentionOf]
  simp only [upTo, withoutTags_of_tagFree place.tagFree_front]
  exact congrArg (fun mention => [mention]) located

/-! ## Compilation -/

/-- A value that is not blank and does not open or divide a tag itself lets its sentence pass: the tag keeps
the value or is broken off. -/
theorem tagged_sentence (visible : value.Visible) (free : value.FreeOf [.char '[', .char ':']) :
    (place.sentence value).Tagged := by
  obtain ⟨c, member, shown⟩ := visible
  intro span among blank
  by_cases broken : .char ']' ∈ value
  · rw [spans, (spansFrom_eq_nil_iff 0 _).mpr (tagFree_sentence broken free)] at among
    cases among
  · have whole : value.FreeOf [.char '[', .char ']', .char ':'] := by
      intro d inside mark
      have other : d ≠ ']' := fun same => broken (same ▸ inside)
      exact free d inside (by simpa [other] using mark)
    rw [spans_sentence (List.ne_nil_of_mem member) whole] at among
    rw [List.mem_singleton.mp among] at blank
    rw [blank c member] at shown
    cases shown

/-- A corpus with one template, which has a placeholder inside a tag, compiles when no value of the list
holds an opening bracket or a colon; values are not blank and have no dollar signs and braces. And whenever
it compiles, each value without brackets and colons has an utterance of the intent: its text is that of the
template with the value in the place of the tag, and it has one entity, which bears the label of the tag and
covers exactly the tokens that cover some character of the value. -/
theorem compile_template (place : TaggedPlaceholder) {settings : Settings} {corpus : Corpus}
    {culture : Option Text} {generatedAt : Option Moment} {intent : Intent} {values : List Text}
    (supported : Corpus.HasCulture settings culture) (fit : Corpus.NamesFit settings corpus.intents)
    (owner : intent ∈ corpus.intents) (written : place.template ∈ intent.templates)
    (single : corpus.intents.flatMap (·.templates) = [place.template])
    (declared : corpus.lists.get? place.name = some values)
    (free : ∀ value ∈ values, value.FreeOf [.char '$', .char '{', .char '}'])
    (visible : ∀ value ∈ values, value.Visible) :
    ((∀ value ∈ values, value.FreeOf [.char '[', .char ':']) →
      ∃ model, corpus.compile settings culture generatedAt = .ok model) ∧
    ∀ model, corpus.compile settings culture generatedAt = .ok model →
      ∀ value ∈ values, value.FreeOf [.char '[', .char ']', .char ':'] → ∃ utterance ∈ model.utterances,
        utterance.intent = intent.name ∧ utterance.text = (place.plain value).joinTokens ∧
          ∃ first last : Nat, utterance.mentions = [⟨place.label, first, last⟩] ∧
            ∀ number, first ≤ number ∧ number ≤ last ↔
              ∃ offset, place.front.length ≤ offset ∧ offset < (place.front ++ value).length ∧
                (place.plain value).Covers number offset := by
  have expanded := expand_template declared free
  constructor
  · intro clean
    refine Corpus.exists_compile_eq_ok_iff.mpr ⟨supported, fit, fun other among template member => ?_⟩
    have only : template ∈ [place.template] := single ▸ List.mem_flatMap.mpr ⟨other, among, member⟩
    rw [List.mem_singleton.mp only]
    refine ⟨_, expanded, fun sentence made => ?_⟩
    obtain ⟨value, choice, rfl⟩ := List.mem_map.mp made
    exact tagged_sentence (visible value choice) (clean value choice)
  · intro model compiled value choice clean
    obtain ⟨produced, made, collected⟩ := Corpus.exists_utterances_of_compile compiled
    obtain ⟨sentences, same, each⟩ := Corpus.exists_utterance_of_sentence made owner written
    cases expanded.symm.trans same
    obtain ⟨utterance, member, built⟩ := each _ (List.mem_map_of_mem choice)
    obtain ⟨c, inside, -⟩ := visible value choice
    refine ⟨utterance, ?_, utterance_of_value (List.ne_nil_of_mem inside) clean built⟩
    rw [collected]
    exact Utterance.mem_collect.mpr member

/-- A template that asks for a time. -/
def atTime : TaggedPlaceholder where
  front := "wake me at "
  name := "t"
  label := "time"
  back := []
  isName := ⟨by decide, List.forall_mem_singleton.mpr (by decide)⟩
  label_ne_nil := by decide
  front_free := by decide
  label_free := by decide
  back_free := by decide

/-- The corpus of this template with values for it. -/
def atTimes (values : List Text) : Corpus :=
  ⟨[⟨"alarm", [atTime.template]⟩], [("t", values)], [], []⟩

theorem compile_template_times :
    (∃ model, (atTimes ["7 pm", "noon"]).compile .default none none = .ok model) ∧
      ∀ model, (atTimes ["7 pm", "noon"]).compile .default none none = .ok model →
        ∃ utterance ∈ model.utterances, utterance.text = "wake me at 7 pm" ∧
          ∃ first last : Nat, utterance.mentions = [⟨"time", first, last⟩] := by
  obtain ⟨compiles, keeps⟩ := @compile_template atTime .default (atTimes ["7 pm", "noon"]) none none
    ⟨"alarm", [atTime.template]⟩ ["7 pm", "noon"] (Corpus.supports_cultureFor.mp rfl)
    (List.forall_mem_singleton.mpr (by decide)) (.head _) (.head _) rfl rfl (by decide) (by decide)
  refine ⟨compiles (by decide), fun model compiled => ?_⟩
  obtain ⟨utterance, member, -, text, first, last, marked, -⟩ :=
    keeps model compiled "7 pm" (.head _) (by decide)
  exact ⟨utterance, member, text, first, last, marked⟩

/-- Values for the template that are not blank and have none of the given marks. -/
def Allowed (marks : List CodePoint) (values : List Text) : Prop :=
  ∀ value ∈ values, value.FreeOf [.char '$', .char '{', .char '}'] ∧ value.FreeOf marks ∧ value.Visible

instance (marks : List CodePoint) (values : List Text) : Decidable (Allowed marks values) :=
  List.decidableBAll _ values

/-- The template compiles with all values that have none of the marks. -/
def CompilesWithout (marks : List CodePoint) : Prop :=
  ∀ values, Allowed marks values → ∃ model, (atTimes values).compile .default none none = .ok model

/-- All values that have none of the marks have an utterance with their text. -/
def KeepsWithout (marks : List CodePoint) : Prop :=
  ∀ values, Allowed marks values → ∀ model, (atTimes values).compile .default none none = .ok model →
    ∀ value ∈ values, ∃ utterance ∈ model.utterances, utterance.text = (atTime.plain value).joinTokens

theorem not_compilesWithout {marks : List CodePoint} {error : CompilationError} (values : List Text)
    (allowed : Allowed marks values)
    (failed : (atTimes values).compile .default none none = .error error) : ¬CompilesWithout marks := by
  intro compiles
  obtain ⟨model, made⟩ := compiles values allowed
  cases failed.symm.trans made

theorem not_keepsWithout {marks : List CodePoint} {model : Model} (value : Text)
    (allowed : Allowed marks [value])
    (compiled : (atTimes [value]).compile .default none none = .ok model)
    (other : ∀ utterance ∈ model.utterances, utterance.text ≠ (atTime.plain value).joinTokens) :
    ¬KeepsWithout marks := by
  intro kept
  obtain ⟨utterance, member, text⟩ := kept [value] allowed model compiled value (.head _)
  exact other utterance member text

/-- Values that hold brackets or colons are read again. An opening bracket or a colon alone can leave a blank
tag, which is refused, and each of the three marks alone can make a value lose its text. -/
theorem values_read_again :
    ¬CompilesWithout [.char ':', .char ']'] ∧ ¬CompilesWithout [.char '[', .char ']'] ∧
      ¬KeepsWithout [.char ':', .char ']'] ∧ ¬KeepsWithout [.char '[', .char ':'] ∧
      ¬KeepsWithout [.char '[', .char ']'] := by
  refine ⟨?_, ?_, ?_, ?_, ?_⟩
  · exact not_compilesWithout ["a[ "] (by decide) rfl
  · exact not_compilesWithout [" :x"] (by decide) rfl
  · exact not_keepsWithout "a[b" (by decide) rfl (by decide)
  · exact not_keepsWithout "a]b" (by decide) rfl (by decide)
  · exact not_keepsWithout "10:30" (by decide) rfl (by decide)

end TaggedPlaceholder
end IntentModel
