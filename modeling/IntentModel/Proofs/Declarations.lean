import IntentModel.Proofs.Compilation
import IntentModel.Proofs.EntityGroups

/-! # Labels and entities of a written model

A written model is read by the names of its fields (`Value.field?`, `Value.rows`). A label that an utterance
bears is compared letter by letter with what the entries of the model declare (`Value.Declares`): a label is
the name of an entry, or a name and a child with `::` between them. Nothing is lost when a label is split,
except that an empty child counts as none (`LabelParts.text_ofLabel`); so the labels that end with their first
`::`, and no others, are not declared as they are written (`labels_of_model`).
-/

namespace IntentModel

namespace Value

def field? (name : Text) : Value → Option Value
  | map entries => Entries.field? name entries
  | _ => none

/-- The items of a field that is a list. -/
def rows (name : Text) (written : Value) : List Value :=
  match written.field? name with
  | some (list items) => items
  | _ => []

def HasEntry (written : Value) (name : Text) : Prop :=
  ∃ entry ∈ written.rows "entities", entry.field? "name" = some (.text name)

/-- An entry of a written model declares a label letter by letter: as its name, or as its name and one of
its children with `::` between them. -/
def Declares (written : Value) (label : Text) : Prop :=
  ∃ entry ∈ written.rows "entities", ∃ name, entry.field? "name" = some (.text name) ∧
    (label = name ∨ ∃ child, .text child ∈ entry.rows "children" ∧ label = name ++ "::" ++ child)

theorem rows_utterances (model : Model) :
    model.toValue.rows "utterances" = model.utterances.map (·.toValue) := rfl

theorem rows_entities (model : Model) :
    model.toValue.rows "entities" = model.entities.map (·.toValue) := rfl

theorem rows_mentions (utterance : Utterance) :
    utterance.toValue.rows "entities" = utterance.mentions.map (·.toValue) := rfl

theorem field?_label (mention : Mention) :
    mention.toValue.field? "entity" = some (.text mention.label) := rfl

theorem field?_name (entity : Entity) : entity.toValue.field? "name" = some (.text entity.name) := rfl

theorem rows_children (entity : Entity) :
    entity.toValue.rows "children" = (entity.children.getD []).map .text := by
  cases entity with
  | mk name children =>
    cases children with
    | none => rfl
    | some children => rfl

end Value

/-- The first `::` of a label is its end. -/
def EndsAtCut (label : Text) : Prop :=
  ∃ parent, Text.FirstCut label "::" parent []

theorem not_infix_parent (label : Text) : ¬ ("::" : Text) <:+: (LabelParts.ofLabel label).parent := by
  have named := LabelParts.ofLabel_named label
  generalize LabelParts.ofLabel label = parts at named ⊢
  cases named with
  | whole apart => exact apart
  | bare cut => exact cut.not_infix (by decide)
  | composite cut _ => exact cut.not_infix (by decide)

/-- The label that is written for its parts. -/
def LabelParts.text (parts : LabelParts) : Text :=
  match parts.child with
  | none => parts.parent
  | some child => parts.parent ++ "::" ++ child

/-- The parts of a label give it back, unless it ends with its first `::`. -/
theorem LabelParts.text_ofLabel {label : Text} (proper : ¬EndsAtCut label) :
    (LabelParts.ofLabel label).text = label := by
  have named := LabelParts.ofLabel_named label
  generalize LabelParts.ofLabel label = parts at named ⊢
  cases named with
  | whole _ => rfl
  | bare cut => exact absurd ⟨_, cut⟩ proper
  | composite cut _ => exact cut.whole.symm

section Written

variable {model : Model} {label name : Text}

theorem hasEntry_iff : model.toValue.HasEntry name ↔ ∃ entity ∈ model.entities, entity.name = name := by
  simp only [Value.HasEntry, Value.rows_entities, List.mem_map, exists_exists_and_eq_and, Value.field?_name,
    Option.some.injEq, Value.text.injEq]

theorem declares_iff : model.toValue.Declares label ↔
    ∃ entity ∈ model.entities, label = entity.name ∨
      ∃ child ∈ entity.children.getD [], label = entity.name ++ "::" ++ child := by
  simp only [Value.Declares, Value.rows_entities, List.mem_map, exists_exists_and_eq_and, Value.field?_name,
    Value.rows_children, Option.some.injEq, Value.text.injEq, exists_eq_left', exists_eq_right]

end Written

namespace Corpus

variable {settings : Settings} {corpus : Corpus} {culture : Option Text}
  {generatedAt : Option Moment} {model : Model} {label : Text}

theorem entities_of_compile (compiled : corpus.compile settings culture generatedAt = .ok model) :
    model.entities =
      (EntityCatalog.empty.declareAll (model.utterances.flatMap Utterance.labels)).entities := by
  obtain ⟨-, -, progress, run, rfl⟩ := compile_eq_ok_iff.mp compiled
  exact congrArg EntityCatalog.entities (Progress.settled_of_run run)

theorem exists_entity_of_label (compiled : corpus.compile settings culture generatedAt = .ok model)
    {utterance : Utterance} (member : utterance ∈ model.utterances) (named : label ∈ utterance.labels) :
    ∃ entity ∈ model.entities, entity.name = (LabelParts.ofLabel label).parent ∧
      entity.Has (LabelParts.ofLabel label).child := by
  obtain ⟨entity, found, has⟩ := EntityCatalog.declares_declareAll EntityCatalog.empty
    (List.mem_flatMap.mpr ⟨utterance, member, named⟩)
  obtain ⟨among, own⟩ := EntityCatalog.of_find? found
  rw [← entities_of_compile compiled] at among
  exact ⟨entity, among, own, has⟩

theorem declares_of_proper (compiled : corpus.compile settings culture generatedAt = .ok model)
    {utterance : Utterance} (member : utterance ∈ model.utterances) (named : label ∈ utterance.labels)
    (proper : ¬EndsAtCut label) : model.toValue.Declares label := by
  obtain ⟨entity, among, own, has⟩ := exists_entity_of_label compiled member named
  have whole := LabelParts.text_ofLabel proper
  rw [LabelParts.text, ← own] at whole
  refine declares_iff.mpr ⟨entity, among, ?_⟩
  cases child : (LabelParts.ofLabel label).child with
  | none =>
    rw [child] at whole
    exact .inl whole.symm
  | some inner =>
    rw [child] at whole
    exact .inr ⟨inner, has inner child, whole.symm⟩

/-- What entries declare are no labels that end with their first `::`: a name holds no `::`, and a child is
not empty. -/
theorem not_declares_of_endsAtCut (compiled : corpus.compile settings culture generatedAt = .ok model)
    (ends : EndsAtCut label) : ¬model.toValue.Declares label := by
  obtain ⟨parent, cut⟩ := ends
  rw [declares_iff, entities_of_compile compiled]
  rintro ⟨entity, member, declared⟩
  obtain ⟨⟨source, -, named⟩, children⟩ := EntityCatalog.backed_declareAll _ entity member
  rcases declared with rfl | ⟨child, inside, rfl⟩
  · refine not_infix_parent source ⟨parent, [], ?_⟩
    rw [named, cut.whole]
  · obtain ⟨origin, -, parts⟩ := children child inside
    have of := LabelParts.ofLabel_named origin
    rw [parts] at of
    cases of with
    | composite first written =>
      rw [← first.whole] at cut
      exact written (first.unique cut).2

/-- In a written model each label of an utterance that does not end with its first `::` is the name of an
entry, or the name of an entry and one of its children with `::` between them. What stands before the `::` of
another label is the name of an entry, but no entry declares that label as it is written. -/
theorem labels_of_model (compiled : corpus.compile settings culture generatedAt = .ok model) :
    ∀ utterance ∈ model.toValue.rows "utterances", ∀ mention ∈ utterance.rows "entities",
      ∃ label, mention.field? "entity" = some (.text label) ∧
        (model.toValue.Declares label ↔ ¬EndsAtCut label) ∧
        ∀ parent, Text.FirstCut label "::" parent [] → model.toValue.HasEntry parent := by
  intro written among mention inside
  rw [Value.rows_utterances] at among
  obtain ⟨utterance, member, rfl⟩ := List.mem_map.mp among
  rw [Value.rows_mentions] at inside
  obtain ⟨mention, borne, rfl⟩ := List.mem_map.mp inside
  have named : mention.label ∈ utterance.labels := List.mem_map_of_mem borne
  have proper := declares_of_proper compiled member named
  refine ⟨mention.label, Value.field?_label mention, ⟨?_, proper⟩, ?_⟩
  · exact fun declared ends => not_declares_of_endsAtCut compiled ends declared
  · intro parent cut
    obtain ⟨entity, listed, own, -⟩ := exists_entity_of_label compiled member named
    rw [LabelParts.ofLabel, Text.cutAt?_eq_some_iff.mpr cut] at own
    exact hasEntry_iff.mpr ⟨entity, listed, own⟩

/-- A label with a child, one with nothing before its `::` and one with nothing behind it. -/
def cutLabels : Corpus :=
  ⟨[⟨"i", ["[a:x::y] [b:::z]", "[c:w::]"]⟩], [], [], []⟩

def cutLabelsModel : Model where
  schemaVersion := "1.3.0"
  name := "tef"
  description := "Bot Model"
  culture := "en-us"
  intents := ["i"]
  entities := [⟨"x", some ["y"]⟩, ⟨[], some ["z"]⟩, ⟨"w", none⟩]
  builtin := []
  features := []
  utterances := [⟨"a b", "i", [⟨"x::y", 0, 0⟩, ⟨"::z", 1, 1⟩]⟩, ⟨"c", "i", [⟨"w::", 0, 0⟩]⟩]

theorem labels_of_model_cut :
    compile .default cutLabels none none = .ok cutLabelsModel ∧
      ∀ utterance ∈ cutLabelsModel.toValue.rows "utterances", ∀ mention ∈ utterance.rows "entities",
        ∃ label, mention.field? "entity" = some (.text label) ∧
          (cutLabelsModel.toValue.Declares label ↔ ¬EndsAtCut label) ∧
          ∀ parent, Text.FirstCut label "::" parent [] → cutLabelsModel.toValue.HasEntry parent :=
  have compiled : compile .default cutLabels none none = .ok cutLabelsModel := rfl
  ⟨compiled, labels_of_model compiled⟩

/-- A label with an empty child is used and not declared. -/
theorem used_undeclared :
    ¬ ∀ (settings : Settings) (corpus : Corpus) (culture : Option Text) (generatedAt : Option Moment)
        (model : Model), corpus.compile settings culture generatedAt = .ok model →
      ∀ utterance ∈ model.toValue.rows "utterances", ∀ mention ∈ utterance.rows "entities",
        ∀ label, mention.field? "entity" = some (.text label) → model.toValue.Declares label := by
  intro declared
  have compiled : compile .default ⟨[⟨"i", ["[a:x::]"]⟩], [], [], []⟩ none none =
      .ok ⟨"1.3.0", "tef", "Bot Model", "en-us", ["i"], [⟨"x", none⟩], [], [],
        [⟨"a", "i", [⟨"x::", 0, 0⟩]⟩]⟩ := rfl
  have ends : EndsAtCut "x::" := ⟨"x", Text.cutAt?_eq_some_iff.mp rfl⟩
  exact not_declares_of_endsAtCut compiled ends
    (declared _ _ _ _ _ compiled (Utterance.toValue ⟨"a", "i", [⟨"x::", 0, 0⟩]⟩) (.head _)
      (Mention.toValue ⟨"x::", 0, 0⟩) (.head _) "x::" rfl)

end Corpus
end IntentModel
