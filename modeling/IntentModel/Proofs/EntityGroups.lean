import IntentModel.Proofs.Entity
import IntentModel.Proofs.Text.Cut
import IntentModel.Proofs.Upsert
import Mathlib.Data.List.Forall2

/-! # A catalog as groups of labels

Whatever calls have built a catalog, it shows no more of them than the labels they named, one after the
other. It holds one entity for each distinct parent, in the order in which the parents were first named,
and with it the distinct subtypes that were named behind that parent, in the same order
(`entities_declareAll`). Labels that were named before therefore change nothing, and further labels only
add to what is there.
-/

namespace IntentModel

/-- What a label names: what stands before its first `::`, and what stands behind that unless nothing
does. -/
inductive LabelParts.Named (label : Text) : LabelParts → Prop
  | whole : ¬ ("::" : Text) <:+: label → Named label ⟨label, none⟩
  | bare {parent : Text} : Text.FirstCut label "::" parent [] → Named label ⟨parent, none⟩
  | composite {parent child : Text} : Text.FirstCut label "::" parent child → child ≠ [] →
      Named label ⟨parent, some child⟩

theorem LabelParts.ofLabel_named (label : Text) : Named label (ofLabel label) := by
  rw [ofLabel]
  cases cut : label.cutAt? "::" with
  | none => exact .whole (Text.cutAt?_eq_none_iff.mp cut)
  | some parts =>
    obtain ⟨parent, child⟩ := parts
    have first := Text.cutAt?_eq_some_iff.mp cut
    cases child with
    | nil => exact .bare first
    | cons c child => exact .composite first (List.cons_ne_nil c child)

/-- A call that names labels: those of the tags of a sentence, or a single one. -/
inductive Registration
  | ofSpans (spans : List Span)
  | ofLabel (label : Text)

def Registration.labels : Registration → List Text
  | ofSpans spans => spans.map (·.tag.label)
  | ofLabel label => [label]

namespace EntityCatalog

def register (catalog : EntityCatalog) : Registration → EntityCatalog
  | .ofSpans spans => catalog.declareSpans spans
  | .ofLabel label => catalog.declare label

def registerAll (catalog : EntityCatalog) (calls : List Registration) : EntityCatalog :=
  calls.foldl register catalog

/-- The entity that a label belongs to. -/
def parentOf (label : Text) : Text :=
  (LabelParts.ofLabel label).parent

/-- The subtype that a label names, if it belongs to an entity. -/
def childUnder (parent label : Text) : Option Text :=
  if parent = parentOf label then (LabelParts.ofLabel label).child else none

/-- The distinct subtypes that labels name for an entity, in the order of their first mention. -/
def childrenUnder (labels : List Text) (parent : Text) : List Text :=
  (labels.filterMap (childUnder parent)).eraseDups

/-- The entity of a name as labels describe it; without a subtype it has no list of children. -/
def group (labels : List Text) (parent : Text) : Entity where
  name := parent
  children :=
    match childrenUnder labels parent with
    | [] => none
    | children => some children

/-! ## From one label to the next -/

theorem eraseDups_concat {α : Type} [BEq α] [LawfulBEq α] (items : List α) (last : α)
    [Decidable (last ∈ items)] :
    (items ++ [last]).eraseDups =
      if last ∈ items then items.eraseDups else items.eraseDups ++ [last] := by
  rw [List.eraseDups_append, List.removeAll]
  split_ifs with known
  · simp [known]
  · simp [known, List.eraseDups_cons]

theorem getD_children_group (labels : List Text) (parent : Text) :
    (group labels parent).children.getD [] = childrenUnder labels parent := by
  rw [group]
  cases childrenUnder labels parent with
  | nil => rfl
  | cons child children => rfl

theorem childrenUnder_concat (labels : List Text) (parent label : Text) :
    childrenUnder (labels ++ [label]) parent =
      match childUnder parent label with
      | none => childrenUnder labels parent
      | some child =>
        if child ∈ childrenUnder labels parent then childrenUnder labels parent
        else childrenUnder labels parent ++ [child] := by
  rw [childrenUnder, List.filterMap_append]
  cases named : childUnder parent label with
  | none => simp [named, childrenUnder]
  | some child =>
    have single : [label].filterMap (childUnder parent) = [child] := by simp [named]
    simp only [single, eraseDups_concat, childrenUnder, List.mem_eraseDups]

/-- A label refines the group of its own parent and leaves the others as they are. -/
theorem group_concat (labels : List Text) (parent label : Text) :
    group (labels ++ [label]) parent =
      if parent = parentOf label then
        (group labels parent).refine (LabelParts.ofLabel label).child
      else group labels parent := by
  have step := childrenUnder_concat labels parent label
  split_ifs with own
  · rw [childUnder, if_pos own] at step
    cases named : (LabelParts.ofLabel label).child with
    | none =>
      rw [named] at step
      rw [group, step]
      rfl
    | some child =>
      simp only [named] at step
      rw [Entity.refine, Entity.withChild, getD_children_group, group, step]
      split_ifs with known
      · cases present : childrenUnder labels parent with
        | nil => rw [present] at known; cases known
        | cons first children => rfl
      · cases childrenUnder labels parent with
        | nil => rfl
        | cons first children => rfl
  · rw [childUnder, if_neg own] at step
    rw [group, step]
    rfl

theorem group_of_unnamed {labels : List Text} {parent : Text}
    (unnamed : ∀ label ∈ labels, parent ≠ parentOf label) : group labels parent = ⟨parent, none⟩ := by
  have none : labels.filterMap (childUnder parent) = [] := by
    apply List.filterMap_eq_nil_iff.mpr
    intro label member
    exact if_neg (unnamed label member)
  rw [group, childrenUnder, none]
  rfl

/-! ## All labels -/

theorem declareIn_eq_upsert (parent : Text) (child : Option Text) (entities : List Entity) :
    declareIn parent child entities =
      upsert (·.name == parent) (·.refine child) ((Entity.mk parent none).refine child) entities := by
  induction entities with
  | nil => rfl
  | cons entity entities ih =>
    rw [declareIn, upsert, ih]
    simp only [beq_iff_eq]

theorem entities_foldl_declare (labels : List Text) (catalog : EntityCatalog) :
    (catalog.declareAll labels).entities =
      labels.foldl (fun entities label => declareIn (parentOf label)
        (LabelParts.ofLabel label).child entities) catalog.entities := by
  induction labels generalizing catalog with
  | nil => rfl
  | cons label labels ih => exact ih (catalog.declare label)

/-- Labels that are declared one after the other are grouped by their parents. -/
theorem entities_declareAll (labels : List Text) :
    (empty.declareAll labels).entities = (labels.map parentOf).eraseDups.map (group labels) := by
  rw [entities_foldl_declare, ← firsts_beq, ← map_firsts, List.map_map]
  simp only [declareIn_eq_upsert]
  apply foldl_upsert (fun labels label => group labels (parentOf label))
  · intro labels first label
    rfl
  · intro labels first label
    simp only [group_concat, beq_iff_eq]
  · intro labels label _ fresh
    rw [group_concat, if_pos rfl, group_of_unnamed]
    intro other member same
    have apart := fresh other member
    rw [same, beq_self_eq_true] at apart
    cases apart
  · exact coherent_of_name parentOf labels

theorem declareAll_labels (catalog : EntityCatalog) (call : Registration) :
    catalog.register call = catalog.declareAll call.labels := by
  cases call with
  | ofSpans spans => rfl
  | ofLabel label => rfl

/-- Calls do what the labels that they name do one after the other. -/
theorem registerAll_eq (catalog : EntityCatalog) (calls : List Registration) :
    catalog.registerAll calls = catalog.declareAll (calls.flatMap Registration.labels) := by
  induction calls generalizing catalog with
  | nil => rfl
  | cons call calls ih =>
    rw [List.flatMap_cons, declareAll_append, ← declareAll_labels]
    exact ih (catalog.register call)

/-! ## What a catalog shows -/

/-- An entity that has kept its name and its children in their order, and perhaps has more of them. -/
def Entity.GrowsTo (entity later : Entity) : Prop :=
  later.name = entity.name ∧ entity.children.getD [] <+: later.children.getD []

theorem eraseDups_prefix {α : Type} [BEq α] [LawfulBEq α] (items more : List α) :
    items.eraseDups <+: (items ++ more).eraseDups := by
  rw [List.eraseDups_append]
  exact List.prefix_append ..

theorem group_growsTo (labels more : List Text) (parent : Text) :
    Entity.GrowsTo (group labels parent) (group (labels ++ more) parent) := by
  refine ⟨rfl, ?_⟩
  rw [getD_children_group, getD_children_group, childrenUnder, childrenUnder, List.filterMap_append]
  exact eraseDups_prefix ..

/-- A name is found in a catalog of labels when it is the parent of one of them. -/
theorem find?_declareAll (labels : List Text) (name : Text) :
    (empty.declareAll labels).find? name =
      if name ∈ labels.map parentOf then some (group labels name) else none := by
  rw [find?, entities_declareAll, List.find?_map]
  split_ifs with named
  · cases found : (labels.map parentOf).eraseDups.find? ((·.name == name) ∘ group labels) with
    | none =>
      have apart := List.find?_eq_none.mp found name (List.mem_eraseDups.mpr named)
      exact absurd (beq_self_eq_true name) apart
    | some parent =>
      have same : (group labels parent).name = name := by simpa using List.find?_some found
      exact congrArg (some ∘ group labels) same
  · rw [Option.map_eq_none_iff, List.find?_eq_none]
    intro parent member same
    have equal : (group labels parent).name = name := by simpa using same
    exact named (equal ▸ List.mem_eraseDups.mp member)

/-- Further labels leave the entities where they are. -/
theorem exists_grown (labels more : List Text) : ∃ grown added,
    ((empty.declareAll labels).declareAll more).entities = grown ++ added ∧
      List.Forall₂ Entity.GrowsTo (empty.declareAll labels).entities grown := by
  obtain ⟨added, split⟩ := eraseDups_prefix (labels.map parentOf) (more.map parentOf)
  refine ⟨(labels.map parentOf).eraseDups.map (group (labels ++ more)),
    added.map (group (labels ++ more)), ?_, ?_⟩
  · rw [← declareAll_append, entities_declareAll, List.map_append, ← split, List.map_append]
  · rw [entities_declareAll, List.forall₂_map_left_iff, List.forall₂_map_right_iff]
    apply List.forall₂_same.mpr
    intro parent _
    exact group_growsTo labels more parent

/-- The catalog that any calls have built is grouped by what stands before the first `::` of the labels
they named: each parent once, in the order of first mention, with the distinct subtypes named behind it
in the same order, and without a list of children where there is none. Names are looked up accordingly.
To name labels again, however often and in whatever order, changes nothing, and to name further ones
neither removes nor renames nor moves what is there. -/
theorem registered_entities (calls : List Registration) :
    (∀ label, LabelParts.Named label (LabelParts.ofLabel label)) ∧
    ((empty.registerAll calls).entities =
      ((calls.flatMap Registration.labels).map parentOf).eraseDups.map
        (group (calls.flatMap Registration.labels))) ∧
    (∀ name, (empty.registerAll calls).find? name =
      if name ∈ (calls.flatMap Registration.labels).map parentOf then
        some (group (calls.flatMap Registration.labels) name)
      else none) ∧
    (∀ again : List Registration,
      again.flatMap Registration.labels ⊆ calls.flatMap Registration.labels →
        (empty.registerAll calls).registerAll again = empty.registerAll calls) ∧
    ∀ more : List Registration, ∃ grown added,
      ((empty.registerAll calls).registerAll more).entities = grown ++ added ∧
        List.Forall₂ Entity.GrowsTo (empty.registerAll calls).entities grown := by
  simp only [registerAll_eq]
  refine ⟨LabelParts.ofLabel_named, entities_declareAll _, find?_declareAll _, ?_, ?_⟩
  · intro again known
    apply declareAll_eq_self
    intro label member
    exact declares_declareAll empty (known member)
  · intro more
    exact exists_grown _ _

/-- Labels of which one has two separators, one has nothing behind its separator and one has nothing
before it. -/
def mixedCalls : List Registration :=
  [.ofLabel "date::", .ofSpans (Text.spans "[x:date::a::b] [y:::c]"), .ofLabel "date::a::b",
    .ofLabel "city", .ofLabel "date::a"]

/-- Some of these labels once more, in another order. -/
def mixedAgain : List Registration :=
  [.ofLabel "::c", .ofSpans [], .ofLabel "date::a", .ofLabel "date::", .ofLabel "date::a::b"]

theorem registered_entities_mixed :
    mixedAgain.flatMap Registration.labels ⊆ mixedCalls.flatMap Registration.labels ∧
      (empty.registerAll mixedCalls).registerAll mixedAgain = empty.registerAll mixedCalls ∧
      (empty.registerAll mixedCalls).entities =
        [⟨"date", some ["a::b", "a"]⟩, ⟨[], some ["c"]⟩, ⟨"city", none⟩] := by
  have known : mixedAgain.flatMap Registration.labels ⊆ mixedCalls.flatMap Registration.labels := by
    decide
  exact ⟨known, (registered_entities mixedCalls).2.2.2.1 mixedAgain known, by decide⟩

end EntityCatalog
end IntentModel
