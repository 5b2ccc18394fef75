import IntentModel.Entity
import Mathlib.Tactic.SplitIfs

/-! # Declaring entities

A declaration changes the entity of its own name alone (`find?_declare`). What has been declared
therefore stays declared, and declaring it again changes neither the entities nor their order
(`declare_eq_self`). A catalog that labels alone have built holds nothing that no label names
(`Backed`).
-/

namespace IntentModel

variable {label : Text} {labels : List Text}

/-- The entity already has the subtype of a label, if the label names one. -/
def Entity.Has (entity : Entity) (child : Option Text) : Prop :=
  ∀ name, child = some name → name ∈ entity.children.getD []

theorem Entity.refine_name (entity : Entity) (child : Option Text) :
    (entity.refine child).name = entity.name := by
  cases child <;> rfl

theorem Entity.mem_children_refine (entity : Entity) (child : Option Text) (name : Text) :
    name ∈ (entity.refine child).children.getD [] ↔
      name ∈ entity.children.getD [] ∨ child = some name := by
  cases child with
  | none => simp [refine]
  | some child =>
    rw [refine, withChild, Option.getD_some, Option.some.injEq]
    split_ifs with member
    · constructor
      · exact .inl
      · rintro (old | rfl)
        · exact old
        · exact member
    · rw [List.mem_append, List.mem_singleton, eq_comm (a := name)]

theorem Entity.Has.refine_eq {entity : Entity} {child : Option Text} (has : entity.Has child) :
    entity.refine child = entity := by
  cases child with
  | none => rfl
  | some child =>
    have member := has child rfl
    cases entity with
    | mk name children =>
      cases children with
      | none => exact absurd member List.not_mem_nil
      | some children =>
        rw [refine, withChild, if_pos member]
        rfl

namespace EntityCatalog

variable {catalog : EntityCatalog}

/-- The catalog holds what a label names. -/
def Declares (catalog : EntityCatalog) (label : Text) : Prop :=
  ∃ entity, catalog.find? (LabelParts.ofLabel label).parent = some entity ∧
    entity.Has (LabelParts.ofLabel label).child

/-- Each entity and each subtype of the catalog is named by one of the labels. -/
def Backed (labels : List Text) (catalog : EntityCatalog) : Prop :=
  ∀ entity ∈ catalog.entities,
    (∃ label ∈ labels, (LabelParts.ofLabel label).parent = entity.name) ∧
      ∀ child ∈ entity.children.getD [],
        ∃ label ∈ labels, LabelParts.ofLabel label = ⟨entity.name, some child⟩

theorem of_find? {name : Text} {entity : Entity} (found : catalog.find? name = some entity) :
    entity ∈ catalog.entities ∧ entity.name = name :=
  ⟨List.mem_of_find?_eq_some found, by simpa using List.find?_some found⟩

/-! ## One declaration -/

theorem find?_declareIn (parent : Text) (child : Option Text) (entities : List Entity)
    (name : Text) :
    (declareIn parent child entities).find? (·.name == name) =
      if name = parent then
        some (((entities.find? (·.name == parent)).getD ⟨parent, none⟩).refine child)
      else entities.find? (·.name == name) := by
  induction entities with
  | nil =>
    by_cases same : name = parent
    · simp [declareIn, Entity.refine_name, same]
    · simp [declareIn, Entity.refine_name, same, Ne.symm same]
  | cons entity entities ih =>
    rw [declareIn]
    split_ifs with own same same
    · simp [Entity.refine_name, own, same]
    · have other : ¬ entity.name = name := fun equal => same (equal.symm.trans own)
      simp [Entity.refine_name, other]
    · rw [if_pos same] at ih
      simp [own, same ▸ own, ih]
    · rw [if_neg same] at ih
      rw [List.find?_cons, List.find?_cons, ih]

/-- A declaration refines the entity of its label, which is new if there was none, and leaves all
others as they are. -/
theorem find?_declare (catalog : EntityCatalog) (label name : Text) :
    (catalog.declare label).find? name =
      if name = (LabelParts.ofLabel label).parent then
        some (((catalog.find? name).getD ⟨name, none⟩).refine (LabelParts.ofLabel label).child)
      else catalog.find? name := by
  rw [find?, declare, find?_declareIn]
  split_ifs with same
  · rw [same, find?]
  · rfl

theorem declares_declare (catalog : EntityCatalog) (label : Text) :
    (catalog.declare label).Declares label := by
  refine ⟨_, by rw [find?_declare, if_pos rfl], fun name named => ?_⟩
  exact (Entity.mem_children_refine ..).mpr (.inr named)

theorem Declares.declare (declared : catalog.Declares label) (other : Text) :
    (catalog.declare other).Declares label := by
  obtain ⟨entity, found, has⟩ := declared
  by_cases same : (LabelParts.ofLabel label).parent = (LabelParts.ofLabel other).parent
  · refine ⟨_, by rw [find?_declare, if_pos same], fun name named => ?_⟩
    rw [found, Option.getD_some, Entity.mem_children_refine]
    exact .inl (has name named)
  · exact ⟨entity, by rw [find?_declare, if_neg same, found], has⟩

theorem declareIn_eq_self {parent : Text} {child : Option Text} {entities : List Entity}
    {entity : Entity} (found : entities.find? (·.name == parent) = some entity)
    (has : entity.Has child) : declareIn parent child entities = entities := by
  induction entities with
  | nil => cases found
  | cons first entities ih =>
    rw [List.find?_cons] at found
    rw [declareIn]
    split_ifs with own
    · have same : first = entity := by simpa [own] using found
      rw [same, has.refine_eq]
    · rw [beq_eq_false_iff_ne.mpr own] at found
      rw [ih found]

/-- Declaring a label again changes nothing. -/
theorem Declares.declare_eq_self (declared : catalog.Declares label) :
    catalog.declare label = catalog := by
  obtain ⟨entity, found, has⟩ := declared
  rw [EntityCatalog.declare, declareIn_eq_self found has]

theorem mem_declareIn {parent : Text} {child : Option Text} {entities : List Entity}
    {entity : Entity} (member : entity ∈ declareIn parent child entities) :
    entity ∈ entities ∨
      ∃ old, (old ∈ entities ∨ old = ⟨parent, none⟩) ∧ old.name = parent ∧
        entity = old.refine child := by
  induction entities with
  | nil => exact .inr ⟨⟨parent, none⟩, .inr rfl, rfl, List.mem_singleton.mp member⟩
  | cons first entities ih =>
    rw [declareIn] at member
    split_ifs at member with own
    · rcases List.mem_cons.mp member with rfl | later
      · exact .inr ⟨first, .inl (List.mem_cons_self ..), own, rfl⟩
      · exact .inl (List.mem_cons_of_mem _ later)
    · rcases List.mem_cons.mp member with rfl | later
      · exact .inl (List.mem_cons_self ..)
      · rcases ih later with old | ⟨old, source, named, refined⟩
        · exact .inl (List.mem_cons_of_mem _ old)
        · exact .inr ⟨old, source.imp_left (List.mem_cons_of_mem _), named, refined⟩

/-- A declaration brings in nothing but what its label names. -/
theorem Backed.declare (backed : catalog.Backed labels) (member : label ∈ labels) :
    (catalog.declare label).Backed labels := by
  intro entity among
  rcases mem_declareIn among with old | ⟨old, source, named, rfl⟩
  · exact backed entity old
  · rw [Entity.refine_name, named]
    refine ⟨⟨label, member, rfl⟩, fun child inside => ?_⟩
    rcases (Entity.mem_children_refine ..).mp inside with before | added
    · rcases source with known | rfl
      · exact named ▸ (backed old known).2 child before
      · exact absurd before List.not_mem_nil
    · exact ⟨label, member, by rw [← added]⟩

/-! ## A row of declarations -/

theorem declareAll_append (catalog : EntityCatalog) (labels more : List Text) :
    catalog.declareAll (labels ++ more) = (catalog.declareAll labels).declareAll more :=
  List.foldl_append ..

theorem Declares.declareAll (declared : catalog.Declares label) (labels : List Text) :
    (catalog.declareAll labels).Declares label := by
  induction labels generalizing catalog with
  | nil => exact declared
  | cons first labels ih => exact ih (declared.declare first)

theorem declares_declareAll (catalog : EntityCatalog) (member : label ∈ labels) :
    (catalog.declareAll labels).Declares label := by
  induction labels generalizing catalog with
  | nil => exact absurd member List.not_mem_nil
  | cons first labels ih =>
    rcases List.mem_cons.mp member with rfl | later
    · exact (declares_declare catalog label).declareAll labels
    · exact ih _ later

/-- Labels that have all been declared change nothing. -/
theorem declareAll_eq_self (declared : ∀ label ∈ labels, catalog.Declares label) :
    catalog.declareAll labels = catalog := by
  induction labels with
  | nil => rfl
  | cons first labels ih =>
    obtain ⟨own, others⟩ := List.forall_mem_cons.mp declared
    have rest := ih others
    rw [declareAll, List.foldl_cons, own.declare_eq_self]
    exact rest

theorem Backed.declareAll {more : List Text} (backed : catalog.Backed labels)
    (known : more ⊆ labels) : (catalog.declareAll more).Backed labels := by
  induction more generalizing catalog with
  | nil => exact backed
  | cons first rest ih =>
    obtain ⟨own, others⟩ := List.cons_subset.mp known
    exact ih (backed.declare own) others

theorem backed_declareAll (labels : List Text) : (empty.declareAll labels).Backed labels :=
  Backed.declareAll (fun _ absent => absurd absent List.not_mem_nil) (List.Subset.refl labels)

/-- With more labels the catalog holds no less: each entity is there with all its subtypes. -/
theorem exists_of_mem_declareAll {more : List Text} (known : labels ⊆ more) {entity : Entity}
    (member : entity ∈ (empty.declareAll labels).entities) :
    ∃ whole ∈ (empty.declareAll more).entities, whole.name = entity.name ∧
      ∀ child ∈ entity.children.getD [], child ∈ whole.children.getD [] := by
  obtain ⟨⟨label, listed, own⟩, children⟩ := backed_declareAll labels entity member
  obtain ⟨whole, found, -⟩ := declares_declareAll empty (known listed)
  rw [own] at found
  obtain ⟨among, named⟩ := of_find? found
  refine ⟨whole, among, named, fun child inside => ?_⟩
  obtain ⟨other, listedOther, parts⟩ := children child inside
  obtain ⟨same, foundOther, has⟩ := declares_declareAll empty (known listedOther)
  rw [parts] at foundOther has
  cases found.symm.trans foundOther
  exact has child rfl

end EntityCatalog
end IntentModel
