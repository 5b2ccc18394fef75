import IntentModel.Tag

/-! # Declared entities

A label `parent::child` declares the entity `parent` with the subtype `child`; any other label
declares itself. A catalog holds each entity once, in the order in which entities are first named,
and with each entity its subtypes in the same order. An entity has no list of children until its
first subtype.
-/

namespace IntentModel

/-- The parts of a label: the entity, and its subtype if the label names one. -/
structure LabelParts where
  parent : Text
  child : Option Text
deriving DecidableEq, Repr

/-- Splits a label at its first `::`; an empty subtype counts as none. -/
def LabelParts.ofLabel (label : Text) : LabelParts :=
  match label.cutAt? "::" with
  | none => ⟨label, none⟩
  | some (parent, []) => ⟨parent, none⟩
  | some (parent, c :: child) => ⟨parent, some (c :: child)⟩

structure Entity where
  name : Text
  children : Option (List Text)
deriving DecidableEq, Repr

/-- The entity with `child` among its children. -/
def Entity.withChild (entity : Entity) (child : Text) : Entity :=
  let children := entity.children.getD []
  { entity with children := some (if child ∈ children then children else children ++ [child]) }

/-- The entity with the subtype of a label, if there is one, among its children. -/
def Entity.refine (entity : Entity) : Option Text → Entity
  | none => entity
  | some child => entity.withChild child

/-- The declared entities, in the order of their first mention. -/
structure EntityCatalog where
  entities : List Entity
deriving DecidableEq, Repr

namespace EntityCatalog

def empty : EntityCatalog :=
  ⟨[]⟩

def find? (catalog : EntityCatalog) (name : Text) : Option Entity :=
  catalog.entities.find? (·.name == name)

/-- Refines the entity called `parent` in place, or puts it at the end if there is none. -/
def declareIn (parent : Text) (child : Option Text) : List Entity → List Entity
  | [] => [(Entity.mk parent none).refine child]
  | entity :: entities =>
    if entity.name = parent then entity.refine child :: entities
    else entity :: declareIn parent child entities

def declare (catalog : EntityCatalog) (label : Text) : EntityCatalog :=
  let parts := LabelParts.ofLabel label
  ⟨declareIn parts.parent parts.child catalog.entities⟩

def declareAll (catalog : EntityCatalog) (labels : List Text) : EntityCatalog :=
  labels.foldl declare catalog

/-- Declares the labels of the tags of a sentence. -/
def declareSpans (catalog : EntityCatalog) (spans : List Span) : EntityCatalog :=
  catalog.declareAll (spans.map (·.tag.label))

end EntityCatalog

end IntentModel
