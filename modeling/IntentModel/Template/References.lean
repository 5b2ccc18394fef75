import IntentModel.Template

/-! # References between lists

The values of a list may themselves hold placeholders, so lists refer to lists. A list that leads
back to itself has no finite expansion; `leadsBack` finds such a list by walking the references
from it, each name being followed once.
-/

namespace IntentModel.ValueLists

/-- The names that the values of a list refer to; a name without a list refers to nothing. -/
def successors (lists : ValueLists) (name : Text) : List Text :=
  ((lists.get? name).getD []).flatMap Text.placeholders

/-- The first list can refer to the second in one step. -/
def RefersTo (lists : ValueLists) (source target : Text) : Prop :=
  target ∈ lists.successors source

/-- Puts the names that are new on the names to visit, and marks them as seen. -/
def enqueue (found pending seen : List Text) : List Text × List Text :=
  match found with
  | [] => (pending, seen)
  | name :: found =>
    if name ∈ seen then enqueue found pending seen
    else enqueue found (name :: pending) (name :: seen)

/-- Whether `goal` is among the successors of a pending name or of one found on the way. Each round
follows one pending name, so as many rounds are enough as names can ever be pending. -/
def searchFrom (lists : ValueLists) (goal : Text) : Nat → List Text → List Text → Bool
  | 0, _, _ => false
  | _ + 1, [], _ => false
  | rounds + 1, name :: pending, seen =>
    let found := lists.successors name
    if goal ∈ found then true
    else
      let (pending, seen) := enqueue found pending seen
      searchFrom lists goal rounds pending seen

/-- All names that occur as a reference in some list. -/
def referenced (lists : ValueLists) : List Text :=
  lists.flatMap fun (_, values) => values.flatMap Text.placeholders

/-- Whether a list refers to itself, directly or through other lists. -/
def leadsBack (lists : ValueLists) (name : Text) : Bool :=
  searchFrom lists name (lists.referenced.length + 1) [name] []

end IntentModel.ValueLists
