import IntentModel.Proofs.Template.WellFormed
import IntentModel.Proofs.Upsert

/-! # The placeholders of a template, each once

A name has its place among the placeholders where it appears first. When the first placeholder receives a
value, the placeholders of the value come to the front, and of those that were waiting only the ones that
are not among them are left behind (`placeholders_fill`).
-/

namespace IntentModel

variable {template name value : Text} {names : List Text}

namespace Text

theorem mem_placeholders : name ∈ template.placeholders ↔ name ∈ template.references :=
  List.mem_eraseDups

theorem nodup_placeholders (text : Text) : text.placeholders.Nodup :=
  nodup_eraseDups text.references

/-- The first placeholder is the first reference, and the others are those that differ from it. -/
theorem exists_references_of_placeholders (listed : template.placeholders = name :: names) :
    ∃ rest, template.references = name :: rest ∧
      names = (rest.filter fun other => !other == name).eraseDups := by
  rw [placeholders] at listed
  cases split : template.references with
  | nil => simp [split] at listed
  | cons first rest =>
    rw [split, List.eraseDups_cons] at listed
    obtain ⟨rfl, rfl⟩ := List.cons.inj listed
    exact ⟨rest, rfl, rfl⟩

theorem exists_placeholders_of_leftmost {text : Text} (leftmost : text.leftmostPlaceholder? = some name) :
    ∃ names, text.placeholders = name :: names := by
  rw [leftmostPlaceholder?_eq_head?] at leftmost
  obtain ⟨rest, split⟩ := List.head?_eq_some_iff.mp leftmost
  exact ⟨_, by rw [placeholders, split, List.eraseDups_cons]⟩

theorem placeholders_text (valid : Placeholder.IsName name) :
    (Placeholder.text name).placeholders = [name] := by
  rw [placeholders, references_text valid, List.eraseDups_cons, List.filter_nil, List.eraseDups_nil]

end Text

/-! ## What is left to fill in -/

def remaining (names done : List Text) : List Text :=
  names.filter fun name => !done.contains name

/-- The placeholders that are left to fill in when `name` has received a value. -/
def pendingAfter (name value : Text) (names : List Text) : List Text :=
  value.placeholders ++ remaining names (name :: value.references)

section Remaining

variable {done : List Text} {other : Text}

@[simp]
theorem mem_remaining : other ∈ remaining names done ↔ other ∈ names ∧ other ∉ done := by
  simp [remaining]

theorem remaining_append (names more done : List Text) :
    remaining (names ++ more) done = remaining names done ++ remaining more done :=
  List.filter_append ..

theorem remaining_remaining (names first second : List Text) :
    remaining (remaining names first) second = remaining names (first ++ second) := by
  simp [remaining, List.filter_filter, Bool.and_comm]

theorem remaining_congr {finished : List Text} (same : ∀ other, other ∈ done ↔ other ∈ finished) :
    remaining names done = remaining names finished := by
  simp [remaining, same]

theorem remaining_eq_self (apart : ∀ other ∈ names, other ∉ done) : remaining names done = names := by
  simpa [remaining] using apart

theorem remaining_cons_of_mem (finished : name ∈ done) (names : List Text) :
    remaining (name :: names) done = remaining names done := by
  simp [remaining, finished]

@[simp]
theorem mem_pendingAfter :
    other ∈ pendingAfter name value names ↔
      other ∈ value.references ∨ other ∈ names ∧ other ≠ name := by
  rw [pendingAfter, List.mem_append, Text.mem_placeholders, mem_remaining, List.mem_cons]
  tauto

theorem pendingAfter_append (name value : Text) (names more : List Text) :
    pendingAfter name value (names ++ more) =
      pendingAfter name value names ++ remaining more (name :: value.references) := by
  rw [pendingAfter, remaining_append, ← List.append_assoc, pendingAfter]

end Remaining

namespace Text

/-- Where the references of a value stand in for its name, these names apart, only the others are left. -/
theorem removeAll_replaced (name : Text) (brought references : List Text) :
    (references.flatMap fun other => if other = name then brought else [other]).removeAll brought =
      remaining (references.filter fun other => !other == name) (name :: brought) := by
  rw [remaining]
  induction references with
  | nil => rfl
  | cons other references ih =>
    rw [List.removeAll] at ih ⊢
    rw [List.flatMap_cons, List.filter_append, ih]
    by_cases same : other = name
    · simp [same]
    · by_cases known : other ∈ brought <;> simp [same, known]

/-- The placeholders of a value come to the front, and those that were waiting already have no second
place behind them. -/
theorem WellFormed.placeholders_fill (formed : template.WellFormed)
    (formedValue : value.WellFormed) (listed : template.placeholders = name :: names) :
    (template.fill name value).placeholders = pendingAfter name value names := by
  obtain ⟨rest, split, rfl⟩ := exists_references_of_placeholders listed
  have valid := formed.isName_of_mem_references name (by simp [split])
  rw [placeholders, formed.references_fill valid formedValue, split, List.flatMap_cons, if_pos rfl,
    List.eraseDups_append, removeAll_replaced, pendingAfter, remaining, remaining, filter_eraseDups,
    placeholders]

/-- A value without placeholders only takes the first one away. -/
theorem WellFormed.placeholders_fill_of_closed (formed : WellFormed template)
    (formedValue : WellFormed value) (closed : value.references = [])
    (listed : template.placeholders = name :: names) :
    (template.fill name value).placeholders = names := by
  have fresh : name ∉ names := by
    have nodup := nodup_placeholders template
    rw [listed] at nodup
    exact (List.nodup_cons.mp nodup).1
  rw [formed.placeholders_fill formedValue listed, pendingAfter, placeholders, closed,
    List.eraseDups_nil, List.nil_append]
  apply remaining_eq_self
  rintro other member again
  exact fresh (List.mem_singleton.mp again ▸ member)

end Text
end IntentModel
