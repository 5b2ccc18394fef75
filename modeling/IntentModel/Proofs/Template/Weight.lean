import IntentModel.Template.Expansion
import IntentModel.Proofs.Template.References
import IntentModel.Proofs.Template.WellFormed
import Mathlib.Algebra.BigOperators.Group.Finset.Basic
import Mathlib.Algebra.Order.BigOperators.Group.Finset
import Mathlib.Algebra.Order.Ring.Nat

/-! # The weight of a template

A list that refers to another one leads to more lists than that one, so it has the higher rank. In a
number system with base `n + 1`, a place of rank `r` weighs more than `n` places of lower rank, and a
value brings in at most `n` names. Filling in a placeholder therefore makes a template lighter
(`weight_fill_lt`), and the weight bounds the number of replacements that follow on one another.
-/

namespace IntentModel.ValueLists

variable {lists : ValueLists} {template name value : Text} {values : List Text}

/-- All values of the lists are well formed. -/
def WellFormed (lists : ValueLists) : Prop :=
  ∀ name values, lists.get? name = some values → ∀ value ∈ values, Text.WellFormed value

def names (lists : ValueLists) : Finset Text :=
  (lists.map Prod.fst).toFinset

open Classical in
/-- The number of lists that a list leads to, itself included. -/
noncomputable def rank (lists : ValueLists) (name : Text) : ℕ :=
  (lists.names.filter (Relation.ReflTransGen lists.RefersTo name)).card

/-- The placeholders of a text that have a list. -/
def listed (lists : ValueLists) (text : Text) : Finset Text :=
  text.references.toFinset ∩ lists.names

/-- The names weighed by rank. -/
noncomputable def load (lists : ValueLists) (names : Finset Text) : ℕ :=
  ∑ name ∈ names, (lists.length + 1) ^ lists.rank name

/-- The placeholders of a text that have a list, weighed by rank. -/
noncomputable def weight (lists : ValueLists) (text : Text) : ℕ :=
  ∑ name ∈ lists.listed text, (lists.length + 1) ^ lists.rank name

theorem mem_names_of_get? (declared : lists.get? name = some values) : name ∈ lists.names :=
  List.mem_toFinset.mpr (List.mem_map_of_mem (mem_of_get? declared))

theorem card_names_le (lists : ValueLists) : lists.names.card ≤ lists.length := by
  simpa [names] using List.toFinset_card_le (lists.map Prod.fst)

theorem mem_listed (text name : Text) :
    name ∈ lists.listed text ↔ name ∈ text.references ∧ name ∈ lists.names := by
  rw [listed, Finset.mem_inter, List.mem_toFinset]

theorem card_listed_le (lists : ValueLists) (text : Text) :
    (lists.listed text).card ≤ lists.length :=
  (Finset.card_le_card Finset.inter_subset_right).trans lists.card_names_le

theorem rank_le (lists : ValueLists) (name : Text) : lists.rank name ≤ lists.length := by
  classical
  exact (Finset.card_filter_le _ _).trans lists.card_names_le

theorem rank_pos (declared : name ∈ lists.names) : 0 < lists.rank name := by
  classical
  exact Finset.card_pos.mpr ⟨name, Finset.mem_filter.mpr ⟨declared, .refl⟩⟩

/-- A list outranks the lists it refers to, unless it leads back to itself. -/
theorem rank_lt_rank {next : Text} (declared : name ∈ lists.names)
    (acyclic : ¬ Relation.TransGen lists.RefersTo name name) (refers : lists.RefersTo name next) :
    lists.rank next < lists.rank name := by
  classical
  apply Finset.card_lt_card
  rw [Finset.ssubset_iff_of_subset]
  · refine ⟨name, Finset.mem_filter.mpr ⟨declared, .refl⟩, fun among => ?_⟩
    exact acyclic (.head' refers (Finset.mem_filter.mp among).2)
  · intro other among
    obtain ⟨known, path⟩ := Finset.mem_filter.mp among
    exact Finset.mem_filter.mpr ⟨known, path.head refers⟩

/-- All names of a value together weigh less than the name of its list. -/
theorem weight_value_lt (declared : lists.get? name = some values) (member : value ∈ values)
    (acyclic : ¬ Relation.TransGen lists.RefersTo name name) :
    lists.weight value < (lists.length + 1) ^ lists.rank name := by
  have known := mem_names_of_get? declared
  have each : ∀ next ∈ lists.listed value,
      (lists.length + 1) ^ lists.rank next ≤ (lists.length + 1) ^ (lists.rank name - 1) := by
    intro next among
    have inside := ((mem_listed value next).mp among).1
    have refers := refersTo_iff.mpr ⟨values, declared, value, member, inside⟩
    have lower := rank_lt_rank known acyclic refers
    exact Nat.pow_le_pow_right (by omega) (by omega)
  calc lists.weight value
      ≤ (lists.listed value).card • (lists.length + 1) ^ (lists.rank name - 1) :=
        Finset.sum_le_card_nsmul _ _ _ each
    _ ≤ lists.length * (lists.length + 1) ^ (lists.rank name - 1) :=
        Nat.mul_le_mul_right _ (lists.card_listed_le value)
    _ < (lists.length + 1) * (lists.length + 1) ^ (lists.rank name - 1) :=
        Nat.mul_lt_mul_of_pos_right (Nat.lt_succ_self _) (Nat.pow_pos (Nat.succ_pos _))
    _ = (lists.length + 1) ^ lists.rank name := by
        rw [← Nat.pow_succ', Nat.succ_eq_add_one, Nat.sub_add_cancel (rank_pos known)]

theorem weight_pos (member : name ∈ lists.listed template) : 0 < lists.weight template :=
  Finset.sum_pos (fun _ _ => Nat.pow_pos (Nat.succ_pos _)) ⟨name, member⟩

/-- Names get lighter in all when the names of a value stand in for the name of its list. -/
theorem load_lt_load {pending next : Finset Text} (among : name ∈ pending)
    (declared : lists.get? name = some values) (choice : value ∈ values)
    (acyclic : ¬ Relation.TransGen lists.RefersTo name name)
    (traded : next ⊆ pending.erase name ∪ lists.listed value) :
    lists.load next < lists.load pending := by
  have split := Finset.sum_erase_add _ (fun other => (lists.length + 1) ^ lists.rank other) among
  have lighter := weight_value_lt declared choice acyclic
  calc lists.load next
      ≤ ∑ other ∈ pending.erase name ∪ lists.listed value,
          (lists.length + 1) ^ lists.rank other := Finset.sum_le_sum_of_subset traded
    _ ≤ ∑ other ∈ pending.erase name, (lists.length + 1) ^ lists.rank other +
          lists.weight value := by
        rw [weight, ← Finset.sum_union_inter]
        exact Nat.le_add_right _ _
    _ < ∑ other ∈ pending.erase name, (lists.length + 1) ^ lists.rank other +
          (lists.length + 1) ^ lists.rank name := Nat.add_lt_add_left lighter _
    _ = lists.load pending := split

/-- A sentence gets lighter when the references of a value stand in for its name. -/
theorem weight_lt_weight {next : Text} (member : name ∈ template.references)
    (declared : lists.get? name = some values) (choice : value ∈ values)
    (acyclic : ¬ Relation.TransGen lists.RefersTo name name)
    (traded : ∀ other ∈ next.references,
      other ∈ template.references ∧ other ≠ name ∨ other ∈ value.references) :
    lists.weight next < lists.weight template := by
  have among : name ∈ lists.listed template :=
    (mem_listed template name).mpr ⟨member, mem_names_of_get? declared⟩
  refine load_lt_load among declared choice acyclic fun other inside => ?_
  rw [mem_listed] at inside
  rw [Finset.mem_union, Finset.mem_erase, mem_listed, mem_listed]
  have origin := traded other inside.1
  tauto

/-- Filling in a placeholder makes a template lighter. -/
theorem weight_fill_lt (formed : template.WellFormed) (formedLists : lists.WellFormed)
    (member : name ∈ template.references) (declared : lists.get? name = some values)
    (choice : value ∈ values) (acyclic : ¬ Relation.TransGen lists.RefersTo name name) :
    lists.weight (template.fill name value) < lists.weight template := by
  apply weight_lt_weight member declared choice acyclic
  intro other inside
  rw [formed.mem_references_fill (formed.isName_of_mem_references name member)
    (formedLists name values declared value choice)] at inside
  tauto

/-- No text is heavier than this power. -/
theorem weight_le_pow (lists : ValueLists) (text : Text) :
    lists.weight text ≤ (lists.length + 1) ^ (lists.length + 1) := by
  have each : ∀ name ∈ lists.listed text,
      (lists.length + 1) ^ lists.rank name ≤ (lists.length + 1) ^ lists.length :=
    fun name _ => Nat.pow_le_pow_right (by omega) (lists.rank_le name)
  calc lists.weight text
      ≤ (lists.listed text).card • (lists.length + 1) ^ lists.length :=
        Finset.sum_le_card_nsmul _ _ _ each
    _ ≤ (lists.length + 1) * (lists.length + 1) ^ lists.length :=
        Nat.mul_le_mul_right _ ((lists.card_listed_le text).trans (Nat.le_succ _))
    _ = (lists.length + 1) ^ (lists.length + 1) := (Nat.pow_succ' ..).symm

/-- No text is heavier than the number of replacements that the expansion allows. -/
theorem weight_le_replacementLimit (lists : ValueLists) (text : Text) :
    lists.weight text ≤ replacementLimit lists :=
  (lists.weight_le_pow text).trans (Nat.le_add_right _ _)

end IntentModel.ValueLists
