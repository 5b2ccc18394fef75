import IntentModel.Template.References
import Mathlib.Data.Finset.Card
import Mathlib.Data.List.Chain
import Mathlib.Logic.Relation
import Mathlib.Tactic.SplitIfs
import Mathlib.Tactic.Tauto

/-! # The search for a list that leads back to itself

The search keeps a stock of pending names and a set of names that have been seen. Each round takes
one pending name and at most moves unseen names into the stock, so the stock and the unseen names
together shrink by one (`length_enqueue`). When the stock is empty, every name that has been seen has
given all its successors to the seen names, and the goal was never among them
(`exists_closed_of_searchFrom`). A list that the search clears does therefore not lead back to
itself, and the search is exact (`leadsBack_iff`).

Here and for replacements, chains of steps are bounded by a measure (`length_le_of_isChain`).
-/

namespace IntentModel

/-- A chain of steps is no longer than a measure that each step lowers. -/
theorem length_le_of_isChain {State : Type} {Step : State → State → Prop} {measure : State → Nat}
    (lowers : ∀ state next, Step state next → measure next < measure state) {state : State}
    {chain : List State} (linked : (state :: chain).IsChain Step) : chain.length ≤ measure state := by
  induction chain generalizing state with
  | nil => exact Nat.zero_le _
  | cons next chain ih =>
    obtain ⟨step, rest⟩ := List.isChain_cons_cons.mp linked
    have shorter := ih rest
    have lower := lowers state next step
    rw [List.length_cons]
    omega

namespace ValueLists

variable {lists : ValueLists} {goal : Text}

/-- The names that occur as references and have not been seen. -/
def unseen (lists : ValueLists) (seen : List Text) : Finset Text :=
  lists.referenced.toFinset \ seen.toFinset

/-- All successors of the name have been seen, and the goal is not among them. -/
def Explored (lists : ValueLists) (goal : Text) (seen : List Text) (name : Text) : Prop :=
  ∀ next, lists.RefersTo name next → next ∈ seen ∧ next ≠ goal

theorem mem_of_get? {name : Text} {values : List Text} (declared : lists.get? name = some values) :
    (name, values) ∈ lists := by
  obtain ⟨before, after, split, -⟩ := List.lookup_eq_some_iff.mp declared
  simp [split]

/-- What is true of every value in the lists is true of the values that a name gets. -/
theorem forall_values {Good : Text → Prop} (each : ∀ entry ∈ lists, ∀ value ∈ entry.2, Good value) :
    ∀ name values, lists.get? name = some values → ∀ value ∈ values, Good value :=
  fun _ _ declared => each _ (mem_of_get? declared)

/-- A list refers to the names of the placeholders in its values. -/
theorem refersTo_iff {name next : Text} :
    lists.RefersTo name next ↔
      ∃ values, lists.get? name = some values ∧ ∃ value ∈ values, next ∈ value.references := by
  rw [RefersTo, successors, List.mem_flatMap]
  simp only [Text.placeholders, List.mem_eraseDups]
  cases lists.get? name with
  | none => simp
  | some values => simp

theorem successors_subset_referenced (lists : ValueLists) (name : Text) :
    ∀ next ∈ lists.successors name, next ∈ lists.referenced := by
  intro next member
  obtain ⟨values, declared, value, choice, inside⟩ := refersTo_iff.mp member
  exact List.mem_flatMap.mpr ⟨(name, values), mem_of_get? declared,
    List.mem_flatMap.mpr ⟨value, choice, List.mem_eraseDups.mpr inside⟩⟩

theorem enqueue_of_mem {found pending seen : List Text} {name : Text} (known : name ∈ seen) :
    enqueue (name :: found) pending seen = enqueue found pending seen :=
  if_pos known

theorem enqueue_of_not_mem {found pending seen : List Text} {name : Text} (fresh : name ∉ seen) :
    enqueue (name :: found) pending seen = enqueue found (name :: pending) (name :: seen) :=
  if_neg fresh

theorem mem_enqueue_seen (found pending seen : List Text) (name : Text) :
    name ∈ (enqueue found pending seen).2 ↔ name ∈ seen ∨ name ∈ found := by
  induction found generalizing pending seen with
  | nil => exact (or_iff_left List.not_mem_nil).symm
  | cons first found ih =>
    by_cases known : first ∈ seen
    · rw [enqueue_of_mem known, ih, List.mem_cons]
      constructor
      · exact Or.imp_right .inr
      · rintro (old | rfl | new)
        · exact .inl old
        · exact .inl known
        · exact .inr new
    · rw [enqueue_of_not_mem known, ih, List.mem_cons, List.mem_cons]
      tauto

/-- What becomes pending was pending before or is new. -/
theorem mem_enqueue_pending (found pending seen : List Text) (name : Text) :
    name ∈ (enqueue found pending seen).1 ↔ name ∈ pending ∨ name ∈ found ∧ name ∉ seen := by
  induction found generalizing pending seen with
  | nil => exact (or_iff_left fun absent => List.not_mem_nil absent.1).symm
  | cons first found ih =>
    by_cases known : first ∈ seen
    · rw [enqueue_of_mem known, ih, List.mem_cons]
      constructor
      · exact Or.imp_right fun new => ⟨.inr new.1, new.2⟩
      · rintro (old | ⟨rfl | new, unseen⟩)
        · exact .inl old
        · exact absurd known unseen
        · exact .inr ⟨new, unseen⟩
    · rw [enqueue_of_not_mem known, ih, List.mem_cons, List.mem_cons, List.mem_cons]
      by_cases same : name = first
      · simp [same, known]
      · simp [same]

/-- What becomes pending was unseen until then. -/
theorem length_enqueue {found : List Text} (known : ∀ name ∈ found, name ∈ lists.referenced)
    (pending seen : List Text) :
    (enqueue found pending seen).1.length + (lists.unseen (enqueue found pending seen).2).card =
      pending.length + (lists.unseen seen).card := by
  induction found generalizing pending seen with
  | nil => rfl
  | cons first found ih =>
    obtain ⟨referenced, others⟩ := List.forall_mem_cons.mp known
    by_cases old : first ∈ seen
    · rw [enqueue_of_mem old, ih others]
    · rw [enqueue_of_not_mem old, ih others, List.length_cons]
      have among : first ∈ lists.unseen seen := by simpa [unseen, old] using referenced
      have left : lists.unseen (first :: seen) = (lists.unseen seen).erase first := by
        ext name
        simp [unseen]
        tauto
      have card := Finset.card_erase_add_one among
      rw [left]
      omega

theorem searchFrom_cons (rounds : Nat) (first : Text) (pending seen : List Text) :
    lists.searchFrom goal (rounds + 1) (first :: pending) seen =
      if goal ∈ lists.successors first then true
      else lists.searchFrom goal rounds (enqueue (lists.successors first) pending seen).1
        (enqueue (lists.successors first) pending seen).2 :=
  rfl

/-- A search that does not find its goal ends with a set of names that is closed under references
and does not hold the goal. -/
theorem exists_closed_of_searchFrom {rounds : Nat} {pending seen : List Text}
    (enough : pending.length + (lists.unseen seen).card ≤ rounds)
    (explored : ∀ name, name ∈ seen ∨ name = goal →
      name ∈ pending ∨ lists.Explored goal seen name)
    (missed : lists.searchFrom goal rounds pending seen = false) :
    ∃ closed : List Text, ∀ name, name ∈ closed ∨ name = goal → lists.Explored goal closed name := by
  induction rounds generalizing pending seen with
  | zero =>
    have nothing : pending = [] := List.eq_nil_of_length_eq_zero (by omega)
    subst nothing
    exact ⟨seen, fun name known => (explored name known).resolve_left List.not_mem_nil⟩
  | succ rounds ih =>
    cases pending with
    | nil => exact ⟨seen, fun name known => (explored name known).resolve_left List.not_mem_nil⟩
    | cons first pending =>
      rw [searchFrom_cons] at missed
      split_ifs at missed with reached
      have waits := mem_enqueue_pending (lists.successors first) pending seen
      have marked := mem_enqueue_seen (lists.successors first) pending seen
      have balance := length_enqueue (lists.successors_subset_referenced first) pending seen
      refine ih ?_ ?_ missed
      · rw [List.length_cons] at enough
        omega
      · intro name known
        have fate : name ∈ (enqueue (lists.successors first) pending seen).1 ∨
            name ∈ first :: pending ∨ lists.Explored goal seen name := by
          rcases known with known | rfl
          · by_cases old : name ∈ seen
            · exact .inr (explored name (.inl old))
            · have new := ((marked name).mp known).resolve_left old
              exact .inl ((waits name).mpr (.inr ⟨new, old⟩))
          · exact .inr (explored _ (.inr rfl))
        rcases fate with waiting | old | done
        · exact .inl waiting
        · rcases List.mem_cons.mp old with rfl | waiting
          · refine .inr fun next refers => ⟨(marked next).mpr (.inr refers), ?_⟩
            rintro rfl
            exact reached refers
          · exact .inl ((waits name).mpr (.inl waiting))
        · exact .inr fun next refers =>
            ⟨(marked next).mpr (.inl (done next refers).1), (done next refers).2⟩

/-- A list that the search clears does not refer to itself, directly or through other lists. -/
theorem not_transGen_of_leadsBack {name : Text} (cleared : lists.leadsBack name = false) :
    ¬ Relation.TransGen lists.RefersTo name name := by
  have enough : [name].length + (lists.unseen []).card ≤ lists.referenced.length + 1 := by
    have bound := List.toFinset_card_le lists.referenced
    have all : lists.unseen [] = lists.referenced.toFinset := by simp [unseen]
    rw [all, List.length_singleton]
    omega
  have start : ∀ other, other ∈ [] ∨ other = name →
      other ∈ [name] ∨ lists.Explored name [] other := by
    rintro other (absent | rfl)
    · exact absurd absent List.not_mem_nil
    · exact .inl (List.mem_singleton_self _)
  obtain ⟨closed, explored⟩ := exists_closed_of_searchFrom enough start cleared
  intro round
  have inside : ∀ other, Relation.TransGen lists.RefersTo name other →
      other ∈ closed ∧ other ≠ name := by
    intro other path
    induction path with
    | single refers => exact explored name (.inr rfl) _ refers
    | tail _ refers ih => exact explored _ (.inl ih.1) _ refers
  exact (inside name round).2 rfl

/-- A search follows references only, so what it finds is a way from the start to the goal. -/
theorem transGen_of_searchFrom {start : Text} {rounds : Nat} {pending seen : List Text}
    (reached : ∀ name ∈ pending, Relation.ReflTransGen lists.RefersTo start name)
    (found : lists.searchFrom goal rounds pending seen = true) :
    Relation.TransGen lists.RefersTo start goal := by
  induction rounds generalizing pending seen with
  | zero => cases found
  | succ rounds ih =>
    cases pending with
    | nil => cases found
    | cons first pending =>
      obtain ⟨own, others⟩ := List.forall_mem_cons.mp reached
      rw [searchFrom_cons] at found
      split_ifs at found with last
      · exact .tail' own last
      · refine ih (fun name waiting => ?_) found
        rcases (mem_enqueue_pending _ _ _ name).mp waiting with old | ⟨new, -⟩
        · exact others name old
        · exact own.tail new

/-- The search is exact: it finds the lists that lead back to themselves. -/
theorem leadsBack_iff (lists : ValueLists) (name : Text) :
    lists.leadsBack name = true ↔ Relation.TransGen lists.RefersTo name name := by
  constructor
  · intro found
    refine transGen_of_searchFrom (fun other member => ?_) found
    rw [List.mem_singleton.mp member]
  · intro round
    rw [← Bool.not_eq_false]
    exact fun cleared => not_transGen_of_leadsBack cleared round

end ValueLists
end IntentModel
