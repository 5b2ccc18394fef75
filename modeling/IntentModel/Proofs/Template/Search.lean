import IntentModel.Proofs.Template.References

/-! # The rounds of the search

`leadsBack` allows its search a number of rounds. Here a round is a step by itself, and how many follow on one
another is left to the search: it goes on as long as a name waits and that name does not refer to the goal
(`ends_iff_not_round`).

Each round takes one name from those that can still be followed, the waiting and the unseen ones together
(`Round.budget_eq`). So no run of rounds is longer than their number, whatever cycles there are
(`length_le_budget`), every search comes to an end (`exists_ends`), and where enough rounds are allowed their
number does not show in the answer (`Ends.eq_searchFrom`).
-/

namespace IntentModel.ValueLists

/-- What a search has in hand: the names that wait to be followed, the next one first, and those that have
been seen. -/
abbrev Stock := List Text × List Text

/-- A round that does not find the goal: the next name is followed, and the new names that it refers to wait
from then on. -/
inductive Round (lists : ValueLists) (goal : Text) : Stock → Stock → Prop
  | follow {name : Text} {pending seen : List Text} :
      goal ∉ lists.successors name →
      Round lists goal (name :: pending, seen) (enqueue (lists.successors name) pending seen)

/-- The search has its answer: the next name refers to the goal, or no name waits. -/
inductive Ends (lists : ValueLists) (goal : Text) : Stock → Bool → Prop
  | found {name : Text} {pending seen : List Text} :
      goal ∈ lists.successors name → Ends lists goal (name :: pending, seen) true
  | exhausted {seen : List Text} : Ends lists goal ([], seen) false

/-- The number of names that can still be followed. -/
def budget (lists : ValueLists) (stock : Stock) : Nat :=
  stock.1.length + (lists.unseen stock.2).card

variable {lists : ValueLists} {goal : Text} {stock next last : Stock} {found : Bool}

/-! ## One round -/

theorem Round.budget_eq (round : Round lists goal stock next) :
    lists.budget next + 1 = lists.budget stock := by
  cases round with
  | @follow name pending seen missed =>
    have balance := length_enqueue (lists.successors_subset_referenced name) pending seen
    simp only [budget, List.length_cons]
    omega

theorem Round.searchFrom_eq (round : Round lists goal stock next) (rounds : Nat) :
    lists.searchFrom goal (rounds + 1) stock.1 stock.2 =
      lists.searchFrom goal rounds next.1 next.2 := by
  cases round with
  | follow missed => rw [searchFrom_cons, if_neg missed]

theorem Ends.searchFrom_eq (ends : Ends lists goal stock found) {rounds : Nat}
    (enough : lists.budget stock ≤ rounds) :
    lists.searchFrom goal rounds stock.1 stock.2 = found := by
  cases ends with
  | @found name pending seen reached =>
    obtain ⟨fewer, rfl⟩ : ∃ fewer, rounds = fewer + 1 := by
      simp only [budget, List.length_cons] at enough
      exact ⟨rounds - 1, by omega⟩
    rw [searchFrom_cons, if_pos reached]
  | exhausted => cases rounds <;> rfl

/-- A search goes on exactly until it has its answer. -/
theorem ends_iff_not_round :
    (∃ found, Ends lists goal stock found) ↔ ¬ ∃ next, Round lists goal stock next := by
  constructor
  · rintro ⟨found, ends⟩ ⟨next, round⟩
    cases round with
    | follow missed =>
      cases ends with
      | found reached => exact missed reached
  · intro stuck
    obtain ⟨pending, seen⟩ := stock
    cases pending with
    | nil => exact ⟨false, .exhausted⟩
    | cons name pending =>
      by_cases reached : goal ∈ lists.successors name
      · exact ⟨true, .found reached⟩
      · exact absurd ⟨_, .follow reached⟩ stuck

/-! ## Runs of rounds -/

/-- No more rounds follow on one another than names can be followed. -/
theorem length_le_budget {run : List Stock} (linked : (stock :: run).IsChain (Round lists goal)) :
    run.length ≤ lists.budget stock := by
  refine length_le_of_isChain (fun before after round => ?_) linked
  have less := round.budget_eq
  omega

/-- Every search comes to an end. -/
theorem exists_ends (lists : ValueLists) (goal : Text) (stock : Stock) :
    ∃ last found, Relation.ReflTransGen (Round lists goal) stock last ∧ Ends lists goal last found := by
  induction left : lists.budget stock using Nat.strongRecOn generalizing stock with
  | ind left ih =>
    by_cases finished : ∃ found, Ends lists goal stock found
    · obtain ⟨found, ends⟩ := finished
      exact ⟨stock, found, .refl, ends⟩
    · obtain ⟨next, round⟩ := not_not.mp (mt ends_iff_not_round.mpr finished)
      have less := round.budget_eq
      obtain ⟨last, found, path, ends⟩ := ih (lists.budget next) (by omega) next rfl
      exact ⟨last, found, path.head round, ends⟩

/-- A run that ends gives the answer of the search that is allowed enough rounds. -/
theorem Ends.eq_searchFrom (ends : Ends lists goal last found)
    (path : Relation.ReflTransGen (Round lists goal) stock last) {rounds : Nat}
    (enough : lists.budget stock ≤ rounds) :
    found = lists.searchFrom goal rounds stock.1 stock.2 := by
  induction path using Relation.ReflTransGen.head_induction_on generalizing rounds with
  | refl => exact (ends.searchFrom_eq enough).symm
  | head round _ ih =>
    have less := round.budget_eq
    obtain ⟨fewer, rfl⟩ : ∃ fewer, rounds = fewer + 1 := ⟨rounds - 1, by omega⟩
    rw [round.searchFrom_eq]
    exact ih (by omega)

/-! ## The search for a list that leads back to itself -/

/-- Before the first round only the name itself waits, and all references are unseen. -/
theorem budget_start (lists : ValueLists) (name : Text) :
    lists.budget ([name], []) = lists.referenced.toFinset.card + 1 := by
  simp [budget, unseen, Nat.add_comm]

/-- A run of rounds that ends gives the answer of `leadsBack`. -/
theorem Ends.eq_leadsBack {name : Text} (ends : Ends lists name last found)
    (path : Relation.ReflTransGen (Round lists name) ([name], []) last) :
    found = lists.leadsBack name := by
  have bound := List.toFinset_card_le lists.referenced
  refine ends.eq_searchFrom path ?_
  rw [budget_start]
  omega

/-- The search ends for all lists, whatever cycles they form: after no more rounds than names are referred
to and one. It does not stop before it has its answer, and every way through it gives the answer of
`leadsBack`. The answer is yes exactly when a path of one step at least leads from the name back to it, a step
going from a list to a placeholder in one of its values. -/
theorem search_is_exact (lists : ValueLists) (name : Text) :
    (∀ run : List Stock, (([name], []) :: run).IsChain (Round lists name) →
      run.length ≤ lists.referenced.toFinset.card + 1) ∧
    (∀ stock, (∃ found, Ends lists name stock found) ↔ ¬ ∃ next, Round lists name stock next) ∧
    (∃ last, Relation.ReflTransGen (Round lists name) ([name], []) last ∧
      Ends lists name last (lists.leadsBack name)) ∧
    (∀ last found, Relation.ReflTransGen (Round lists name) ([name], []) last →
      Ends lists name last found → found = lists.leadsBack name) ∧
    (lists.leadsBack name = true ↔
      Relation.TransGen (fun source target => ∃ values, lists.get? source = some values ∧
        ∃ value ∈ values, target ∈ value.placeholders) name name) := by
  refine ⟨fun run linked => ?_, fun stock => ends_iff_not_round, ?_, fun last found path ends => ?_, ?_⟩
  · rw [← budget_start]
    exact length_le_budget linked
  · obtain ⟨last, found, path, ends⟩ := exists_ends lists name ([name], [])
    exact ⟨last, path, ends.eq_leadsBack path ▸ ends⟩
  · exact ends.eq_leadsBack path
  · have step : lists.RefersTo = fun source target => ∃ values, lists.get? source = some values ∧
        ∃ value ∈ values, target ∈ value.placeholders := by
      funext source target
      simp only [refersTo_iff, Text.placeholders, List.mem_eraseDups]
    rw [leadsBack_iff, step]

/-- A cycle that does not pass through the first name, a list without values and a name without a list. -/
theorem search_is_exact_beside_cycle :
    let lists : ValueLists :=
      [("a", ["$\x7bb\x7d $\x7bu\x7d"]), ("b", ["x", "$\x7bc\x7d$\x7be\x7d"]), ("c", ["$\x7bb\x7d"]),
        ("e", [])]
    let Step := fun source target => ∃ values, lists.get? source = some values ∧
      ∃ value ∈ values, target ∈ value.placeholders
    (∃ last, Relation.ReflTransGen (Round lists "a") ([("a" : Text)], []) last ∧ Ends lists "a" last false) ∧
      ¬ Relation.TransGen Step ("a" : Text) ("a" : Text) ∧ Relation.TransGen Step ("b" : Text) ("b" : Text) := by
  intro lists Step
  have cleared : lists.leadsBack "a" = false := by decide
  have cyclic : lists.leadsBack "b" = true := by decide
  obtain ⟨-, -, ended, -, exact⟩ := search_is_exact lists "a"
  obtain ⟨-, -, -, -, others⟩ := search_is_exact lists "b"
  rw [cleared] at ended exact
  exact ⟨ended, fun path => absurd (exact.mpr path) Bool.false_ne_true, others.mp cyclic⟩

end IntentModel.ValueLists
