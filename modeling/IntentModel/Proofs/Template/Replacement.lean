import IntentModel.Proofs.Template.Expansion

/-! # Replacements in a row

The expansion of a sentence goes along chains of replacements, one for each choice of values, and it
stops where a chain meets a placeholder that cannot be filled in. A limit above the length of all
chains does not show in the outcome (`expandWithin_eq_of_bounded`). Under such a limit an error is
met on some chain (`exists_stops_of_error`); conversely, a chain that stops does not let the expansion
succeed (`exists_error_of_stops`).
-/

namespace IntentModel

/-- The leftmost placeholder of a sentence can be filled in with values. -/
structure Fillable (lists : ValueLists) (sentence name : Text) (values : List Text) : Prop where
  leftmost : sentence.leftmostPlaceholder? = some name
  declared : lists.get? name = some values
  cleared : lists.leadsBack name = false

/-- The leftmost placeholder gives way to one of its values. -/
inductive Replaces (lists : ValueLists) : Text → Text → Prop
  | fill {sentence name value : Text} {values : List Text} :
      Fillable lists sentence name values → value ∈ values →
      Replaces lists sentence (sentence.fill name value)

/-- The leftmost placeholder of a sentence cannot be filled in. -/
inductive Stops (lists : ValueLists) (template : Text) : Text → ExpansionError → Prop
  | unknown {sentence name : Text} :
      sentence.leftmostPlaceholder? = some name → lists.get? name = none →
      Stops lists template sentence (.unknownList name template)
  | cyclic {sentence name : Text} {values : List Text} :
      sentence.leftmostPlaceholder? = some name → lists.get? name = some values →
      lists.leadsBack name = true → Stops lists template sentence (.cyclicList name template)

/-- No chain of replacements that begins with the sentence is as long as the limit. -/
def Bounded (lists : ValueLists) (limit : Nat) (sentence : Text) : Prop :=
  ∀ chain : List Text, (sentence :: chain).IsChain (Replaces lists) → chain.length < limit

variable {lists : ValueLists} {template sentence : Text} {limit : Nat} {error : ExpansionError}

/-! ## Chains -/

theorem Bounded.pos (bounded : Bounded lists limit sentence) : 0 < limit :=
  bounded [] (.singleton _)

theorem Bounded.of_replaces {next : Text} (bounded : Bounded lists (limit + 1) sentence)
    (step : Replaces lists sentence next) : Bounded lists limit next := by
  intro chain linked
  have longer := bounded (next :: chain) (.cons_cons step linked)
  rw [List.length_cons] at longer
  omega

/-- Chains are no longer than a measure of the sentence that each replacement lowers. -/
theorem bounded_of_measure {measure : Text → Nat}
    (lowers : ∀ sentence next, Replaces lists sentence next → measure next < measure sentence)
    (below : measure sentence < limit) : Bounded lists limit sentence :=
  fun _ linked => (length_le_of_isChain lowers linked).trans_lt below

/-! ## What the expansion does with a sentence -/

theorem expandWithin_of_finished (finished : sentence.leftmostPlaceholder? = none) (limit : Nat) :
    expandWithin lists template limit sentence = .ok [sentence] := by
  rw [expandWithin, finished]

theorem Stops.expandWithin_eq (stops : Stops lists template sentence error) (limit : Nat) :
    expandWithin lists template limit sentence = .error error := by
  cases stops with
  | unknown leftmost missing =>
    rw [expandWithin, leftmost]
    simp only [missing]
  | cyclic leftmost declared cyclic =>
    rw [expandWithin, leftmost]
    simp only [declared, cyclic, if_true]

theorem Fillable.expandWithin_zero {name : Text} {values : List Text}
    (fillable : Fillable lists sentence name values) :
    expandWithin lists template 0 sentence = .error (.tooDeep template) := by
  rw [expandWithin, fillable.leftmost]
  simp only [fillable.declared, fillable.cleared, Bool.false_eq_true, if_false]

theorem Fillable.expandWithin_succ {name : Text} {values : List Text}
    (fillable : Fillable lists sentence name values) (limit : Nat) :
    expandWithin lists template (limit + 1) sentence =
      (values.mapM fun value => expandWithin lists template limit (sentence.fill name value)) >>=
        fun expansions => .ok expansions.flatten := by
  rw [expandWithin, fillable.leftmost]
  simp only [fillable.declared, fillable.cleared, Bool.false_eq_true, if_false]
  rfl

/-- The expansion fails at the first value with which it fails. -/
theorem Fillable.fault?_expandWithin_succ {name : Text} {values : List Text}
    (fillable : Fillable lists sentence name values) (limit : Nat) :
    fault? (expandWithin lists template (limit + 1) sentence) =
      values.findSome? fun value =>
        fault? (expandWithin lists template limit (sentence.fill name value)) := by
  rw [fillable.expandWithin_succ, fault?_bind_ok, fault?_mapM]

/-- A sentence is finished, it stops the expansion, or its leftmost placeholder can be filled in. -/
theorem finished_or_stops_or_fillable (lists : ValueLists) (template sentence : Text) :
    sentence.leftmostPlaceholder? = none ∨ (∃ error, Stops lists template sentence error) ∨
      ∃ name values, Fillable lists sentence name values := by
  cases leftmost : sentence.leftmostPlaceholder? with
  | none => exact .inl rfl
  | some name =>
    refine .inr ?_
    cases declared : lists.get? name with
    | none => exact .inl ⟨_, .unknown leftmost declared⟩
    | some values =>
      cases cyclic : lists.leadsBack name with
      | true => exact .inl ⟨_, .cyclic leftmost declared cyclic⟩
      | false => exact .inr ⟨name, values, leftmost, declared, cyclic⟩

/-! ## Limits and errors -/

/-- A limit that no chain reaches does not show in the outcome. -/
theorem expandWithin_eq_of_bounded (bounded : Bounded lists limit sentence) {other : Nat}
    (more : limit ≤ other) :
    expandWithin lists template other sentence = expandWithin lists template limit sentence := by
  induction limit generalizing sentence other with
  | zero => exact absurd bounded.pos (Nat.lt_irrefl 0)
  | succ limit ih =>
    obtain ⟨other, rfl⟩ : ∃ less, other = less + 1 := ⟨other - 1, by omega⟩
    rcases finished_or_stops_or_fillable lists template sentence with
      finished | ⟨error, stops⟩ | ⟨name, values, fillable⟩
    · rw [expandWithin_of_finished finished, expandWithin_of_finished finished]
    · rw [stops.expandWithin_eq, stops.expandWithin_eq]
    · rw [fillable.expandWithin_succ, fillable.expandWithin_succ]
      congr 1
      apply mapM_congr
      intro value choice
      exact ih (bounded.of_replaces (.fill fillable choice)) (by omega)

/-- An error under a limit that no chain reaches is met on a chain. -/
theorem exists_stops_of_error (bounded : Bounded lists limit sentence)
    (run : expandWithin lists template limit sentence = .error error) :
    ∃ final, Relation.ReflTransGen (Replaces lists) sentence final ∧
      Stops lists template final error := by
  induction limit generalizing sentence with
  | zero => exact absurd bounded.pos (Nat.lt_irrefl 0)
  | succ limit ih =>
    rcases finished_or_stops_or_fillable lists template sentence with
      finished | ⟨fault, stops⟩ | ⟨name, values, fillable⟩
    · rw [expandWithin_of_finished finished] at run
      cases run
    · rw [stops.expandWithin_eq] at run
      cases run
      exact ⟨sentence, .refl, stops⟩
    · rw [← fault?_eq_some_iff, fillable.fault?_expandWithin_succ] at run
      obtain ⟨value, choice, failed⟩ := List.exists_of_findSome?_eq_some run
      have step := Replaces.fill fillable choice
      obtain ⟨final, path, stops⟩ := ih (bounded.of_replaces step) (fault?_eq_some_iff.mp failed)
      exact ⟨final, path.head step, stops⟩

/-- A sentence fails with each sentence that replaces it. -/
theorem Replaces.exists_error {next : Text} (step : Replaces lists sentence next)
    (failed : expandWithin lists template limit next = .error error) :
    ∃ fault, expandWithin lists template (limit + 1) sentence = .error fault := by
  cases step with
  | fill fillable choice =>
    cases run : expandWithin lists template (limit + 1) sentence with
    | error fault => exact ⟨fault, rfl⟩
    | ok results =>
      have clean := fault?_eq_none_iff.mpr ⟨results, run⟩
      rw [fillable.fault?_expandWithin_succ, List.findSome?_eq_none_iff] at clean
      have own := clean _ choice
      rw [failed] at own
      cases own

/-- A chain that stops does not let the expansion succeed, whatever the limit. -/
theorem exists_error_of_stops {final : Text}
    (path : Relation.ReflTransGen (Replaces lists) sentence final)
    (stops : Stops lists template final error) (limit : Nat) :
    ∃ fault, expandWithin lists template limit sentence = .error fault := by
  induction path using Relation.ReflTransGen.head_induction_on generalizing limit with
  | refl => exact ⟨error, stops.expandWithin_eq limit⟩
  | head step _ ih =>
    cases limit with
    | zero =>
      cases step with
      | fill fillable _ => exact ⟨_, fillable.expandWithin_zero⟩
    | succ limit =>
      obtain ⟨fault, failed⟩ := ih limit
      exact step.exists_error failed

end IntentModel
