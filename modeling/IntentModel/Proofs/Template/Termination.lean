import IntentModel.Proofs.Template.Replacement

/-! # Expansion ends

A brace that opens no placeholder is loose. Filling in a placeholder can let loose braces of the
sentence open new ones, which no list has announced; but each new placeholder takes a loose brace
away. So if the values bring in no loose braces, the number of them falls whenever a placeholder arises
from pieces, and otherwise the placeholders of the value stand in for the one that was filled in, which
makes the sentence lighter (`charge_lt`). Every chain of replacements is therefore finite, whatever the
template is (`expansion_ends`). Values with loose braces can bring them back for ever
(`endless_replacement`).
-/

namespace IntentModel

namespace Text

open Placeholder

variable {template name value : Text}

/-- The number of braces that open no placeholder. -/
def looseBraces (text : Text) : Nat :=
  text.count (.char '{') - text.references.length

theorem count_text (valid : IsName name) : (Placeholder.text name).count (.char '{') = 1 := by
  have none : name.count (.char '{') = 0 :=
    List.count_eq_zero.mpr fun inside => absurd (valid.chars _ inside) (by decide)
  simp [Placeholder.text, none]

theorem length_references_le (text : Text) : text.references.length ≤ text.count (.char '{') := by
  induction text using induction_on_places with
  | nil => exact Nat.zero_le _
  | kept c rest nothing ih =>
    rw [references_cons_none nothing]
    exact ih.trans (List.Sublist.count_le _ (List.sublist_cons_self c rest))
  | place name rest valid ih =>
    rw [references_place valid, List.count_append, count_text valid, List.length_cons]
    omega

/-- A brace opens a placeholder or is loose. -/
theorem count_eq (text : Text) : text.count (.char '{') = text.references.length + text.looseBraces := by
  rw [looseBraces, Nat.add_sub_cancel' text.length_references_le]

theorem looseBraces_cons_none {c : CodePoint} {rest : Text} (nothing : read? (c :: rest) = none) :
    looseBraces (c :: rest) = looseBraces rest + [c].count (.char '{') := by
  have bound := length_references_le rest
  rw [looseBraces, looseBraces, references_cons_none nothing, ← List.singleton_append,
    List.count_append]
  omega

theorem looseBraces_place (valid : IsName name) (rest : Text) :
    looseBraces (Placeholder.text name ++ rest) = looseBraces rest := by
  rw [looseBraces, looseBraces, references_place valid, List.count_append, count_text valid,
    List.length_cons]
  omega

theorem WellFormed.looseBraces_eq_zero (formed : WellFormed template) :
    template.looseBraces = 0 := by
  induction formed with
  | nil => rfl
  | @plain c rest allowed _ ih =>
    have other : c ≠ .char '{' := by
      rintro rfl
      exact absurd allowed (by decide)
    rw [looseBraces_cons_none (read?_of_plain allowed _), ih, List.count_singleton,
      beq_eq_false_iff_ne.mpr other]
    rfl
  | place valid _ ih => rw [looseBraces_place valid, ih]

theorem references_sublist_cons (c : CodePoint) (rest : Text) :
    (references rest).Sublist (references (c :: rest)) := by
  rw [references]
  cases read? (c :: rest) with
  | none => exact .refl _
  | some name => exact List.sublist_cons_self ..

/-- Placeholders stay where another text is written behind or before them. -/
theorem references_sublist_append (front rest : Text) :
    (references front ++ references rest).Sublist (references (front ++ rest)) := by
  induction front using induction_on_places with
  | nil => exact .refl _
  | kept c front nothing ih =>
    rw [references_cons_none nothing]
    exact ih.trans (references_sublist_cons c _)
  | place name front valid ih =>
    rw [references_place valid, List.append_assoc, references_place valid, List.cons_append]
    exact ih.cons_cons name

theorem fill_cons_none (valid : IsName name) {c : CodePoint} {rest : Text}
    (nothing : read? (c :: rest) = none) :
    fill (c :: rest) name value = c :: fill rest name value := by
  rw [fill_eq_instantiate valid, fill_eq_instantiate valid]
  apply substitute_cons_kept
  rw [nothing]
  rfl

theorem fill_place (valid : IsName name) {other : Text} (validOther : IsName other) (rest : Text) :
    fill (Placeholder.text other ++ rest) name value =
      (if other = name then value else Placeholder.text other) ++ fill rest name value := by
  rw [fill_eq_instantiate valid, fill_eq_instantiate valid, instantiate_place validOther]
  split_ifs <;> rfl

/-- What becomes of the references of a template when one of them gives way to those of a value. -/
def referencesFilled (template name value : Text) : List Text :=
  template.references.flatMap fun other => if other = name then value.references else [other]

theorem of_mem_referencesFilled {other : Text}
    (member : other ∈ referencesFilled template name value) :
    other ∈ template.references ∧ other ≠ name ∨ other ∈ value.references := by
  obtain ⟨source, listed, inside⟩ := List.mem_flatMap.mp member
  split_ifs at inside with same
  · exact .inr inside
  · rw [List.mem_singleton] at inside
    subst inside
    exact .inl ⟨listed, same⟩

/-- Filling in keeps all other placeholders and those of the value. -/
theorem referencesFilled_sublist (valid : IsName name) (template value : Text) :
    (referencesFilled template name value).Sublist (template.fill name value).references := by
  rw [referencesFilled]
  induction template using induction_on_places with
  | nil => exact List.nil_sublist _
  | kept c rest nothing ih =>
    rw [references_cons_none nothing, fill_cons_none valid nothing]
    exact ih.trans (references_sublist_cons c _)
  | place other rest validOther ih =>
    rw [references_place validOther, List.flatMap_cons, fill_place valid validOther]
    refine .trans ?_ (references_sublist_append _ _)
    split_ifs with same
    · exact ih.append_left _
    · rw [references_text validOther]
      exact ih.append_left _

/-- A value without loose braces brings in as many braces as placeholders. -/
theorem count_fill (valid : IsName name) (tight : value.looseBraces = 0) (template : Text) :
    (template.fill name value).count (.char '{') =
      (referencesFilled template name value).length + template.looseBraces := by
  rw [referencesFilled]
  induction template using induction_on_places with
  | nil => rfl
  | kept c rest nothing ih =>
    rw [fill_cons_none valid nothing, references_cons_none nothing, looseBraces_cons_none nothing,
      ← List.singleton_append, List.count_append, ih]
    omega
  | place other rest validOther ih =>
    rw [fill_place valid validOther, references_place validOther, looseBraces_place validOther,
      List.count_append, List.flatMap_cons, List.length_append, ih]
    have brought : (if other = name then value else Placeholder.text other).count (.char '{') =
        (if other = name then value.references else [other]).length := by
      split_ifs
      · rw [count_eq, tight, Nat.add_zero]
      · rw [count_text validOther, List.length_singleton]
    omega

/-- Filling in takes loose braces away, or the references are those that the value brings in and those
that it leaves. -/
theorem looseBraces_fill (valid : IsName name) (tight : value.looseBraces = 0) (template : Text) :
    (template.fill name value).looseBraces < template.looseBraces ∨
      (template.fill name value).looseBraces = template.looseBraces ∧
        (template.fill name value).references = referencesFilled template name value := by
  have kept := referencesFilled_sublist valid template value
  have counted := count_fill valid tight template
  rw [count_eq] at counted
  have bound := kept.length_le
  rcases Nat.lt_or_ge (template.fill name value).looseBraces template.looseBraces with fewer | same
  · exact .inl fewer
  · exact .inr ⟨by omega, (kept.eq_of_length (by omega)).symm⟩

end Text

/-! ## The charge of a sentence -/

namespace ValueLists

variable {lists : ValueLists} {sentence next : Text}

/-- No value has a loose brace. -/
def Tight (lists : ValueLists) : Prop :=
  ∀ name values, lists.get? name = some values → ∀ value ∈ values, value.looseBraces = 0

theorem WellFormed.tight (formed : lists.WellFormed) : lists.Tight :=
  fun name values declared value choice => (formed name values declared value choice).looseBraces_eq_zero

/-- One more than what a sentence without loose braces can weigh. -/
def heaviest (lists : ValueLists) : Nat :=
  (lists.length + 1) ^ (lists.length + 1) + 1

/-- The weight of a sentence, where a loose brace is heavier than all placeholders together. -/
noncomputable def charge (lists : ValueLists) (sentence : Text) : Nat :=
  sentence.looseBraces * lists.heaviest + lists.weight sentence

theorem charge_lt (lists : ValueLists) (sentence : Text) :
    lists.charge sentence < (sentence.looseBraces + 1) * lists.heaviest := by
  have light : lists.weight sentence < lists.heaviest :=
    Nat.lt_succ_of_le (lists.weight_le_pow sentence)
  rw [charge, Nat.succ_mul]
  omega

/-- Each replacement takes away from the charge, if no value has a loose brace. -/
theorem Tight.charge_lt_charge (tight : lists.Tight) (step : Replaces lists sentence next) :
    lists.charge next < lists.charge sentence := by
  cases step with
  | @fill name value values fillable choice =>
    have member := Text.mem_references_of_leftmost fillable.leftmost
    have valid := Text.isName_of_mem_references member
    have close := tight name values fillable.declared value choice
    rcases Text.looseBraces_fill valid close sentence with fewer | ⟨same, filled⟩
    · -- a new placeholder weighs less than the brace that it has used up
      calc lists.charge (sentence.fill name value)
          < ((sentence.fill name value).looseBraces + 1) * lists.heaviest := lists.charge_lt _
        _ ≤ sentence.looseBraces * lists.heaviest := Nat.mul_le_mul_right _ fewer
        _ ≤ lists.charge sentence := Nat.le_add_right _ _
    · have lighter : lists.weight (sentence.fill name value) < lists.weight sentence := by
        refine weight_lt_weight member fillable.declared choice
          (not_transGen_of_leadsBack fillable.cleared) fun other inside => ?_
        rw [filled] at inside
        exact Text.of_mem_referencesFilled inside
      rw [charge, charge, same]
      exact Nat.add_lt_add_left lighter _

/-- Chains of replacements end, if no value has a loose brace. -/
theorem Tight.bounded (tight : lists.Tight) (sentence : Text) :
    Bounded lists ((sentence.looseBraces + 1) * lists.heaviest) sentence :=
  bounded_of_measure (fun _ _ => tight.charge_lt_charge) (lists.charge_lt sentence)

end ValueLists

variable {lists : ValueLists}

/-- Whatever the template is, its expansion ends if no value has a loose brace: every chain of
replacements is finite, and from a certain limit on the outcome is the same. An error is that of a
placeholder which a chain meets and which has no list or one that leads back to itself; and if a chain
meets such a placeholder, the expansion does not succeed. -/
theorem expansion_ends (tight : lists.Tight) (template : Text) :
    Bounded lists ((template.looseBraces + 1) * lists.heaviest) template ∧
      ∃ outcome : Except ExpansionError (List Text),
        (∀ limit ≥ (template.looseBraces + 1) * lists.heaviest,
          expandWithin lists template limit template = outcome) ∧
        (∀ error, outcome = .error error → ∃ final,
          Relation.ReflTransGen (Replaces lists) template final ∧
            Stops lists template final error) ∧
        ∀ final error, Relation.ReflTransGen (Replaces lists) template final →
          Stops lists template final error → ∃ fault, outcome = .error fault := by
  have bounded := tight.bounded template
  refine ⟨bounded, _, fun limit more => expandWithin_eq_of_bounded bounded more, ?_, ?_⟩
  · intro error run
    exact exists_stops_of_error bounded run
  · intro final error path stops
    exact exists_error_of_stops path stops _

/-- A name that is put together from the value of another placeholder. -/
theorem expansion_ends_spliced :
    ValueLists.Tight [("a1", ["x"]), ("a2", ["$y\x7d"]), ("c", ["1", "2"])] ∧
      (∃ limit, Bounded [("a1", ["x"]), ("a2", ["$y\x7d"]), ("c", ["1", "2"])] limit
        "$\x7ba$\x7bc\x7d\x7d") ∧
      expand "$\x7ba$\x7bc\x7d\x7d" [("a1", ["x"]), ("a2", ["$y\x7d"]), ("c", ["1", "2"])] =
        .ok ["x", "$y\x7d"] := by
  have tight : ValueLists.Tight [("a1", ["x"]), ("a2", ["$y\x7d"]), ("c", ["1", "2"])] :=
    ValueLists.forall_values (by decide)
  exact ⟨tight, ⟨_, (expansion_ends tight _).1⟩, by decide +kernel⟩

/-! ## Values with loose braces -/

/-- Where the first value leads on and on, no limit is enough. -/
theorem tooDeep_of_endless {Endless : Text → Prop}
    (leadsOn : ∀ sentence, Endless sentence → ∃ name value values,
      Fillable lists sentence name (value :: values) ∧ Endless (sentence.fill name value))
    (template : Text) {sentence : Text} (start : Endless sentence) (limit : Nat) :
    expandWithin lists template limit sentence = .error (.tooDeep template) := by
  induction limit generalizing sentence with
  | zero =>
    obtain ⟨name, value, values, fillable, -⟩ := leadsOn sentence start
    exact fillable.expandWithin_zero
  | succ limit ih =>
    obtain ⟨name, value, values, fillable, again⟩ := leadsOn sentence start
    rw [← fault?_eq_some_iff, fillable.fault?_expandWithin_succ, List.findSome?_cons, ih again]
    rfl

/-- A brace of the first value and one of the second make up the placeholder of the first list anew.
No value holds it, so the search does not find that the list leads back to itself, and the expansion
goes round and round. -/
theorem endless_replacement :
    ValueLists.leadsBack [("b", ["$\x7b$\x7bc\x7d"]), ("c", ["b\x7d"])] "b" = false ∧
      Relation.TransGen (Replaces [("b", ["$\x7b$\x7bc\x7d"]), ("c", ["b\x7d"])])
        "$\x7bb\x7d" "$\x7bb\x7d" ∧
      expand "$\x7bb\x7d" [("b", ["$\x7b$\x7bc\x7d"]), ("c", ["b\x7d"])] =
        .error (.tooDeep "$\x7bb\x7d") := by
  have first : Fillable [("b", ["$\x7b$\x7bc\x7d"]), ("c", ["b\x7d"])] "$\x7bb\x7d" "b"
      ["$\x7b$\x7bc\x7d"] := ⟨by decide, by decide, by decide⟩
  have second : Fillable [("b", ["$\x7b$\x7bc\x7d"]), ("c", ["b\x7d"])] "$\x7b$\x7bc\x7d"
      "c" ["b\x7d"] := ⟨by decide, by decide, by decide⟩
  have opened : Text.fill "$\x7bb\x7d" "b" "$\x7b$\x7bc\x7d" = "$\x7b$\x7bc\x7d" := by decide
  have closed : Text.fill "$\x7b$\x7bc\x7d" "c" "b\x7d" = "$\x7bb\x7d" := by decide
  refine ⟨first.cleared, ?_, ?_⟩
  · have there := Replaces.fill first (List.mem_singleton_self _)
    have back := Replaces.fill second (List.mem_singleton_self _)
    rw [opened] at there
    rw [closed] at back
    exact .tail (.single there) back
  · have leadsOn : ∀ sentence : Text,
        sentence = "$\x7bb\x7d" ∨ sentence = "$\x7b$\x7bc\x7d" →
        ∃ name value values,
          Fillable [("b", ["$\x7b$\x7bc\x7d"]), ("c", ["b\x7d"])] sentence name
            (value :: values) ∧
          (sentence.fill name value = "$\x7bb\x7d" ∨
            sentence.fill name value = "$\x7b$\x7bc\x7d") := by
      rintro sentence (rfl | rfl)
      · exact ⟨_, _, _, first, .inr opened⟩
      · exact ⟨_, _, _, second, .inl closed⟩
    exact tooDeep_of_endless leadsOn _ (.inl rfl) _

end IntentModel
