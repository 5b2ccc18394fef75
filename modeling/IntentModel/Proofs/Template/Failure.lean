import IntentModel.Proofs.Template.Termination

/-! # When an expansion fails

Which lists a template reaches is settled before anything is filled in. On well-formed texts filling in
leads to no other names (`Reaches.of_replaces`), so an error names a list that the template reaches.
Conversely, as long as there are values to choose from, each name that is reached stays in reach of
some sentence until its turn comes (`exists_replaces_of_reaches`); so a name without a list, or with one
that leads back to itself, is found on some chain. A list without values ends the chains before the
names behind it are looked at.
-/

namespace IntentModel

variable {lists : ValueLists} {template sentence name : Text}

/-- The template leads to the name, by one of its placeholders and the references between lists. -/
def ValueLists.Reaches (lists : ValueLists) (template name : Text) : Prop :=
  ∃ source ∈ template.references, Relation.ReflTransGen lists.RefersTo source name

theorem Fillable.isName {values : List Text} (fillable : Fillable lists sentence name values) :
    Placeholder.IsName name :=
  Text.isName_of_mem_references (Text.mem_references_of_leftmost fillable.leftmost)

theorem Replaces.wellFormed {next : Text} (step : Replaces lists sentence next)
    (formedLists : lists.WellFormed) (formed : sentence.WellFormed) : next.WellFormed := by
  cases step with
  | @fill name value values fillable choice =>
    exact formed.fill fillable.isName (formedLists name values fillable.declared value choice)

/-- Filling in leads to no names that were not in reach. -/
theorem ValueLists.Reaches.of_replaces {next : Text} (reaches : lists.Reaches next name)
    (step : Replaces lists sentence next) (formedLists : lists.WellFormed)
    (formed : sentence.WellFormed) : lists.Reaches sentence name := by
  obtain ⟨source, listed, path⟩ := reaches
  cases step with
  | @fill filled value values fillable choice =>
    have formedValue := formedLists filled values fillable.declared value choice
    rw [formed.mem_references_fill fillable.isName formedValue] at listed
    rcases listed with ⟨old, -⟩ | ⟨place, new⟩
    · exact ⟨source, old, path⟩
    · have refers := refersTo_iff.mpr ⟨values, fillable.declared, value, choice, new⟩
      exact ⟨filled, place, path.head refers⟩

theorem ValueLists.Reaches.of_chain {final : Text}
    (path : Relation.ReflTransGen (Replaces lists) sentence final)
    (formedLists : lists.WellFormed) (formed : sentence.WellFormed)
    (reaches : lists.Reaches final name) : lists.Reaches sentence name := by
  induction path using Relation.ReflTransGen.head_induction_on with
  | refl => exact reaches
  | head step _ ih => exact (ih (step.wellFormed formedLists formed)).of_replaces step formedLists formed

/-- A name in reach that is not the one to be filled in stays in reach with one of the values. -/
theorem exists_replaces_of_reaches {filled : Text} {values : List Text}
    (fillable : Fillable lists sentence filled values) (present : values ≠ [])
    (formedLists : lists.WellFormed) (formed : sentence.WellFormed)
    (reaches : lists.Reaches sentence name) (other : name ≠ filled) :
    ∃ next, Replaces lists sentence next ∧ lists.Reaches next name := by
  obtain ⟨source, listed, path⟩ := reaches
  have kept := fun value choice => formed.mem_references_fill fillable.isName
    (formedLists filled values fillable.declared value choice)
  by_cases same : source = filled
  · -- the name lies behind the placeholder, so one of the values refers to what leads there
    subst same
    rcases Relation.ReflTransGen.cases_head path with rfl | ⟨next, refers, rest⟩
    · exact absurd rfl other
    · obtain ⟨found, declared, value, choice, inside⟩ := ValueLists.refersTo_iff.mp refers
      cases declared.symm.trans fillable.declared
      exact ⟨_, .fill fillable choice, next, (kept value choice next).mpr (.inr ⟨listed, inside⟩), rest⟩
  · obtain ⟨value, choice⟩ := List.exists_mem_of_ne_nil values present
    exact ⟨_, .fill fillable choice, source, (kept value choice source).mpr (.inl ⟨listed, same⟩), path⟩

/-- A name in reach that cannot be filled in is the end of some chain, or another one is. -/
theorem exists_stops_of_reaches {limit : Nat} (bounded : Bounded lists limit sentence)
    (formedLists : lists.WellFormed) (formed : sentence.WellFormed)
    (present : ∀ other, lists.Reaches sentence other → lists.get? other ≠ some [])
    (reaches : lists.Reaches sentence name)
    (bad : lists.get? name = none ∨ Relation.TransGen lists.RefersTo name name) :
    ∃ final error, Relation.ReflTransGen (Replaces lists) sentence final ∧
      Stops lists template final error := by
  induction limit generalizing sentence with
  | zero => exact absurd bounded.pos (Nat.lt_irrefl 0)
  | succ limit ih =>
    rcases finished_or_stops_or_fillable lists template sentence with
      finished | ⟨error, stops⟩ | ⟨filled, values, fillable⟩
    · obtain ⟨source, listed, -⟩ := reaches
      rw [Text.leftmostPlaceholder?_eq_none_iff.mp finished] at listed
      cases listed
    · exact ⟨sentence, error, .refl, stops⟩
    · have other : name ≠ filled := by
        rintro rfl
        rcases bad with missing | cyclic
        · cases missing.symm.trans fillable.declared
        · exact ValueLists.not_transGen_of_leadsBack fillable.cleared cyclic
      have some : values ≠ [] := by
        rintro rfl
        have listed := Text.mem_references_of_leftmost fillable.leftmost
        exact present filled ⟨filled, listed, .refl⟩ fillable.declared
      obtain ⟨next, step, still⟩ :=
        exists_replaces_of_reaches fillable some formedLists formed reaches other
      obtain ⟨final, error, path, stops⟩ := ih (bounded.of_replaces step)
        (step.wellFormed formedLists formed)
        (fun later inReach => present later (inReach.of_replaces step formedLists formed)) still
      exact ⟨final, error, path.head step, stops⟩

/-- Where a chain of well-formed sentences stops, the error names a list that is in reach. -/
theorem Stops.exists_reaches {final : Text} {error : ExpansionError}
    (stops : Stops lists template final error) :
    ∃ name, lists.Reaches final name ∧
      (error = .unknownList name template ∧ lists.get? name = none ∨
        error = .cyclicList name template ∧ (∃ values, lists.get? name = some values) ∧
          Relation.TransGen lists.RefersTo name name) := by
  cases stops with
  | @unknown name leftmost missing =>
    have listed := Text.mem_references_of_leftmost leftmost
    exact ⟨name, ⟨name, listed, .refl⟩, .inl ⟨rfl, missing⟩⟩
  | @cyclic name values leftmost declared cyclic =>
    have listed := Text.mem_references_of_leftmost leftmost
    exact ⟨name, ⟨name, listed, .refl⟩,
      .inr ⟨rfl, ⟨values, declared⟩, (lists.leadsBack_iff name).mp cyclic⟩⟩

/-- No chain from a well-formed template is as long as the number of replacements that the expansion
allows. -/
theorem bounded_of_wellFormed (formedLists : lists.WellFormed) (formed : template.WellFormed) :
    Bounded lists (replacementLimit lists) template := by
  have bounded := formedLists.tight.bounded template
  rw [formed.looseBraces_eq_zero, Nat.zero_add, Nat.one_mul] at bounded
  intro chain linked
  have shorter := bounded chain linked
  exact shorter.trans_le (Nat.add_le_add_left (by decide) _)

/-- The expansion of a well-formed template ends, and the limit on replacements never shows. An error
names the whole template and a list that the template reaches, which is not there or leads back to
itself; so there is none if every list in reach is there and does not lead back to itself. Conversely,
a list in reach that is not there or leads back to itself is an error, unless some list in reach is
empty. -/
theorem expand_failure (formedLists : lists.WellFormed) (formed : template.WellFormed) :
    (Bounded lists (replacementLimit lists) template ∧ ∀ limit ≥ replacementLimit lists,
      expandWithin lists template limit template = expand template lists) ∧
    (∀ error, expand template lists = .error error → ∃ name, lists.Reaches template name ∧
      (error = .unknownList name template ∧ lists.get? name = none ∨
        error = .cyclicList name template ∧ (∃ values, lists.get? name = some values) ∧
          Relation.TransGen lists.RefersTo name name)) ∧
    ((∀ name, lists.Reaches template name → (∃ values, lists.get? name = some values) ∧
        ¬ Relation.TransGen lists.RefersTo name name) →
      ∃ results, expand template lists = .ok results) ∧
    ((∀ name, lists.Reaches template name → lists.get? name ≠ some []) →
      (∃ name, lists.Reaches template name ∧
        (lists.get? name = none ∨ Relation.TransGen lists.RefersTo name name)) →
      ∃ error, expand template lists = .error error) := by
  have bounded := bounded_of_wellFormed formedLists formed
  have named : ∀ error, expand template lists = .error error →
      ∃ name, lists.Reaches template name ∧
        (error = .unknownList name template ∧ lists.get? name = none ∨
          error = .cyclicList name template ∧ (∃ values, lists.get? name = some values) ∧
            Relation.TransGen lists.RefersTo name name) := by
    intro error run
    obtain ⟨final, path, stops⟩ := exists_stops_of_error bounded run
    obtain ⟨name, reaches, kind⟩ := stops.exists_reaches
    exact ⟨name, .of_chain path formedLists formed reaches, kind⟩
  refine ⟨⟨bounded, fun limit more => expandWithin_eq_of_bounded bounded more⟩, named, ?_, ?_⟩
  · intro good
    cases run : expand template lists with
    | ok results => exact ⟨results, rfl⟩
    | error error =>
      obtain ⟨name, reaches, kind⟩ := named error run
      obtain ⟨⟨values, declared⟩, acyclic⟩ := good name reaches
      rcases kind with ⟨-, missing⟩ | ⟨-, -, cyclic⟩
      · cases missing.symm.trans declared
      · exact absurd cyclic acyclic
  · rintro present ⟨name, reaches, bad⟩
    obtain ⟨final, error, path, stops⟩ :=
      exists_stops_of_reaches bounded formedLists formed present reaches bad
    exact exists_error_of_stops path stops _

/-- A list without values hides the list that is not there. -/
example : expand "$\x7be\x7d$\x7bc\x7d" [("e", [])] = .ok [] := by decide +kernel

/-- A list that is not there, behind a value of another list. -/
theorem expand_failure_behind :
    ValueLists.WellFormed [("a", ["x", "$\x7bb\x7d!"]), ("b", ["$\x7bc\x7d"])] ∧
      Text.WellFormed "say $\x7ba\x7d" ∧
      expand "say $\x7ba\x7d" [("a", ["x", "$\x7bb\x7d!"]), ("b", ["$\x7bc\x7d"])] =
        .error (.unknownList "c" "say $\x7ba\x7d") ∧
      ValueLists.Reaches [("a", ["x", "$\x7bb\x7d!"]), ("b", ["$\x7bc\x7d"])] "say $\x7ba\x7d"
        "c" := by
  have formedLists : ValueLists.WellFormed [("a", ["x", "$\x7bb\x7d!"]), ("b", ["$\x7bc\x7d"])] :=
    ValueLists.forall_values (by decide)
  have formed : Text.WellFormed "say $\x7ba\x7d" := by decide
  have run : expand "say $\x7ba\x7d" [("a", ["x", "$\x7bb\x7d!"]), ("b", ["$\x7bc\x7d"])] =
      .error (.unknownList "c" "say $\x7ba\x7d") := by decide +kernel
  refine ⟨formedLists, formed, run, ?_⟩
  obtain ⟨name, reaches, ⟨same, -⟩ | ⟨other, -⟩⟩ := (expand_failure formedLists formed).2.1 _ run
  · cases same
    exact reaches
  · cases other

end IntentModel
