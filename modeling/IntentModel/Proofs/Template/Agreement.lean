import IntentModel.Proofs.Template.Failure

/-! # What an expansion depends on

An expansion looks at the lists that its template reaches and at no others. Lists that agree on these
lead back to themselves or not in both (`leadsBack_eq_of_agree`), although the search may walk through
lists that no sentence ever mentions; so both fill in the same placeholders with the same values and stop
at the same ones (`expand_eq_of_agree`). Lists out of reach can be added, changed, moved or taken away.
-/

namespace IntentModel

variable {lists others : ValueLists} {template sentence : Text}

namespace ValueLists

/-- Every name that the template reaches has the same values in both, or none in either. -/
def AgreeOn (lists others : ValueLists) (template : Text) : Prop :=
  ∀ name, lists.Reaches template name → lists.get? name = others.get? name

/-! ## References -/

section References

variable {source : Text}
  (agree : ∀ name, Relation.ReflTransGen lists.RefersTo source name →
    lists.get? name = others.get? name)

include agree

theorem refersTo_iff_of_agree {name next : Text}
    (path : Relation.ReflTransGen lists.RefersTo source name) :
    lists.RefersTo name next ↔ others.RefersTo name next := by
  rw [refersTo_iff, refersTo_iff, agree name path]

/-- A way along references of the one is a way along references of the other. -/
theorem transGen_iff_of_agree (target : Text) :
    Relation.TransGen lists.RefersTo source target ↔
      Relation.TransGen others.RefersTo source target := by
  constructor
  · intro way
    induction way with
    | single refers => exact .single ((refersTo_iff_of_agree agree .refl).mp refers)
    | tail path refers ih =>
      exact ih.tail ((refersTo_iff_of_agree agree path.to_reflTransGen).mp refers)
  · intro way
    induction way with
    | single refers => exact .single ((refersTo_iff_of_agree agree .refl).mpr refers)
    | tail _ refers ih =>
      exact ih.tail ((refersTo_iff_of_agree agree ih.to_reflTransGen).mpr refers)

theorem leadsBack_eq_of_agree : lists.leadsBack source = others.leadsBack source := by
  rw [Bool.eq_iff_iff, leadsBack_iff, leadsBack_iff]
  exact transGen_iff_of_agree agree source

end References

/-- On a reference of the template, and on what that leads to, the lists agree. -/
theorem AgreeOn.of_mem_references {name : Text} (agree : lists.AgreeOn others template)
    (member : name ∈ template.references) :
    ∀ later, Relation.ReflTransGen lists.RefersTo name later →
      lists.get? later = others.get? later :=
  fun later path => agree later ⟨name, member, path⟩

theorem AgreeOn.leadsBack_eq {name : Text} (agree : lists.AgreeOn others template)
    (reaches : lists.Reaches template name) : lists.leadsBack name = others.leadsBack name := by
  obtain ⟨source, member, path⟩ := reaches
  exact leadsBack_eq_of_agree fun later onward =>
    agree.of_mem_references member later (path.trans onward)

/-- Filling in keeps the lists in agreement. -/
theorem AgreeOn.of_replaces {next : Text} (agree : lists.AgreeOn others sentence)
    (step : Replaces lists sentence next) (formedLists : lists.WellFormed)
    (formed : sentence.WellFormed) : lists.AgreeOn others next :=
  fun name reaches => agree name (reaches.of_replaces step formedLists formed)

end ValueLists

/-! ## Expansions -/

open ValueLists

theorem reaches_of_leftmost {name : Text} (lists : ValueLists)
    (leftmost : sentence.leftmostPlaceholder? = some name) : lists.Reaches sentence name :=
  ⟨name, Text.mem_references_of_leftmost leftmost, .refl⟩

theorem Stops.of_agree {error : ExpansionError} (stops : Stops lists template sentence error)
    (agree : lists.AgreeOn others sentence) : Stops others template sentence error := by
  cases stops with
  | @unknown name leftmost missing =>
    have same := agree name (reaches_of_leftmost lists leftmost)
    exact .unknown leftmost (same.symm.trans missing)
  | @cyclic name values leftmost declared cyclic =>
    have reaches := reaches_of_leftmost lists leftmost
    exact .cyclic leftmost ((agree name reaches).symm.trans declared)
      ((agree.leadsBack_eq reaches).symm.trans cyclic)

theorem Fillable.of_agree {name : Text} {values : List Text}
    (fillable : Fillable lists sentence name values) (agree : lists.AgreeOn others sentence) :
    Fillable others sentence name values :=
  have reaches := reaches_of_leftmost lists fillable.leftmost
  ⟨fillable.leftmost, (agree name reaches).symm.trans fillable.declared,
    (agree.leadsBack_eq reaches).symm.trans fillable.cleared⟩

/-- Under the same limit, lists that agree on a sentence expand it alike. -/
theorem expandWithin_eq_of_agree (formedLists : lists.WellFormed) (formed : sentence.WellFormed)
    (agree : lists.AgreeOn others sentence) (limit : Nat) :
    expandWithin lists template limit sentence = expandWithin others template limit sentence := by
  induction limit using Nat.strongRecOn generalizing sentence with
  | ind limit ih =>
    rcases finished_or_stops_or_fillable lists template sentence with
      finished | ⟨error, stops⟩ | ⟨name, values, fillable⟩
    · rw [expandWithin_of_finished finished, expandWithin_of_finished finished]
    · rw [stops.expandWithin_eq, (stops.of_agree agree).expandWithin_eq]
    · cases limit with
      | zero => rw [fillable.expandWithin_zero, (fillable.of_agree agree).expandWithin_zero]
      | succ limit =>
        rw [fillable.expandWithin_succ, (fillable.of_agree agree).expandWithin_succ]
        congr 1
        apply mapM_congr
        intro value choice
        have step := Replaces.fill fillable choice
        exact ih limit (Nat.lt_succ_self limit) (step.wellFormed formedLists formed)
          (agree.of_replaces step formedLists formed)

/-- Lists that agree on the names that a template reaches through the first expand it alike: to the same
sentences in the same order, or with the same error. None of these names leads back to itself in one and
not in the other. -/
theorem expand_eq_of_agree (formedLists : lists.WellFormed) (formedOthers : others.WellFormed)
    (formed : template.WellFormed)
    (agree : ∀ name, lists.Reaches template name → lists.get? name = others.get? name) :
    expand template lists = expand template others ∧
      ∀ name, lists.Reaches template name → lists.leadsBack name = others.leadsBack name := by
  have agreeOn : lists.AgreeOn others template := agree
  refine ⟨?_, fun name reaches => agreeOn.leadsBack_eq reaches⟩
  -- the limits of the two may differ, so both are lifted to the greater one
  have bounded := bounded_of_wellFormed formedLists formed
  have boundedOthers := bounded_of_wellFormed formedOthers formed
  calc expand template lists
      = expandWithin lists template
          (max (replacementLimit lists) (replacementLimit others)) template :=
        (expandWithin_eq_of_bounded bounded (Nat.le_max_left ..)).symm
    _ = expandWithin others template
          (max (replacementLimit lists) (replacementLimit others)) template :=
        expandWithin_eq_of_agree formedLists formed agreeOn _
    _ = expand template others :=
        expandWithin_eq_of_bounded boundedOthers (Nat.le_max_right ..)

/-- Lists in another order, with one list taken away that leads back to itself and with one added that
leads to the others. -/
theorem expand_eq_of_agree_reordered :
    expand "say $\x7ba\x7d" [("z", ["$\x7bz\x7d"]), ("a", ["x", "$\x7bb\x7d!"]), ("b", ["y"])] =
        expand "say $\x7ba\x7d" [("b", ["y"]), ("c", ["$\x7ba\x7d"]), ("a", ["x", "$\x7bb\x7d!"])] ∧
      expand "say $\x7ba\x7d" [("z", ["$\x7bz\x7d"]), ("a", ["x", "$\x7bb\x7d!"]), ("b", ["y"])] =
        .ok ["say x", "say y!"] := by
  have closed : ∀ name ∈ [[.char 'a'], [.char 'b']], ∀ next ∈ ValueLists.successors
      [("z", ["$\x7bz\x7d"]), ("a", ["x", "$\x7bb\x7d!"]), ("b", ["y"])] name,
      next ∈ [[.char 'a'], [.char 'b']] := by decide
  have within : ∀ name, ValueLists.Reaches
      [("z", ["$\x7bz\x7d"]), ("a", ["x", "$\x7bb\x7d!"]), ("b", ["y"])] "say $\x7ba\x7d" name →
      name ∈ [[.char 'a'], [.char 'b']] := by
    rintro name ⟨source, member, path⟩
    induction path with
    | refl =>
      have start : ∀ other ∈ Text.references "say $\x7ba\x7d", other ∈ [[.char 'a'], [.char 'b']] := by decide
      exact start source member
    | tail _ refers ih => exact closed _ ih _ refers
  have same : ∀ name ∈ [[.char 'a'], [.char 'b']],
      ValueLists.get? [("z", ["$\x7bz\x7d"]), ("a", ["x", "$\x7bb\x7d!"]), ("b", ["y"])] name =
        ValueLists.get? [("b", ["y"]), ("c", ["$\x7ba\x7d"]), ("a", ["x", "$\x7bb\x7d!"])] name := by
    decide
  exact ⟨(expand_eq_of_agree (ValueLists.forall_values (by decide))
    (ValueLists.forall_values (by decide)) (by decide)
    fun name reaches => same name (within name reaches)).1, by decide +kernel⟩

end IntentModel
