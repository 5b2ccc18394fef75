import IntentModel.Proofs.Outcome
import IntentModel.Proofs.Template.Weight

/-! # Expansion without a limit

`Expands` says how a sentence expands without counting the replacements. An expansion that succeeds
follows it, and on well-formed texts the limit never cuts it short (`expand_eq_ok_iff`). A part of a
sentence can be expanded where it stands: if a piece in the place of the leftmost placeholder
expands to some sentences, the whole expands to what it expands to with each of these in that place
(`Expands.in_place`).
-/

namespace IntentModel

variable {lists : ValueLists} {template sentence : Text} {results : List Text}

/-- The sentences that a sentence expands to. -/
inductive Expands (lists : ValueLists) : Text → List Text → Prop
  | done {sentence : Text} : sentence.leftmostPlaceholder? = none → Expands lists sentence [sentence]
  | fill {sentence name : Text} {values : List Text} (result : Text → List Text) :
      sentence.leftmostPlaceholder? = some name → lists.get? name = some values →
      lists.leadsBack name = false →
      (∀ value ∈ values, Expands lists (sentence.fill name value) (result value)) →
      Expands lists sentence (values.flatMap result)

/-- An expansion that succeeds has nothing to fill in, or it fills in its leftmost placeholder and
succeeds for each value. -/
theorem cases_of_expandWithin {limit : Nat}
    (run : expandWithin lists template limit sentence = .ok results) :
    sentence.leftmostPlaceholder? = none ∧ results = [sentence] ∨
      ∃ name values less, ∃ result : Text → List Text,
        sentence.leftmostPlaceholder? = some name ∧ lists.get? name = some values ∧
        lists.leadsBack name = false ∧ limit = less + 1 ∧ results = values.flatMap result ∧
        ∀ value ∈ values,
          expandWithin lists template less (sentence.fill name value) = .ok (result value) := by
  rw [expandWithin] at run
  cases leftmost : sentence.leftmostPlaceholder? with
  | none =>
    rw [leftmost] at run
    cases run
    exact .inl ⟨rfl, rfl⟩
  | some name =>
    rw [leftmost] at run
    cases declared : lists.get? name with
    | none => simp only [declared, reduceCtorEq] at run
    | some values =>
      simp only [declared] at run
      split_ifs at run with cyclic
      cases limit with
      | zero => cases run
      | succ less =>
        obtain ⟨pieces, ran, final⟩ := bind_eq_ok_iff.mp run
        cases final
        obtain ⟨result, each, rfl⟩ := exists_of_mapM_eq_ok ran
        exact .inr ⟨name, values, less, result, rfl, declared, by simpa using cyclic, rfl,
          (List.flatMap_def ..).symm, each⟩

/-- An expansion that stays within a limit is an expansion. -/
theorem expands_of_expandWithin {limit : Nat}
    (run : expandWithin lists template limit sentence = .ok results) :
    Expands lists sentence results := by
  induction limit generalizing sentence results with
  | zero =>
    rcases cases_of_expandWithin run with ⟨finished, rfl⟩ | ⟨_, _, _, _, _, _, _, fewer, _⟩
    · exact .done finished
    · cases fewer
  | succ limit ih =>
    rcases cases_of_expandWithin run with
      ⟨finished, rfl⟩ | ⟨name, values, less, result, leftmost, declared, cleared, fewer, rfl, each⟩
    · exact .done finished
    · cases fewer
      exact .fill result leftmost declared cleared fun value choice => ih (each value choice)

/-- The leftmost placeholder of a well-formed text has a proper name. -/
theorem Text.WellFormed.isName_of_leftmost (_ : sentence.WellFormed) {name : Text}
    (leftmost : sentence.leftmostPlaceholder? = some name) :
    name ∈ sentence.references ∧ Placeholder.IsName name :=
  have member := Text.mem_references_of_leftmost leftmost
  ⟨member, Text.isName_of_mem_references member⟩

/-- A limit that is not below the weight of a sentence does not cut its expansion short. -/
theorem Expands.expandWithin_eq_ok (expansion : Expands lists sentence results)
    (formedLists : lists.WellFormed) (formed : sentence.WellFormed) {limit : Nat}
    (light : lists.weight sentence ≤ limit) :
    expandWithin lists template limit sentence = .ok results := by
  induction expansion generalizing limit with
  | done finished => rw [expandWithin, finished]
  | @fill sentence name values result leftmost declared cleared _ ih =>
    obtain ⟨member, valid⟩ := formed.isName_of_leftmost leftmost
    have positive : 0 < lists.weight sentence := ValueLists.weight_pos
      ((ValueLists.mem_listed sentence name).mpr ⟨member, ValueLists.mem_names_of_get? declared⟩)
    obtain ⟨limit, rfl⟩ : ∃ less, limit = less + 1 := ⟨limit - 1, by omega⟩
    have each : ∀ value ∈ values,
        expandWithin lists template limit (sentence.fill name value) = .ok (result value) := by
      intro value choice
      have lighter := ValueLists.weight_fill_lt formed formedLists member declared choice
        (ValueLists.not_transGen_of_leadsBack cleared)
      exact ih value choice (formed.fill valid (formedLists name values declared value choice))
        (by omega)
    rw [expandWithin, leftmost]
    simp only [declared, cleared, Bool.false_eq_true, if_false]
    exact bind_eq_ok_iff.mpr ⟨values.map result, mapM_eq_ok each, rfl⟩

/-- On well-formed texts the expansion computes `Expands`. -/
theorem expand_eq_ok_iff (formedLists : lists.WellFormed) (formed : template.WellFormed) :
    expand template lists = .ok results ↔ Expands lists template results :=
  ⟨expands_of_expandWithin, fun expansion =>
    expansion.expandWithin_eq_ok formedLists formed (lists.weight_le_replacementLimit template)⟩

namespace Expands

/-- Nothing is left to fill in when an expansion ends. -/
theorem finished (expansion : Expands lists sentence results) (formedLists : lists.WellFormed)
    (formed : sentence.WellFormed) :
    ∀ result ∈ results, result.WellFormed ∧ result.references = [] := by
  induction expansion with
  | done finished =>
    simpa using And.intro formed (Text.leftmostPlaceholder?_eq_none_iff.mp finished)
  | @fill sentence name values result leftmost declared _ _ ih =>
    obtain ⟨-, valid⟩ := formed.isName_of_leftmost leftmost
    intro final member
    obtain ⟨value, choice, among⟩ := List.mem_flatMap.mp member
    exact ih value choice (formed.fill valid (formedLists name values declared value choice))
      final among

/-- A piece in the place of the leftmost placeholder expands there as it does alone, if it does not
lead to the other placeholders of the sentence. -/
theorem in_place {name piece : Text} {pieces : List Text} {result : Text → List Text}
    (expansion : Expands lists piece pieces) (formedLists : lists.WellFormed)
    (formed : sentence.WellFormed) (formedPiece : piece.WellFormed)
    (leftmost : sentence.leftmostPlaceholder? = some name)
    (apart : ∀ source ∈ piece.references, ∀ target,
      Relation.ReflTransGen lists.RefersTo source target → target ∈ sentence.references →
        target = name)
    (rest : ∀ final ∈ pieces, Expands lists (sentence.fill name final) (result final)) :
    Expands lists (sentence.fill name piece) (pieces.flatMap result) := by
  obtain ⟨-, valid⟩ := formed.isName_of_leftmost leftmost
  induction expansion with
  | done finished => simpa using rest
  | @fill piece inner values inside first declared cleared _ ih =>
    obtain ⟨member, validInner⟩ := formedPiece.isName_of_leftmost first
    rw [List.flatMap_assoc]
    refine .fill _ ?_ declared cleared fun value choice => ?_
    · -- the text before the leftmost placeholder refers to nothing, so the piece comes first
      rw [Text.leftmostPlaceholder?_eq_head?] at leftmost first ⊢
      obtain ⟨behind, split⟩ := List.head?_eq_some_iff.mp leftmost
      rw [formed.references_fill valid formedPiece, split, List.flatMap_cons, if_pos rfl,
        List.head?_append, first, Option.some_or]
    · have formedValue := formedLists inner values declared value choice
      rw [formed.fill_fill valid validInner formedPiece (apart inner member inner .refl)]
      refine ih value choice (formedPiece.fill validInner formedValue) ?_ ?_
      · intro source among target path place
        rw [formedPiece.mem_references_fill validInner formedValue] at among
        rcases among with ⟨old, -⟩ | ⟨-, new⟩
        · exact apart source old target path place
        · have refers := ValueLists.refersTo_iff.mpr ⟨values, declared, value, choice, new⟩
          exact apart inner member target (path.head refers) place
      · intro final among
        exact rest final (List.mem_flatMap.mpr ⟨value, choice, among⟩)

end Expands
end IntentModel
