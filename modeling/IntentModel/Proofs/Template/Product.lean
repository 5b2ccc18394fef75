import IntentModel.Proofs.Template.Expansion
import IntentModel.Proofs.Template.Placeholders

/-! # Expansion as an ordered product

The expansion replaces the leftmost placeholder of a mixed sentence and goes on. What comes out is
the product of the expansions of the placeholders, the first placeholder varying slowest, as long as
no placeholder leads to a later one. Lists whose values hold no placeholders lead nowhere, so there
it is the product of the lists themselves.
-/

namespace IntentModel

/-- All ways to choose one item from each list; the choice from the first list varies slowest. -/
def choices {α : Type} : List (List α) → List (List α)
  | [] => [[]]
  | options :: rest => options.flatMap fun first => (choices rest).map fun chosen => first :: chosen

/-- The template with each choice of values in place of its placeholders. -/
def Text.product (template : Text) (values : Text → List Text) : List Text :=
  (choices (template.placeholders.map values)).map fun chosen =>
    template.instantiate fun name => (template.placeholders.zip chosen).lookup name

variable {lists : ValueLists} {template name value : Text} {names : List Text}
  {expansions : Text → List Text}

namespace Text

theorem WellFormed.fill_self (formed : WellFormed template) (valid : Placeholder.IsName name) :
    template.fill name (Placeholder.text name) = template := by
  rw [fill_eq_instantiate valid]
  apply formed.instantiate_eq_self
  intro other member
  split_ifs with same
  · rw [same, Option.getD_some]
  · rfl

/-- A value without placeholders can go to its name together with the other values. -/
theorem WellFormed.instantiate_fill (formed : WellFormed template) (formedValue : WellFormed value)
    (closed : value.references = []) (valid : Placeholder.IsName name)
    (value? : Text → Option Text) :
    (template.fill name value).instantiate value? =
      template.instantiate fun other => if other = name then some value else value? other := by
  rw [fill_eq_instantiate valid, formed.instantiate_instantiate]
  · congr 1
    funext other
    split_ifs
    · have untouched : value.instantiate value? = value :=
        formedValue.instantiate_eq_self (by simp [closed])
      simp [untouched]
    · rfl
  · exact wellFormed_of_single formedValue

/-- The product over the first placeholder and the others is the product over the others, for each
value of the first one in turn. -/
theorem WellFormed.product_eq_flatMap (formed : WellFormed template)
    (listed : template.placeholders = name :: names)
    (closed : ∀ value ∈ expansions name, value.WellFormed ∧ value.references = []) :
    template.product expansions =
      (expansions name).flatMap fun value => (template.fill name value).product expansions := by
  obtain ⟨rest, split, -⟩ := exists_references_of_placeholders listed
  have valid := formed.isName_of_mem_references name (by simp [split])
  rw [product, listed, List.map_cons, choices, List.map_flatMap]
  apply List.flatMap_congr
  intro value choice
  obtain ⟨formedValue, free⟩ := closed value choice
  rw [product, formed.placeholders_fill_of_closed formedValue free listed, List.map_map]
  apply List.map_congr_left
  intro chosen _
  rw [Function.comp_apply, formed.instantiate_fill formedValue free valid]
  congr 1
  funext other
  rw [List.zip_cons_cons, List.lookup_cons]
  by_cases same : other = name
  · simp [same]
  · simp [same, beq_eq_false_iff_ne.mpr same]

end Text

/-- The placeholders of a template are expanded one after the other, from left to right. -/
theorem Expands.product (formedLists : lists.WellFormed) (formed : template.WellFormed)
    (listed : template.placeholders = names)
    (apart : names.Pairwise fun earlier later => ¬ Relation.TransGen lists.RefersTo earlier later)
    (single : ∀ name ∈ names, Expands lists (Placeholder.text name) (expansions name)) :
    Expands lists template (template.product expansions) := by
  induction names generalizing template with
  | nil =>
    have closed : template.references = [] := by
      refine List.eq_nil_iff_forall_not_mem.mpr fun name member => ?_
      rw [← Text.mem_placeholders, listed] at member
      exact List.not_mem_nil member
    have itself : template.product expansions = [template] := by
      rw [Text.product, listed, List.map_nil, choices, List.map_singleton,
        formed.instantiate_eq_self (by simp [closed])]
    rw [itself]
    exact .done (Text.leftmostPlaceholder?_eq_none_iff.mpr closed)
  | cons name names ih =>
    obtain ⟨first, others⟩ := List.pairwise_cons.mp apart
    obtain ⟨own, rest⟩ := List.forall_mem_cons.mp single
    obtain ⟨behind, split, -⟩ := Text.exists_references_of_placeholders listed
    have leftmost : template.leftmostPlaceholder? = some name := by
      rw [Text.leftmostPlaceholder?_eq_head?, split, List.head?_cons]
    obtain ⟨-, valid⟩ := formed.isName_of_leftmost leftmost
    have closed := own.finished formedLists (.single valid)
    have reach : ∀ source ∈ (Placeholder.text name).references, ∀ target,
        Relation.ReflTransGen lists.RefersTo source target → target ∈ template.references →
          target = name := by
      intro source among target path place
      rw [Text.references_text valid, List.mem_singleton] at among
      subst among
      rcases Relation.reflTransGen_iff_eq_or_transGen.mp path with same | leads
      · exact same
      · rw [← Text.mem_placeholders, listed] at place
        exact (List.mem_cons.mp place).resolve_right fun later => first target later leads
    have parts : ∀ value ∈ expansions name,
        Expands lists (template.fill name value) ((template.fill name value).product expansions) := by
      intro value choice
      obtain ⟨formedValue, free⟩ := closed value choice
      exact ih (formed.fill valid formedValue) (formed.placeholders_fill_of_closed formedValue free listed)
        others rest
    rw [formed.product_eq_flatMap listed closed]
    have whole := own.in_place formedLists formed (.single valid) leftmost reach parts
    rwa [formed.fill_self valid] at whole

/-- A list whose values hold no placeholders leads nowhere. -/
theorem ValueLists.not_transGen_of_closed {target : Text}
    (closed : ∀ values, lists.get? name = some values → ∀ value ∈ values, value.references = []) :
    ¬ Relation.TransGen lists.RefersTo name target := by
  intro leads
  obtain ⟨next, refers, -⟩ := Relation.TransGen.head'_iff.mp leads
  obtain ⟨values, declared, value, choice, inside⟩ := refersTo_iff.mp refers
  rw [closed values declared value choice] at inside
  exact List.not_mem_nil inside

/-- A list whose values hold no placeholders expands to its values. -/
theorem Expands.declared {values : List Text} (valid : Placeholder.IsName name)
    (declared : lists.get? name = some values) (closed : ∀ value ∈ values, value.references = []) :
    Expands lists (Placeholder.text name) values := by
  have cleared : lists.leadsBack name = false := by
    rw [Bool.eq_false_iff, Ne, ValueLists.leadsBack_iff]
    apply ValueLists.not_transGen_of_closed
    intro found known
    rw [declared] at known
    cases known
    exact closed
  have leftmost : (Placeholder.text name).leftmostPlaceholder? = some name := by
    rw [Text.leftmostPlaceholder?_eq_head?, Text.references_text valid, List.head?_cons]
  have whole : Expands lists (Placeholder.text name) (values.flatMap fun value => [value]) := by
    refine .fill _ leftmost declared cleared fun value choice => ?_
    rw [Text.fill_text valid]
    exact .done (Text.leftmostPlaceholder?_eq_none_iff.mpr (closed value choice))
  rwa [List.flatMap_singleton'] at whole

/-- Expansion is the ordered product of the expansions of the placeholders, if no placeholder leads to
a later one. It is the product of the lists if their values hold no placeholders. -/
theorem expand_eq_product (formedLists : lists.WellFormed) (formed : template.WellFormed) :
    (∀ expansions : Text → List Text,
      template.placeholders.Pairwise
        (fun earlier later => ¬ Relation.TransGen lists.RefersTo earlier later) →
      (∀ name ∈ template.placeholders,
        expand (Placeholder.text name) lists = .ok (expansions name)) →
      expand template lists = .ok (template.product expansions)) ∧
    ∀ values : Text → List Text,
      (∀ name found, lists.get? name = some found → ∀ value ∈ found, value.references = []) →
      (∀ name ∈ template.placeholders, lists.get? name = some (values name)) →
      expand template lists = .ok (template.product values) := by
  have valid : ∀ name ∈ template.placeholders, Placeholder.IsName name := fun name member =>
    formed.isName_of_mem_references name (Text.mem_placeholders.mp member)
  constructor
  · intro expansions apart single
    rw [expand_eq_ok_iff formedLists formed]
    refine .product formedLists formed rfl apart fun name member => ?_
    rw [← expand_eq_ok_iff formedLists (.single (valid name member))]
    exact single name member
  · intro values closed declared
    rw [expand_eq_ok_iff formedLists formed]
    refine .product formedLists formed rfl ?_ fun name member => ?_
    · exact List.pairwise_of_forall fun earlier later =>
        ValueLists.not_transGen_of_closed (closed earlier)
    · exact .declared (valid name member) (declared name member) fun value choice =>
        closed name (values name) (declared name member) value choice

/-- A later placeholder that leads to the earlier one, which stands in two places. -/
theorem expand_eq_product_around :
    expand (Placeholder.text "a" ++ Placeholder.text "b" ++ Placeholder.text "a")
        [("a", ["0", "1"]), ("b", ["2", Placeholder.text "a" ++ "3"])] =
      .ok ["020", "0030", "0130", "121", "1031", "1131"] ∧
    expand (Placeholder.text "a" ++ Placeholder.text "b" ++ Placeholder.text "a")
        [("a", ["0", "1"]), ("b", ["2", "3"])] =
      .ok ["020", "030", "121", "131"] := by
  have listed : Text.placeholders (Placeholder.text "a" ++ Placeholder.text "b" ++
      Placeholder.text "a") = (["a", "b"] : List Text) := by decide
  constructor
  · refine (expand_eq_product (ValueLists.forall_values (by decide)) (by decide)).1
      (fun name => if name = "a" then ["0", "1"] else ["2", "03", "13"]) ?_ ?_
    · rw [listed, List.pairwise_pair]
      apply ValueLists.not_transGen_of_closed
      intro values declared
      cases declared
      decide
    · rw [listed]
      decide
  · refine (expand_eq_product (ValueLists.forall_values (by decide)) (by decide)).2
      (fun name => if name = "a" then ["0", "1"] else ["2", "3"])
      (ValueLists.forall_values (by decide)) ?_
    rw [listed]
    decide

end IntentModel
