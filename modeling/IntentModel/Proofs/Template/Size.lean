import IntentModel.Proofs.Template.Courses
import Mathlib.Algebra.BigOperators.Group.Multiset.Basic
import Mathlib.Algebra.Order.BigOperators.Group.List

/-! # The size of an expansion

An expansion has as many sentences as its placeholders have courses. Where no placeholder leads to a later
one, each is filled in with all its own courses, and the size is the product. A placeholder that leads to a
later one fills that in on some of its courses, and then nothing is left to choose there
(`length_courses_le_prod`).

Placeholders that do not lead to one another can change places (`length_courses_swap`). Two orders of the
same placeholders are therefore alike as long as those of which one leads to the other stand in the same
order in both (`Rearranged`): the first placeholder of the one can go to the front of the other.
-/

namespace IntentModel

variable {lists : ValueLists} {name : Text} {names others done : List Text}

/-- In a list without repetitions, two items do not stand in both orders. -/
theorem not_sublist_swapped {first second : Text} (nodup : names.Nodup)
    (ahead : [first, second].Sublist names) : ¬ [second, first].Sublist names := by
  induction names with
  | nil => cases ahead
  | cons name names ih =>
    obtain ⟨fresh, rest⟩ := List.nodup_cons.mp nodup
    rw [List.cons_sublist_cons', List.singleton_sublist] at ahead ⊢
    rintro (later | ⟨rfl, late⟩)
    · rcases ahead with early | ⟨rfl, -⟩
      · exact ih rest early later
      · exact fresh (later.subset (by simp))
    · rcases ahead with early | ⟨rfl, early⟩
      · exact fresh (early.subset (by simp))
      · exact fresh early

theorem pair_sublist_remaining {first second : Text} :
    [first, second].Sublist (remaining names done) ↔
      [first, second].Sublist names ∧ first ∉ done ∧ second ∉ done := by
  constructor
  · intro inside
    have waits : ∀ other ∈ [first, second], other ∉ done := fun other among =>
      (mem_remaining.mp (inside.subset among)).2
    exact ⟨inside.trans List.filter_sublist, waits first (by simp), waits second (by simp)⟩
  · rintro ⟨inside, one, two⟩
    have kept := inside.filter fun name => !done.contains name
    rwa [List.filter_eq_self.mpr (by simp [one, two])] at kept

theorem length_remaining_le (names done : List Text) : (remaining names done).length ≤ names.length :=
  List.length_filter_le ..

theorem prod_remaining_le (factor : Text → ℕ) (positive : ∀ name ∈ done, 0 < factor name) :
    ((remaining names done).map factor).prod ≤ (names.map factor).prod := by
  induction names with
  | nil => exact Nat.le_refl _
  | cons name names ih =>
    rw [List.map_cons, List.prod_cons]
    by_cases finished : name ∈ done
    · rw [remaining_cons_of_mem finished]
      exact ih.trans (Nat.le_mul_of_pos_left _ (positive name finished))
    · have waits : remaining (name :: names) done = name :: remaining names done := by
        simp [remaining, finished]
      rw [waits, List.map_cons, List.prod_cons]
      exact Nat.mul_le_mul_left _ ih

namespace ValueLists

/-! ## Placeholders in another order -/

theorem not_reflTransGen {source target : Text} (different : source ≠ target)
    (apart : ¬ Relation.TransGen lists.RefersTo source target) :
    ¬ Relation.ReflTransGen lists.RefersTo source target := by
  intro path
  rcases Relation.reflTransGen_iff_eq_or_transGen.mp path with same | leads
  · exact different same.symm
  · exact apart leads

theorem length_courses_append (names more : List Text) :
    (lists.courses (names ++ more)).length =
      ((lists.courses names).map fun course =>
        (lists.courses (remaining more course)).length).sum := by
  simp only [courses_append, List.length_flatMap, List.length_map]

/-- Placeholders that are not led to by those before them keep all their own courses. -/
theorem length_courses_apart {front behind : List Text} (rest : List Text)
    (apart : ∀ source ∈ front, ∀ target ∈ behind,
      ¬ Relation.ReflTransGen lists.RefersTo source target) :
    (lists.courses (front ++ (behind ++ rest))).length =
      ((lists.courses front).map fun course =>
        ((lists.courses behind).map fun next =>
          (lists.courses (remaining rest (course ++ next))).length).sum).sum := by
  rw [length_courses_append]
  refine congrArg List.sum (List.map_congr_left fun course member => ?_)
  have kept : remaining behind course = behind := remaining_eq_self fun target waits done => by
    obtain ⟨source, among, path⟩ := (mem_courses_iff.mp member).exists_source target done
    exact apart source among target waits path
  simp only [remaining_append, kept, length_courses_append, remaining_remaining]

/-- Placeholders of which none leads to one of the others can change places with these. -/
theorem length_courses_swap {front behind : List Text} (rest : List Text)
    (apart : ∀ first ∈ front, ∀ second ∈ behind,
      ¬ Relation.ReflTransGen lists.RefersTo first second ∧
        ¬ Relation.ReflTransGen lists.RefersTo second first) :
    (lists.courses (front ++ (behind ++ rest))).length =
      (lists.courses (behind ++ (front ++ rest))).length := by
  rw [length_courses_apart rest fun first among second waits => (apart first among second waits).1,
    length_courses_apart rest fun second among first waits => (apart first waits second among).2]
  have exchanged := Multiset.sum_map_sum_map (lists.courses front : Multiset (List Text))
    (lists.courses behind : Multiset (List Text))
    (f := fun course next => (lists.courses (remaining rest (course ++ next))).length)
  simp only [Multiset.map_coe, Multiset.sum_coe] at exchanged
  rw [exchanged]
  refine congrArg List.sum (List.map_congr_left fun next _ => ?_)
  refine congrArg List.sum (List.map_congr_left fun course _ => ?_)
  have same : remaining rest (course ++ next) = remaining rest (next ++ course) :=
    remaining_congr fun other => by simp [or_comm]
  rw [same]

/-- The same placeholders, where those of which one leads to the other stand in the same order. -/
structure Rearranged (lists : ValueLists) (names others : List Text) : Prop where
  nodup : names.Nodup
  nodupOthers : others.Nodup
  mem_iff : ∀ name, name ∈ names ↔ name ∈ others
  inOrder : ∀ first second, Relation.TransGen lists.RefersTo first second →
    ([first, second].Sublist names ↔ [first, second].Sublist others)

namespace Rearranged

theorem without (same : lists.Rearranged names others) (done : List Text) :
    lists.Rearranged (remaining names done) (remaining others done) where
  nodup := same.nodup.filter _
  nodupOthers := same.nodupOthers.filter _
  mem_iff name := by simp [same.mem_iff name]
  inOrder first second leads := by
    rw [pair_sublist_remaining, pair_sublist_remaining, same.inOrder first second leads]

/-- What stands before a placeholder that is the first one of the others is unrelated to it. -/
theorem apart {before after : List Text}
    (same : lists.Rearranged (name :: names) (before ++ name :: after)) :
    ∀ first ∈ before, ∀ second ∈ [name],
      ¬ Relation.ReflTransGen lists.RefersTo first second ∧
        ¬ Relation.ReflTransGen lists.RefersTo second first := by
  intro first early second only
  rw [List.mem_singleton] at only
  subst only
  have different : first ≠ second := fun equal =>
    (List.nodup_append.mp same.nodupOthers).2.2 first early second (List.mem_cons_self ..) equal
  have late : first ∈ names :=
    ((List.mem_cons.mp ((same.mem_iff first).mpr (by simp [early])))).resolve_left different
  have ahead : [second, first].Sublist (second :: names) :=
    (List.singleton_sublist.mpr late).cons_cons second
  have behind : [first, second].Sublist (before ++ second :: after) :=
    (List.singleton_sublist.mpr early).append (List.singleton_sublist.mpr (List.mem_cons_self ..))
  constructor
  · apply not_reflTransGen different
    intro leads
    exact not_sublist_swapped same.nodup ahead ((same.inOrder first second leads).mpr behind)
  · apply not_reflTransGen different.symm
    intro leads
    exact not_sublist_swapped same.nodupOthers behind ((same.inOrder second first leads).mp ahead)

/-- Both have as many courses. -/
theorem length_courses_eq (same : lists.Rearranged names others) :
    (lists.courses names).length = (lists.courses others).length := by
  -- what is left behind a course of the first placeholder is shorter, but no tail of the list
  induction size : names.length using Nat.strongRecOn generalizing names others with
  | ind size ih =>
    cases names with
    | nil =>
      have nothing : others = [] :=
        List.eq_nil_iff_forall_not_mem.mpr fun name => by simp [← same.mem_iff name]
      rw [nothing]
    | cons name names =>
      obtain ⟨before, after, rfl⟩ :=
        List.append_of_mem ((same.mem_iff name).mp (List.mem_cons_self ..))
      calc (lists.courses ([name] ++ names)).length
          = ((lists.courses [name]).map fun course =>
              (lists.courses (remaining names course)).length).sum :=
            length_courses_append [name] names
        _ = ((lists.courses [name]).map fun course =>
              (lists.courses (remaining (before ++ after) course)).length).sum := by
            refine congrArg List.sum (List.map_congr_left fun course member => ?_)
            have done := (mem_courses_iff.mp member).fills name (List.mem_singleton_self name)
            have left := same.without course
            rw [remaining_cons_of_mem done, remaining_append, remaining_cons_of_mem done,
              ← remaining_append] at left
            have shorter := length_remaining_le names course
            rw [List.length_cons] at size
            exact ih _ (by omega) left rfl
        _ = (lists.courses ([name] ++ (before ++ after))).length :=
            (length_courses_append [name] (before ++ after)).symm
        _ = (lists.courses (before ++ name :: after)).length :=
            (length_courses_swap after same.apart).symm

end Rearranged

/-! ## The product -/

/-- Where no placeholder leads to a later one, each has all its own courses. -/
theorem length_courses_eq_prod (nodup : names.Nodup)
    (apart : names.Pairwise fun earlier later => ¬ Relation.TransGen lists.RefersTo earlier later) :
    (lists.courses names).length =
      (names.map fun name => (lists.courses [name]).length).prod := by
  induction names with
  | nil => rw [courses_nil, List.length_singleton, List.map_nil, List.prod_nil]
  | cons name names ih =>
    obtain ⟨fresh, different⟩ := List.nodup_cons.mp nodup
    obtain ⟨first, others⟩ := List.pairwise_cons.mp apart
    have unreached : ∀ source ∈ [name], ∀ target ∈ names,
        ¬ Relation.ReflTransGen lists.RefersTo source target := by
      intro source only target later
      rw [List.mem_singleton] at only
      subst only
      exact not_reflTransGen (fun equal => fresh (equal ▸ later)) (first target later)
    have split := length_courses_apart [] unreached
    simpa [remaining, courses_nil, ih different others] using split

/-- A placeholder that is filled in on the way drops out of the product, so there are never more courses
than that. -/
theorem length_courses_le_prod (lists : ValueLists) (names : List Text) :
    (lists.courses names).length ≤
      (names.map fun name => (lists.courses [name]).length).prod := by
  induction size : names.length using Nat.strongRecOn generalizing names with
  | ind size ih =>
    cases names with
    | nil => rw [courses_nil, List.length_singleton, List.map_nil, List.prod_nil]
    | cons name names =>
      have each : ∀ count ∈ (lists.courses [name]).map fun course =>
          (lists.courses (remaining names course)).length,
          count ≤ (names.map fun name => (lists.courses [name]).length).prod := by
        intro count among
        obtain ⟨course, member, rfl⟩ := List.mem_map.mp among
        have shorter := length_remaining_le names course
        rw [List.length_cons] at size
        refine (ih _ (by omega) _ rfl).trans (prod_remaining_le _ fun other done => ?_)
        obtain ⟨own, alone⟩ := (mem_courses_iff.mp member).exists_alone other done
        exact List.length_pos_of_mem (mem_courses_iff.mpr alone)
      calc (lists.courses ([name] ++ names)).length
          = ((lists.courses [name]).map fun course =>
              (lists.courses (remaining names course)).length).sum :=
            length_courses_append [name] names
        _ ≤ (lists.courses [name]).length *
              (names.map fun name => (lists.courses [name]).length).prod := by
            have bound := List.sum_le_card_nsmul _ _ each
            rw [List.length_map] at bound
            exact bound
        _ = ((name :: names).map fun name => (lists.courses [name]).length).prod := by
            rw [List.map_cons, List.prod_cons]

end ValueLists

/-- The size of an expansion does not depend on where its placeholders stand, or on how often, as long as
placeholders of which one leads to the other keep their order. It is not greater than the product of the
sizes to which the placeholders expand alone, and it is this product if no placeholder leads to a later
one. -/
theorem length_expand_eq {template : Text} {results : List Text} (formedLists : lists.WellFormed)
    (formed : template.WellFormed) (expanded : expand template lists = .ok results) :
    (∀ (other : Text) (otherResults : List Text), other.WellFormed →
      expand other lists = .ok otherResults →
      (∀ name, name ∈ template.placeholders ↔ name ∈ other.placeholders) →
      (∀ first second, Relation.TransGen lists.RefersTo first second →
        ([first, second].Sublist template.placeholders ↔ [first, second].Sublist other.placeholders)) →
      results.length = otherResults.length) ∧
    ∀ expansions : Text → List Text,
      (∀ name ∈ template.placeholders,
        expand (Placeholder.text name) lists = .ok (expansions name)) →
      results.length ≤ (template.placeholders.map fun name => (expansions name).length).prod ∧
      (template.placeholders.Pairwise
          (fun earlier later => ¬ Relation.TransGen lists.RefersTo earlier later) →
        results.length = (template.placeholders.map fun name => (expansions name).length).prod) := by
  have size := ((expand_eq_ok_iff formedLists formed).mp expanded).length_eq formedLists formed
  have nodup := template.nodup_placeholders
  constructor
  · intro other otherResults formedOther expandedOther same inOrder
    have sizeOther :=
      ((expand_eq_ok_iff formedLists formedOther).mp expandedOther).length_eq formedLists formedOther
    have rearranged : lists.Rearranged template.placeholders other.placeholders :=
      ⟨nodup, other.nodup_placeholders, same, inOrder⟩
    rw [size, sizeOther, rearranged.length_courses_eq]
  · intro expansions single
    have sizes : (template.placeholders.map fun name => (expansions name).length) =
        template.placeholders.map fun name => (lists.courses [name]).length := by
      apply List.map_congr_left
      intro name member
      have valid := formed.isName_of_mem_references name (Text.mem_placeholders.mp member)
      have own := (expand_eq_ok_iff formedLists (.single valid)).mp (single name member)
      rw [own.length_eq formedLists (.single valid), Text.placeholders_text valid]
    rw [size, sizes]
    exact ⟨lists.length_courses_le_prod _, ValueLists.length_courses_eq_prod nodup⟩

/-- Lists of which one refers to another one, and a third one. -/
def linkedLists : ValueLists :=
  [("a", ["$\x7bb\x7d"]), ("b", ["x", "y"]), ("c", ["u", "v"])]

theorem wellFormed_linkedLists : linkedLists.WellFormed :=
  ValueLists.forall_values (by decide)

theorem eq_of_leads_linkedLists {first second : Text}
    (leads : Relation.TransGen linkedLists.RefersTo first second) :
    first = [.char 'a'] ∧ second = [.char 'b'] := by
  have step : ∀ entry ∈ linkedLists, ∀ value ∈ entry.2, ∀ next ∈ value.references,
      entry.1 = [.char 'a'] ∧ next = [.char 'b'] := by decide
  have only : ∀ name next, linkedLists.RefersTo name next → name = [.char 'a'] ∧ next = [.char 'b'] := by
    intro name next refers
    obtain ⟨values, declared, value, choice, inside⟩ := ValueLists.refersTo_iff.mp refers
    exact step _ (ValueLists.mem_of_get? declared) value choice next inside
  cases leads with
  | single refers => exact only first second refers
  | tail path refers =>
    obtain ⟨middle, -, last⟩ := Relation.TransGen.tail'_iff.mp path
    have here := (only _ _ last).2
    have there := (only _ _ refers).1
    exact absurd (here.symm.trans there) (by decide)

/-- Two templates with the third placeholder in different places, and one in which the placeholder that
leads to the other comes last. -/
theorem length_expand_eq_linkedLists :
    ∃ results otherResults more : List Text,
      expand "$\x7ba\x7d $\x7bc\x7d $\x7bb\x7d" linkedLists = .ok results ∧
        expand "$\x7bc\x7d $\x7ba\x7d $\x7bb\x7d $\x7bc\x7d" linkedLists = .ok otherResults ∧
        expand "$\x7bb\x7d $\x7ba\x7d" linkedLists = .ok more ∧
        results.length = otherResults.length ∧ results.length ≤ 8 ∧ more.length = 4 := by
  have listed : Text.placeholders "$\x7ba\x7d $\x7bc\x7d $\x7bb\x7d" =
      [[.char 'a'], [.char 'c'], [.char 'b']] := by decide
  have listedOther : Text.placeholders "$\x7bc\x7d $\x7ba\x7d $\x7bb\x7d $\x7bc\x7d" =
      [[.char 'c'], [.char 'a'], [.char 'b']] := by decide
  have listedMore : Text.placeholders "$\x7bb\x7d $\x7ba\x7d" = [[.char 'b'], [.char 'a']] := by decide
  have expanded : expand "$\x7ba\x7d $\x7bc\x7d $\x7bb\x7d" linkedLists =
      .ok ["x u x", "x v x", "y u y", "y v y"] := by decide +kernel
  have expandedOther : expand "$\x7bc\x7d $\x7ba\x7d $\x7bb\x7d $\x7bc\x7d" linkedLists =
      .ok ["u x x u", "u y y u", "v x x v", "v y y v"] := by decide +kernel
  have expandedMore : expand "$\x7bb\x7d $\x7ba\x7d" linkedLists =
      .ok ["x x", "x y", "y x", "y y"] := by decide +kernel
  have sizes := length_expand_eq wellFormed_linkedLists (by decide) expanded
  have sizesMore := length_expand_eq wellFormed_linkedLists (by decide) expandedMore
  refine ⟨_, _, _, expanded, expandedOther, expandedMore,
    sizes.1 _ _ (by decide) expandedOther ?_ ?_, ?_, ?_⟩
  · rw [listed, listedOther]
    exact fun _ => (List.Perm.swap ("c" : Text) "a" ["b"]).mem_iff
  · intro first second leads
    obtain ⟨rfl, rfl⟩ := eq_of_leads_linkedLists leads
    rw [listed, listedOther]
    decide
  · have bound := (sizes.2 (fun name => if name = [.char 'c'] then ["u", "v"] else ["x", "y"])
      (by rw [listed]; decide +kernel)).1
    rwa [listed] at bound
  · have product := (sizesMore.2 (fun _ => ["x", "y"]) (by rw [listedMore]; decide +kernel)).2
    rw [listedMore, List.pairwise_pair] at product
    apply product
    intro leads
    exact absurd (eq_of_leads_linkedLists leads).1 (by decide)

/-- With the placeholder that leads to the other in front there are fewer sentences. -/
theorem size_depends_on_order :
    ¬ ∀ (lists : ValueLists) (template other : Text) (results otherResults : List Text),
      lists.WellFormed → template.WellFormed → other.WellFormed →
      (∀ name, name ∈ template.placeholders ↔ name ∈ other.placeholders) →
      expand template lists = .ok results → expand other lists = .ok otherResults →
      results.length = otherResults.length := by
  intro same
  have listed : Text.placeholders "$\x7ba\x7d $\x7bb\x7d" = [[.char 'a'], [.char 'b']] := by decide
  have listedOther : Text.placeholders "$\x7bb\x7d $\x7ba\x7d" = [[.char 'b'], [.char 'a']] := by decide
  have sizes := same linkedLists "$\x7ba\x7d $\x7bb\x7d" "$\x7bb\x7d $\x7ba\x7d" ["x x", "y y"]
    ["x x", "x y", "y x", "y y"] wellFormed_linkedLists (by decide) (by decide)
    (fun name => by rw [listed, listedOther]; exact (List.Perm.swap ("b" : Text) "a" []).mem_iff)
    (by decide +kernel) (by decide +kernel)
  exact absurd sizes (by decide)

end IntentModel
