import IntentModel.Proofs.Template.Expansion
import IntentModel.Proofs.Template.Placeholders

/-! # Courses of an expansion

On the way to a sentence an expansion fills in one placeholder after the other. A value brings its own
placeholders to the front; one of them that was waiting already is filled in there and not a second time.
The names that are filled in on the way to a sentence are a course. The placeholders of the template alone
determine the courses, and there is one for each sentence (`Expands.length_eq`). A course of some
placeholders is a course of the first ones, followed by one of those that are left then
(`courses_append`).
-/

namespace IntentModel

variable {lists : ValueLists} {name value : Text} {names others : List Text}

namespace ValueLists

theorem load_pendingAfter_lt {values : List Text} (declared : lists.get? name = some values)
    (choice : value ∈ values) (cleared : lists.leadsBack name = false) :
    lists.load ((pendingAfter name value names).toFinset ∩ lists.names) <
      lists.load ((name :: names).toFinset ∩ lists.names) := by
  have among : name ∈ (name :: names).toFinset ∩ lists.names := by
    simp [mem_names_of_get? declared]
  refine load_lt_load among declared choice (not_transGen_of_leadsBack cleared) fun other inside => ?_
  simp only [Finset.mem_inter, List.mem_toFinset, mem_pendingAfter, List.mem_cons, Finset.mem_union,
    Finset.mem_erase, mem_listed] at inside ⊢
  tauto

/-- For each sentence that the placeholders expand to, the names that are filled in on the way to it. A
name without a list, or whose list leads back to itself, is never filled in. -/
def courses (lists : ValueLists) : List Text → List (List Text)
  | [] => [[]]
  | name :: names =>
    match _ : lists.get? name with
    | none => []
    | some values =>
      if _ : lists.leadsBack name = false then
        values.attach.flatMap fun ⟨value, _⟩ =>
          (courses lists (pendingAfter name value names)).map fun course => name :: course
      else []
termination_by names => lists.load (names.toFinset ∩ lists.names)
decreasing_by exact load_pendingAfter_lt ‹_› ‹_› ‹_›

theorem courses_nil (lists : ValueLists) : lists.courses [] = [[]] := by
  rw [courses]

theorem courses_cons {values : List Text} (declared : lists.get? name = some values)
    (cleared : lists.leadsBack name = false) (names : List Text) :
    lists.courses (name :: names) =
      values.flatMap fun value =>
        (lists.courses (pendingAfter name value names)).map fun course => name :: course := by
  rw [courses]
  split
  · rename_i undeclared
    simp [declared] at undeclared
  · rename_i found known
    rw [declared] at known
    cases known
    rw [dif_pos cleared, List.flatMap_subtype fun _ _ => rfl, List.unattach_attach]

theorem courses_cons_of_stuck (stuck : lists.get? name = none ∨ lists.leadsBack name = true)
    (names : List Text) : lists.courses (name :: names) = [] := by
  rw [courses]
  split
  · rfl
  · rename_i declared
    rcases stuck with undeclared | cyclic
    · simp [declared] at undeclared
    · simp [cyclic]

/-- What is shown of placeholders by filling in the first one, unless that cannot be done. -/
theorem induction_on_courses (lists : ValueLists) {motive : List Text → Prop} (nil : motive [])
    (stuck : ∀ name names, lists.get? name = none ∨ lists.leadsBack name = true →
      motive (name :: names))
    (fill : ∀ name names values, lists.get? name = some values → lists.leadsBack name = false →
      (∀ value ∈ values, motive (pendingAfter name value names)) → motive (name :: names))
    (names : List Text) : motive names := by
  induction names using courses.induct lists with
  | case1 => exact nil
  | case2 name names undeclared => exact stuck name names (.inl undeclared)
  | case3 name names values declared cleared ih =>
    exact fill name names values declared cleared fun value choice => ih value choice
  | case4 name names values declared cyclic =>
    exact stuck name names (.inr (by simpa using cyclic))

/-- A course of placeholders fills in the first one with a value and goes on from there. -/
inductive Course (lists : ValueLists) : List Text → List Text → Prop
  | nil : Course lists [] []
  | cons {name value : Text} {names rest values : List Text} : lists.get? name = some values →
      lists.leadsBack name = false → value ∈ values →
      Course lists (pendingAfter name value names) rest → Course lists (name :: names) (name :: rest)

theorem mem_courses_iff {course : List Text} :
    course ∈ lists.courses names ↔ lists.Course names course := by
  constructor
  · intro member
    induction names using induction_on_courses lists generalizing course with
    | nil =>
      rw [courses_nil, List.mem_singleton] at member
      subst member
      exact .nil
    | stuck name names stuck =>
      rw [courses_cons_of_stuck stuck] at member
      cases member
    | fill name names values declared cleared ih =>
      rw [courses_cons declared cleared, List.mem_flatMap] at member
      obtain ⟨value, choice, among⟩ := member
      obtain ⟨rest, onward, rfl⟩ := List.mem_map.mp among
      exact .cons declared cleared choice (ih value choice onward)
  · intro way
    induction way with
    | nil => exact courses_nil lists ▸ List.mem_singleton_self []
    | cons declared cleared choice _ ih =>
      rw [courses_cons declared cleared, List.mem_flatMap]
      exact ⟨_, choice, List.mem_map_of_mem ih⟩

/-- A course fills in all placeholders. -/
theorem Course.fills {course : List Text} (way : lists.Course names course) :
    ∀ name ∈ names, name ∈ course := by
  induction way with
  | nil => exact fun _ absent => absent
  | @cons name value names rest _ _ _ _ _ ih =>
    intro other among
    by_cases same : other = name
    · exact same ▸ List.mem_cons_self ..
    · have waits := (List.mem_cons.mp among).resolve_left same
      exact List.mem_cons_of_mem _ (ih other (mem_pendingAfter.mpr (.inr ⟨waits, same⟩)))

/-- A course fills in nothing but what the placeholders lead to. -/
theorem Course.exists_source {course : List Text} (way : lists.Course names course) :
    ∀ name ∈ course, ∃ source ∈ names, Relation.ReflTransGen lists.RefersTo source name := by
  induction way with
  | nil => exact fun _ absent => absurd absent List.not_mem_nil
  | @cons name value names rest values declared _ choice _ ih =>
    intro other among
    rcases List.mem_cons.mp among with rfl | later
    · exact ⟨other, List.mem_cons_self .., .refl⟩
    · obtain ⟨source, waits, path⟩ := ih other later
      rcases mem_pendingAfter.mp waits with inside | ⟨waits, -⟩
      · have refers := refersTo_iff.mpr ⟨values, declared, value, choice, inside⟩
        exact ⟨name, List.mem_cons_self .., path.head refers⟩
      · exact ⟨source, List.mem_cons_of_mem _ waits, path⟩

/-- Placeholders behind others wait until these are filled in; what is left of them then comes next. -/
theorem courses_append (names more : List Text) :
    lists.courses (names ++ more) =
      (lists.courses names).flatMap fun course =>
        (lists.courses (remaining more course)).map fun rest => course ++ rest := by
  induction names using induction_on_courses lists generalizing more with
  | nil => simp [courses_nil, remaining]
  | stuck name names stuck =>
    rw [List.cons_append, courses_cons_of_stuck stuck, courses_cons_of_stuck stuck, List.flatMap_nil]
  | fill name names values declared cleared ih =>
    rw [List.cons_append, courses_cons declared cleared, courses_cons declared cleared,
      List.flatMap_assoc]
    apply List.flatMap_congr
    intro value choice
    rw [pendingAfter_append, ih value choice, List.map_flatMap, List.flatMap_map]
    apply List.flatMap_congr
    intro course member
    have done : remaining (remaining more (name :: value.references)) course =
        remaining more (name :: course) := by
      rw [remaining_remaining]
      apply remaining_congr
      intro other
      have early : other ∈ value.references → other ∈ course := fun inside =>
        (mem_courses_iff.mp member).fills other (mem_pendingAfter.mpr (.inl inside))
      simp only [List.mem_append, List.mem_cons]
      tauto
    simp [done]

/-- What is filled in on some course can be filled in alone. -/
theorem Course.exists_alone {course : List Text} (way : lists.Course names course) :
    ∀ name ∈ course, ∃ own, lists.Course [name] own := by
  induction way with
  | nil => exact fun _ absent => absurd absent List.not_mem_nil
  | @cons name value names rest _ declared cleared choice onward ih =>
    refine List.forall_mem_cons.mpr ⟨?_, ih⟩
    rw [pendingAfter, ← mem_courses_iff, courses_append, List.mem_flatMap] at onward
    obtain ⟨inner, among, -⟩ := onward
    have alone : pendingAfter name value [] = value.placeholders := by
      rw [pendingAfter, remaining, List.filter_nil, List.append_nil]
    refine ⟨name :: inner, .cons declared cleared choice ?_⟩
    rw [alone]
    exact mem_courses_iff.mp among

end ValueLists

open ValueLists

/-- An expansion has one sentence for each course of its placeholders. -/
theorem Expands.length_eq {sentence : Text} {results : List Text}
    (expansion : Expands lists sentence results) (formedLists : lists.WellFormed)
    (formed : sentence.WellFormed) :
    results.length = (lists.courses sentence.placeholders).length := by
  induction expansion with
  | @done sentence finished =>
    have nothing : sentence.placeholders = [] := by
      rw [Text.placeholders, Text.leftmostPlaceholder?_eq_none_iff.mp finished, List.eraseDups_nil]
    rw [nothing, courses_nil, List.length_singleton, List.length_singleton]
  | @fill sentence name values result leftmost declared cleared _ ih =>
    obtain ⟨names, listed⟩ := Text.exists_placeholders_of_leftmost leftmost
    obtain ⟨-, valid⟩ := formed.isName_of_leftmost leftmost
    rw [listed, courses_cons declared cleared, List.length_flatMap, List.length_flatMap]
    refine congrArg List.sum (List.map_congr_left fun value choice => ?_)
    have formedValue := formedLists name values declared value choice
    rw [ih value choice (formed.fill valid formedValue), List.length_map,
      formed.placeholders_fill formedValue listed]

end IntentModel
