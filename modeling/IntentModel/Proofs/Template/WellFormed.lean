import IntentModel.Template
import IntentModel.Proofs.Text.Cut
import IntentModel.Proofs.Text.Substitution
import Mathlib.Data.List.TakeWhile
import Mathlib.Tactic.SplitIfs

/-! # Well-formed templates

A template is well formed when dollar signs and braces stand in complete placeholders only. Such a
template is free text and placeholders in turn, and its placeholders can be given values one by one or
all at once: `instantiate_instantiate` turns two rounds of values into one, so the order of the
rounds does not matter as long as they agree in the end.
-/

namespace IntentModel

namespace Placeholder

/-- A name is not empty and holds no brace. -/
structure IsName (name : Text) : Prop where
  ne_nil : name ≠ []
  chars : ∀ c ∈ name, isNameChar c = true

/-- The characters of free text. -/
def isPlainChar (c : CodePoint) : Bool :=
  c != '$' && isNameChar c

variable {name : Text}

theorem text_append (name rest : Text) :
    text name ++ rest = .char '$' :: .char '{' :: (name ++ .char '}' :: rest) := by
  simp [text]

theorem read?_text (valid : IsName name) (rest : Text) :
    read? (text name ++ rest) = some name := by
  have brace : isNameChar '}' = false := by decide
  rw [text_append, read?]
  simp [List.takeWhile_append_of_pos valid.chars, List.dropWhile_append_of_pos valid.chars, brace,
    valid.ne_nil]

theorem of_read? {text : Text} (found : read? text = some name) :
    IsName name ∧ ∃ rest, text = Placeholder.text name ++ rest := by
  rw [read?.eq_def] at found
  split at found
  · next body =>
    dsimp only at found
    split at found
    · next rest behind =>
      split_ifs at found with empty
      cases found
      refine ⟨⟨by simpa using empty, fun c => List.mem_takeWhile_imp⟩, rest, ?_⟩
      rw [text_append, ← behind, List.takeWhile_append_dropWhile]
    · cases found
  · cases found

theorem read?_of_ne {c : CodePoint} (other : c ≠ '$') (text : Text) : read? (c :: text) = none := by
  rw [read?.eq_def]
  split
  · next equal =>
    cases equal
    exact (other rfl).elim
  · rfl

/-- No placeholder begins inside another one. -/
theorem read?_inside (valid : IsName name) {before behind : Text} {c : CodePoint}
    (whole : .char '{' :: (name ++ [.char '}']) = before ++ c :: behind) (rest : Text) :
    read? (c :: behind ++ rest) = none := by
  have noBrace : .char '{' ∉ name := fun inside => absurd (valid.chars _ inside) (by decide)
  refine Option.eq_none_iff_forall_ne_some.mpr fun other found => ?_
  obtain ⟨-, more, written⟩ := of_read? found
  rw [text_append, List.cons_append, List.cons.injEq] at written
  obtain ⟨rfl, follows⟩ := written
  cases behind with
  | nil =>
    have last := congrArg List.getLast? whole
    rw [← List.cons_append, List.getLast?_concat, List.getLast?_concat] at last
    exact absurd last (by decide)
  | cons d behind =>
    obtain ⟨rfl, -⟩ := List.cons.inj follows
    cases before with
    | nil => simp at whole
    | cons b before =>
      have inside : .char '{' ∈ name ++ [.char '}'] := by
        rw [(List.cons.inj whole).2]
        simp
      simp [noBrace] at inside

end Placeholder

namespace Text

open Placeholder

/-- Free text and complete placeholders in turn. -/
inductive WellFormed : Text → Prop
  | nil : WellFormed []
  | plain {c : CodePoint} {rest : Text} : isPlainChar c = true → WellFormed rest → WellFormed (c :: rest)
  | place {name rest : Text} : IsName name → WellFormed rest →
      WellFormed (Placeholder.text name ++ rest)

/-- Any text falls into placeholders and characters at which none begins. -/
@[elab_as_elim]
theorem induction_on_places {motive : Text → Prop} (text : Text) (nil : motive [])
    (kept : ∀ c rest, read? (c :: rest) = none → motive rest → motive (c :: rest))
    (place : ∀ name rest, IsName name → motive rest → motive (Placeholder.text name ++ rest)) :
    motive text := by
  induction size : text.length using Nat.strongRecOn generalizing text with
  | ind size ih =>
    cases text with
    | nil => exact nil
    | cons c rest =>
      cases reading : read? (c :: rest) with
      | none => exact kept c rest reading (ih rest.length (by simp [← size]) rest rfl)
      | some name =>
        obtain ⟨valid, behind, written⟩ := of_read? reading
        have positive : 0 < (Placeholder.text name).length := by simp [Placeholder.text]
        rw [written, List.length_append] at size
        rw [written]
        exact place name behind valid (ih behind.length (by omega) behind rfl)

/-- The template with values in place of all placeholders that have one. -/
def instantiate (template : Text) (value? : Text → Option Text) : Text :=
  template.substitute fun rest => (read? rest).bind fun name =>
    (value? name).map fun value => ((Placeholder.text name).length, value)

variable {template : Text}

theorem WellFormed.append (formed : WellFormed template) {rest : Text} (formedRest : WellFormed rest) :
    WellFormed (template ++ rest) := by
  induction formed with
  | nil => exact formedRest
  | plain allowed _ ih => exact .plain allowed ih
  | place valid _ ih =>
    rw [List.append_assoc]
    exact .place valid ih

theorem WellFormed.single {name : Text} (valid : IsName name) : WellFormed (Placeholder.text name) := by
  simpa using WellFormed.place valid .nil

theorem read?_of_plain {c : CodePoint} (allowed : isPlainChar c = true) (rest : Text) :
    read? (c :: rest) = none := by
  apply read?_of_ne
  rintro rfl
  exact absurd allowed (by decide)

/-! ## References -/

theorem references_cons_none {c : CodePoint} {text : Text} (nothing : read? (c :: text) = none) :
    references (c :: text) = references text := by
  rw [references, nothing]

theorem references_append_kept {front rest : Text}
    (nothing : ∀ before c behind, front = before ++ c :: behind → read? (c :: behind ++ rest) = none) :
    references (front ++ rest) = references rest := by
  induction front with
  | nil => rfl
  | cons c front ih =>
    have first : read? (c :: (front ++ rest)) = none := nothing [] c front rfl
    rw [List.cons_append, references_cons_none first]
    apply ih
    intro before d behind split
    exact nothing (c :: before) d behind (by rw [split, List.cons_append])

/-- A placeholder is a reference of its own. -/
theorem references_place {name : Text} (valid : IsName name) (rest : Text) :
    references (Placeholder.text name ++ rest) = name :: references rest := by
  have found := read?_text valid rest
  have inner : references (.char '{' :: (name ++ [.char '}']) ++ rest) = references rest :=
    references_append_kept fun _ _ _ split => read?_inside valid split rest
  have whole : Placeholder.text name ++ rest = .char '$' :: (.char '{' :: (name ++ [.char '}']) ++ rest) := by
    simp [Placeholder.text]
  rw [whole] at found ⊢
  rw [references, found, inner]

theorem references_text {name : Text} (valid : IsName name) :
    (Placeholder.text name).references = [name] := by
  have placed := references_place valid []
  rwa [List.append_nil] at placed

/-- What a text refers to has a proper name. -/
theorem isName_of_mem_references {text name : Text} (member : name ∈ text.references) :
    IsName name := by
  induction text using induction_on_places with
  | nil => cases member
  | kept c rest nothing ih =>
    rw [references_cons_none nothing] at member
    exact ih member
  | place other rest valid ih =>
    rw [references_place valid] at member
    rcases List.mem_cons.mp member with rfl | later
    · exact valid
    · exact ih later

/-- The leftmost placeholder is the first reference. -/
theorem leftmostPlaceholder?_eq_head? (text : Text) :
    leftmostPlaceholder? text = (references text).head? := by
  induction text with
  | nil => rfl
  | cons c text ih =>
    rw [leftmostPlaceholder?, references]
    cases read? (c :: text) with
    | none => exact ih
    | some name => rfl

theorem mem_references_of_leftmost {text name : Text}
    (leftmost : leftmostPlaceholder? text = some name) : name ∈ text.references := by
  rw [leftmostPlaceholder?_eq_head?] at leftmost
  exact List.mem_of_mem_head? leftmost

theorem leftmostPlaceholder?_eq_none_iff {text : Text} :
    leftmostPlaceholder? text = none ↔ references text = [] := by
  rw [leftmostPlaceholder?_eq_head?, List.head?_eq_none_iff]

theorem WellFormed.references_append (formed : WellFormed template) (rest : Text) :
    references (template ++ rest) = references template ++ references rest := by
  induction formed with
  | nil => rfl
  | plain allowed _ ih =>
    rw [List.cons_append, references_cons_none (read?_of_plain allowed _), ih,
      references_cons_none (read?_of_plain allowed _)]
  | place valid _ ih =>
    rw [List.append_assoc, references_place valid, ih, references_place valid, List.cons_append]

theorem WellFormed.of_plain {text : Text} (plain : ∀ c ∈ text, isPlainChar c = true) :
    WellFormed text := by
  induction text with
  | nil => exact .nil
  | cons c text ih =>
    obtain ⟨allowed, rest⟩ := List.forall_mem_cons.mp plain
    exact .plain allowed (ih rest)

theorem references_of_plain {text : Text} (plain : ∀ c ∈ text, isPlainChar c = true) :
    references text = [] := by
  induction text with
  | nil => rfl
  | cons c text ih =>
    obtain ⟨allowed, rest⟩ := List.forall_mem_cons.mp plain
    rw [references_cons_none (read?_of_plain allowed text), ih rest]

/-! ## Instantiation -/

variable {value? : Text → Option Text}

theorem instantiate_plain {c : CodePoint} (allowed : isPlainChar c = true) (rest : Text)
    (value? : Text → Option Text) :
    instantiate (c :: rest) value? = c :: instantiate rest value? := by
  apply substitute_cons_kept
  rw [read?_of_plain allowed]
  rfl

/-- A placeholder gives way to its value, or stays if it has none. -/
theorem instantiate_place {name : Text} (valid : IsName name) (rest : Text)
    (value? : Text → Option Text) :
    instantiate (Placeholder.text name ++ rest) value? =
      (value? name).getD (Placeholder.text name) ++ instantiate rest value? := by
  have found := read?_text valid rest
  cases known : value? name with
  | some value =>
    apply substitute_found
    · simp [Placeholder.text]
    · rw [found, Option.bind_some, known]
      rfl
  | none =>
    apply substitute_append_kept
    intro before c behind split
    cases before with
    | nil =>
      rw [List.nil_append] at split
      rw [← split, found, Option.bind_some, known]
      rfl
    | cons b before =>
      have inner : .char '{' :: (name ++ [.char '}']) = before ++ c :: behind := (List.cons.inj split).2
      rw [read?_inside valid inner]
      rfl

theorem WellFormed.instantiate_append (formed : WellFormed template) (rest : Text) :
    instantiate (template ++ rest) value? = instantiate template value? ++ instantiate rest value? := by
  induction formed with
  | nil => rfl
  | plain allowed _ ih =>
    rw [List.cons_append, instantiate_plain allowed, ih, instantiate_plain allowed, List.cons_append]
  | place valid _ ih =>
    rw [List.append_assoc, instantiate_place valid, ih, instantiate_place valid, List.append_assoc]

/-- Well-formed values keep a template well formed. -/
theorem WellFormed.instantiate (formed : WellFormed template)
    (values : ∀ name value, value? name = some value → WellFormed value) :
    WellFormed (template.instantiate value?) := by
  induction formed with
  | nil => exact .nil
  | plain allowed _ ih =>
    rw [instantiate_plain allowed]
    exact .plain allowed ih
  | @place name _ valid _ ih =>
    rw [instantiate_place valid]
    cases known : value? name with
    | none => exact .append (.single valid) ih
    | some value => exact (values name value known).append ih

/-- Each reference gives way to the references of its value. -/
theorem WellFormed.references_instantiate (formed : WellFormed template)
    (values : ∀ name value, value? name = some value → WellFormed value) :
    references (template.instantiate value?) =
      template.references.flatMap fun name => ((value? name).map references).getD [name] := by
  induction formed with
  | nil => rfl
  | plain allowed _ ih =>
    rw [instantiate_plain allowed, references_cons_none (read?_of_plain allowed _), ih,
      references_cons_none (read?_of_plain allowed _)]
  | @place name _ valid _ ih =>
    rw [instantiate_place valid, references_place valid, List.flatMap_cons, ← ih]
    cases known : value? name with
    | none => exact references_place valid _
    | some value => exact (values name value known).references_append _

/-- A template is well formed when free text is left once its placeholders are gone. -/
theorem wellFormed_iff (text : Text) :
    WellFormed text ↔ (text.instantiate fun _ => some []).all isPlainChar = true := by
  rw [List.all_eq_true]
  constructor
  · intro formed
    induction formed with
    | nil => exact fun c absent => absurd absent List.not_mem_nil
    | plain allowed _ ih =>
      rw [instantiate_plain allowed]
      exact List.forall_mem_cons.mpr ⟨allowed, ih⟩
    | place valid _ ih =>
      rw [instantiate_place valid, Option.getD_some, List.nil_append]
      exact ih
  · intro free
    induction text using induction_on_places with
    | nil => exact .nil
    | kept c rest nothing ih =>
      have kept : instantiate (c :: rest) (fun _ => some []) =
          c :: instantiate rest fun _ => some [] := by
        apply substitute_cons_kept
        rw [nothing]
        rfl
      rw [kept] at free
      obtain ⟨allowed, others⟩ := List.forall_mem_cons.mp free
      exact .plain allowed (ih others)
    | place name rest valid ih =>
      rw [instantiate_place valid, Option.getD_some, List.nil_append] at free
      exact .place valid (ih free)

instance (text : Text) : Decidable (WellFormed text) :=
  decidable_of_iff _ (wellFormed_iff text).symm

/-- Only the values of the references of a template matter. -/
theorem WellFormed.instantiate_congr (formed : WellFormed template) {other? : Text → Option Text}
    (same : ∀ name ∈ template.references, value? name = other? name) :
    template.instantiate value? = template.instantiate other? := by
  induction formed with
  | nil => rfl
  | plain allowed _ ih =>
    rw [references_cons_none (read?_of_plain allowed _)] at same
    rw [instantiate_plain allowed, instantiate_plain allowed, ih same]
  | @place name _ valid _ ih =>
    rw [references_place valid] at same
    rw [instantiate_place valid, instantiate_place valid, same name (List.mem_cons_self ..),
      ih fun other member => same other (List.mem_cons_of_mem _ member)]

/-- A template stays as it is when each of its placeholders has no value or itself as the value. -/
theorem WellFormed.instantiate_eq_self (formed : WellFormed template)
    (kept : ∀ name ∈ template.references,
      (value? name).getD (Placeholder.text name) = Placeholder.text name) :
    template.instantiate value? = template := by
  induction formed with
  | nil => rfl
  | plain allowed _ ih =>
    rw [references_cons_none (read?_of_plain allowed _)] at kept
    rw [instantiate_plain allowed, ih kept]
  | place valid _ ih =>
    rw [references_place valid] at kept
    rw [instantiate_place valid, kept _ (List.mem_cons_self ..),
      ih fun other member => kept other (List.mem_cons_of_mem _ member)]

/-- Two rounds of values are one: a value of the first round is itself given the values of the second,
which also go to the placeholders that the first round leaves. -/
theorem WellFormed.instantiate_instantiate (formed : WellFormed template)
    {later? : Text → Option Text}
    (values : ∀ name value, value? name = some value → WellFormed value) :
    (template.instantiate value?).instantiate later? =
      template.instantiate fun name =>
        match value? name with
        | some value => some (value.instantiate later?)
        | none => later? name := by
  induction formed with
  | nil => rfl
  | plain allowed _ ih =>
    rw [instantiate_plain allowed, instantiate_plain allowed, instantiate_plain allowed, ih]
  | @place name _ valid _ ih =>
    rw [instantiate_place valid, instantiate_place valid, ← ih]
    cases known : value? name with
    | none => exact instantiate_place valid _ _
    | some value => exact (values name value known).instantiate_append _

/-- Filling in a placeholder gives a value to its name alone. -/
theorem fill_eq_instantiate {name : Text} (valid : IsName name) (template value : Text) :
    template.fill name value =
      template.instantiate fun other => if other = name then some value else none := by
  rw [fill, replaceAll, instantiate]
  congr 1
  funext rest
  cases found : (Placeholder.text name).after? rest with
  | some behind =>
    rw [after?_eq_some_iff.mp found, read?_text valid]
    simp [beginsWith, after?_eq_some_iff.mpr]
  | none =>
    have apart : read? rest ≠ some name := by
      intro reading
      obtain ⟨-, behind, written⟩ := of_read? reading
      simp [after?_eq_some_iff.mpr written] at found
    cases reading : read? rest with
    | none => simp [beginsWith, found]
    | some other =>
      have different : other ≠ name := by
        rintro rfl
        exact apart reading
      simp [beginsWith, found, different]

/-! ## Filling in -/

theorem WellFormed.isName_of_mem_references (_ : WellFormed template) :
    ∀ name ∈ template.references, IsName name :=
  fun _ => Text.isName_of_mem_references

theorem wellFormed_of_single {name value : Text} (formedValue : WellFormed value) :
    ∀ other chosen, (if other = name then some value else none) = some chosen →
      WellFormed chosen := by
  intro other chosen known
  split_ifs at known
  cases known
  exact formedValue

theorem WellFormed.fill (formed : WellFormed template) {name value : Text} (valid : IsName name)
    (formedValue : WellFormed value) : WellFormed (template.fill name value) := by
  rw [fill_eq_instantiate valid]
  exact formed.instantiate (wellFormed_of_single formedValue)

theorem fill_text {name : Text} (valid : IsName name) (value : Text) :
    (Placeholder.text name).fill name value = value := by
  have placed := instantiate_place valid [] fun other => if other = name then some value else none
  rwa [List.append_nil, ← fill_eq_instantiate valid, if_pos rfl, Option.getD_some,
    show instantiate [] _ = [] from rfl, List.append_nil] at placed

/-- Each reference to the name gives way to the references of the value. -/
theorem WellFormed.references_fill (formed : WellFormed template) {name value : Text}
    (valid : IsName name) (formedValue : WellFormed value) :
    (template.fill name value).references =
      template.references.flatMap fun other =>
        if other = name then value.references else [other] := by
  rw [fill_eq_instantiate valid, formed.references_instantiate]
  · congr 1
    funext other
    split_ifs <;> rfl
  · exact wellFormed_of_single formedValue

theorem WellFormed.mem_references_fill (formed : WellFormed template) {name value : Text}
    (valid : IsName name) (formedValue : WellFormed value) (other : Text) :
    other ∈ (template.fill name value).references ↔
      other ∈ template.references ∧ other ≠ name ∨
        name ∈ template.references ∧ other ∈ value.references := by
  rw [formed.references_fill valid formedValue, List.mem_flatMap]
  constructor
  · rintro ⟨source, member, inside⟩
    split_ifs at inside with same
    · subst same
      exact .inr ⟨member, inside⟩
    · rw [List.mem_singleton] at inside
      subst inside
      exact .inl ⟨member, same⟩
  · rintro (⟨member, different⟩ | ⟨member, inside⟩)
    · exact ⟨other, member, by simp [different]⟩
    · exact ⟨name, member, by simpa using inside⟩

/-- A value that goes to a name can be filled in further before or after it goes there, as long as the
second name has no other place in the template. -/
theorem WellFormed.fill_fill (formed : WellFormed template) {name other value piece : Text}
    (valid : IsName name) (validOther : IsName other) (formedPiece : WellFormed piece)
    (apart : other ∈ template.references → other = name) :
    (template.fill name piece).fill other value = template.fill name (piece.fill other value) := by
  rw [fill_eq_instantiate valid, fill_eq_instantiate validOther, formed.instantiate_instantiate,
    fill_eq_instantiate valid, fill_eq_instantiate validOther]
  · apply formed.instantiate_congr
    intro source member
    by_cases same : source = name
    · simp [same]
    · have different : source ≠ other := by
        rintro rfl
        exact same (apart member)
      simp [same, different]
  · exact wellFormed_of_single formedPiece

end Text
end IntentModel
