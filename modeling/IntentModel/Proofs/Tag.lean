import IntentModel.Tag
import IntentModel.Proofs.Text.Substitution
import Mathlib.Data.List.TakeWhile
import Mathlib.Tactic.SplitIfs

/-! # Tags in a sentence

A tag is read exactly where the written form of a well-formed tag stands (`read?_eq_some_iff`). An
opening bracket is out of reach of every tag that begins before it, so a sentence may be cut there:
its tags and its text without tags are those of the two parts. A sentence with tags is thus free
text, the first tag, and a rest that is read for itself (`exists_of_spansFrom_cons`).
-/

namespace IntentModel

/-- Neither part is empty, and both hold only the characters they may. -/
structure Tag.WellFormed (tag : Tag) : Prop where
  value_ne_nil : tag.value ≠ []
  label_ne_nil : tag.label ≠ []
  value_chars : ∀ c ∈ tag.value, Tag.isValueChar c = true
  label_chars : ∀ c ∈ tag.label, Tag.isLabelChar c = true

namespace Tag

variable {tag : Tag}

theorem text_append (tag : Tag) (rest : Text) :
    tag.text ++ rest = .char '[' :: (tag.value ++ .char ':' :: (tag.label ++ .char ']' :: rest)) := by
  simp [text]

/-- Behind its first character a tag holds no opening bracket. -/
theorem WellFormed.no_bracket (formed : tag.WellFormed) {behind : Text}
    (whole : tag.text = .char '[' :: behind) : .char '[' ∉ behind := by
  have inValue : .char '[' ∉ tag.value := fun inside => absurd (formed.value_chars _ inside) (by decide)
  have inLabel : .char '[' ∉ tag.label := fun inside => absurd (formed.label_chars _ inside) (by decide)
  obtain rfl : tag.value ++ .char ':' :: (tag.label ++ [.char ']']) = behind := by
    simpa [text] using whole
  simp [inValue, inLabel]

theorem read?_text (formed : tag.WellFormed) (rest : Text) :
    read? (tag.text ++ rest) = some tag := by
  have colon : isValueChar ':' = false := by decide
  have bracket : isLabelChar ']' = false := by decide
  rw [text_append, read?]
  simp [List.takeWhile_append_of_pos formed.value_chars,
    List.dropWhile_append_of_pos formed.value_chars,
    List.takeWhile_append_of_pos formed.label_chars,
    List.dropWhile_append_of_pos formed.label_chars, colon, bracket,
    formed.value_ne_nil, formed.label_ne_nil]

theorem of_read? {text : Text} (found : read? text = some tag) :
    tag.WellFormed ∧ ∃ rest, text = tag.text ++ rest := by
  rw [read?.eq_def] at found
  split at found
  · next body =>
    dsimp only at found
    split at found
    · next behindValue value =>
      split at found
      · next rest label =>
        split_ifs at found with filled
        simp only [Bool.or_eq_true, List.isEmpty_iff, not_or] at filled
        cases found
        refine ⟨⟨filled.1, filled.2, ?_, ?_⟩, rest, ?_⟩
        · exact fun c member => List.mem_takeWhile_imp member
        · exact fun c member => List.mem_takeWhile_imp member
        · rw [text_append, ← label, List.takeWhile_append_dropWhile, ← value,
            List.takeWhile_append_dropWhile]
      · cases found
    · cases found
  · cases found

/-- A tag is read exactly where a well-formed one is written. -/
theorem read?_eq_some_iff {text : Text} :
    read? text = some tag ↔ tag.WellFormed ∧ ∃ rest, text = tag.text ++ rest := by
  constructor
  · exact of_read?
  · rintro ⟨formed, rest, rfl⟩
    exact read?_text formed rest

/-- No tag begins but with an opening bracket. -/
theorem read?_of_ne {c : CodePoint} (other : c ≠ '[') (text : Text) : read? (c :: text) = none := by
  rw [read?.eq_def]
  split
  · next equal =>
    cases equal
    exact (other rfl).elim
  · rfl

/-- What stands behind an opening bracket does not matter to a tag that begins before it. -/
theorem read?_append_bracket (c : CodePoint) (text rest : Text) :
    read? (c :: text ++ .char '[' :: rest) = read? (c :: text) := by
  ext tag
  simp only [read?_eq_some_iff]
  refine and_congr_right fun formed => ⟨?_, ?_⟩
  · rintro ⟨behind, whole⟩
    rcases List.append_eq_append_iff.mp whole with ⟨more, longer, cut⟩ | ⟨more, shorter, -⟩
    · cases more with
      | nil => exact ⟨[], by simpa using longer.symm⟩
      | cons d more =>
        obtain ⟨rfl, -⟩ : '[' = d ∧ _ := by simpa using cut
        obtain ⟨rfl, -⟩ : '[' = c ∧ _ := by simpa [Tag.text] using longer
        exact (formed.no_bracket longer (by simp)).elim
    · exact ⟨more, shorter⟩
  · rintro ⟨behind, whole⟩
    exact ⟨behind ++ .char '[' :: rest, by rw [whole, List.append_assoc]⟩

end Tag

namespace Text

open Tag

/-- No tag begins anywhere in the text. -/
def TagFree : Text → Prop
  | [] => True
  | c :: text => read? (c :: text) = none ∧ TagFree text

/-! ## Cutting a sentence -/

theorem spansFrom_cons_none {c : CodePoint} {text : Text} (nothing : read? (c :: text) = none)
    (offset : Nat) : spansFrom offset (c :: text) = spansFrom (offset + 1) text := by
  rw [spansFrom, nothing]

theorem spansFrom_eq_nil_iff (offset : Nat) (text : Text) :
    spansFrom offset text = [] ↔ TagFree text := by
  induction text generalizing offset with
  | nil => simp [spansFrom, TagFree]
  | cons c text ih =>
    rw [spansFrom, TagFree]
    cases read? (c :: text) <;> simp [ih]

/-- Characters other than opening brackets begin no tags. -/
theorem spansFrom_append_of_no_bracket {front : Text} (plain : .char '[' ∉ front) (offset : Nat)
    (rest : Text) : spansFrom offset (front ++ rest) = spansFrom (offset + front.length) rest := by
  induction front generalizing offset with
  | nil => rfl
  | cons c front ih =>
    rw [List.mem_cons, not_or] at plain
    have other : c ≠ '[' := fun equal => plain.1 equal.symm
    rw [List.cons_append, spansFrom_cons_none (read?_of_ne other _), ih plain.2,
      List.length_cons, Nat.add_assoc, Nat.add_comm 1]

/-- A tag at the front is the first one, and the next can begin behind it. -/
theorem spansFrom_tag {tag : Tag} (formed : tag.WellFormed) (offset : Nat) (rest : Text) :
    spansFrom offset (tag.text ++ rest) =
      ⟨tag, offset, offset + tag.text.length⟩ :: spansFrom (offset + tag.text.length) rest := by
  obtain ⟨behind, whole⟩ : ∃ behind, tag.text = .char '[' :: behind := ⟨_, rfl⟩
  have found := read?_text formed rest
  rw [whole, List.cons_append] at found ⊢
  rw [spansFrom, found]
  simp only [spansFrom_append_of_no_bracket (formed.no_bracket whole), whole, List.length_cons,
    Nat.add_assoc, Nat.add_comm 1]

/-- An opening bracket cuts the tags of a sentence in two. -/
theorem spansFrom_append_bracket (offset : Nat) (text rest : Text) :
    spansFrom offset (text ++ .char '[' :: rest) =
      spansFrom offset text ++ spansFrom (offset + text.length) (.char '[' :: rest) := by
  induction text generalizing offset with
  | nil => rfl
  | cons c text ih =>
    have same := read?_append_bracket c text rest
    rw [List.cons_append] at same ⊢
    rw [spansFrom, spansFrom.eq_2 offset c text, same]
    cases read? (c :: text) <;>
      simp [ih, Nat.add_assoc, Nat.add_comm 1]

theorem withoutTags_tag {tag : Tag} (formed : tag.WellFormed) (rest : Text) :
    withoutTags (tag.text ++ rest) = tag.value ++ withoutTags rest := by
  apply substitute_found (by simp [Tag.text])
  simp [read?_text formed]

/-- An opening bracket cuts the plain text of a sentence in two. -/
theorem withoutTags_append_bracket (text rest : Text) :
    withoutTags (text ++ .char '[' :: rest) = withoutTags text ++ withoutTags (.char '[' :: rest) := by
  apply substitute_append_seam
  · intro c text
    rw [read?_append_bracket]
  · intro text length replacement found
    obtain ⟨tag, read, equal⟩ := Option.map_eq_some_iff.mp found
    obtain ⟨-, rest, rfl⟩ := of_read? read
    cases equal
    simp

/-- Free text without tags stays as it is. -/
theorem withoutTags_of_tagFree {text : Text} (free : TagFree text) : withoutTags text = text := by
  induction text with
  | nil => rfl
  | cons c text ih =>
    have kept := @substitute_cons_kept
      (fun rest => (read? rest).map fun tag => (tag.text.length, tag.value)) c text
      (by simp [free.1])
    exact kept.trans (congrArg (c :: ·) (ih free.2))

/-- The plain text around a tag. -/
theorem withoutTags_around {tag : Tag} (formed : tag.WellFormed) (before behind : Text) :
    withoutTags (before ++ tag.text ++ behind) =
      withoutTags before ++ tag.value ++ withoutTags behind := by
  have cut := withoutTags_append_bracket before (tag.value ++ .char ':' :: (tag.label ++ .char ']' :: behind))
  rw [← text_append, withoutTags_tag formed] at cut
  rw [List.append_assoc, cut, List.append_assoc]

theorem withoutTags_append_tag {tag : Tag} (formed : tag.WellFormed) (before : Text) :
    withoutTags (before ++ tag.text) = withoutTags before ++ tag.value := by
  have around := withoutTags_around formed before []
  simpa [withoutTags, substitute, substituteFrom] using around

/-- A sentence with tags is free text, its first tag and a rest that is read for itself. -/
theorem exists_of_spansFrom_cons {offset : Nat} {text : Text} {span : Span} {spans : List Span}
    (split : spansFrom offset text = span :: spans) :
    ∃ free rest, text = free ++ span.tag.text ++ rest ∧ TagFree free ∧ span.tag.WellFormed ∧
      span.start = offset + free.length ∧ span.stop = offset + (free ++ span.tag.text).length ∧
      spans = spansFrom span.stop rest := by
  induction text generalizing offset with
  | nil => simp [spansFrom] at split
  | cons c text ih =>
    cases read : read? (c :: text) with
    | some tag =>
      obtain ⟨formed, rest, whole⟩ := of_read? read
      rw [whole, spansFrom_tag formed, List.cons.injEq] at split
      obtain ⟨rfl, rfl⟩ := split
      exact ⟨[], rest, whole, trivial, formed, rfl, rfl, rfl⟩
    | none =>
      rw [spansFrom_cons_none read] at split
      obtain ⟨free, rest, rfl, untagged, formed, starts, stops, later⟩ := ih split
      have alone : read? (c :: free) = none := by
        have cut := read?_append_bracket c free
          (span.tag.value ++ .char ':' :: (span.tag.label ++ .char ']' :: rest))
        rw [← text_append] at cut
        rw [← cut, ← List.append_assoc]
        exact read
      refine ⟨c :: free, rest, rfl, ⟨alone, untagged⟩, formed, ?_, ?_, later⟩
      · rw [starts, List.length_cons]
        omega
      · rw [stops, List.cons_append, List.length_cons]
        omega

/-- A tag that is found stands in the sentence at its offsets. -/
theorem exists_of_mem_spansFrom {offset : Nat} {text : Text} {span : Span}
    (member : span ∈ spansFrom offset text) :
    ∃ before behind, text = before ++ span.tag.text ++ behind ∧ span.tag.WellFormed ∧
      span.start = offset + before.length ∧
      span.stop = offset + (before ++ span.tag.text).length := by
  generalize split : spansFrom offset text = spans at member
  induction spans generalizing offset text with
  | nil => cases member
  | cons first spans ih =>
    obtain ⟨free, rest, rfl, -, formed, starts, stops, later⟩ := exists_of_spansFrom_cons split
    rcases List.mem_cons.mp member with rfl | member
    · exact ⟨free, rest, rfl, formed, starts, stops⟩
    · obtain ⟨before, behind, rfl, formed', starts', stops'⟩ := ih later.symm member
      refine ⟨free ++ first.tag.text ++ before, behind, by simp, formed', ?_, ?_⟩
      · simp only [starts', stops, List.length_append]
        omega
      · simp only [stops', stops, List.length_append]
        omega

end Text
end IntentModel
