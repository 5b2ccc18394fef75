import IntentModel.Proofs.Text.Tokens

/-! # Tokens of texts that are put together

Two texts that stand one behind the other have the tokens of both, unless they are glued: a word at the
end of the first goes on in the second, and the two tokens at the seam are one (`tokens_append`). The
tokens of the first text show which case it is, as the whole begins with them only when nothing is glued.

`joinTokens` writes the tokens of a text with single spaces between them. That glues nothing and cuts
nothing, so what is written has the same tokens again (`tokens_joinTokens`): it can be cut at its spaces,
and it is one and the same for all texts with the same tokens.
-/

namespace IntentModel.Text

/-- A word at the end of the first text goes on in the second, with a word character or with an ordinal
indicator. -/
def Glued (first second : Text) : Prop :=
  first.getLast?.any isWordChar = true ∧
    second.head?.any (fun d => isWordChar d || isOrdinal d) = true

instance (first second : Text) : Decidable (Glued first second) :=
  inferInstanceAs (Decidable (_ ∧ _))

variable {first second text : Text}

theorem meets_iff_glued : meets wordBond first second = true ↔ Glued first second := by
  rw [meets, Glued]
  cases first.getLast? with
  | none => simp
  | some c =>
    cases second with
    | nil => simp [continues]
    | cons d second => simp [continues, wordBond]

/-! ## Appending -/

/-- The two tokens at a glued seam are one. -/
theorem Glued.exists_seam (glued : Glued first second) :
    ∃ front last next rest, first.tokens = front ++ [last] ∧ second.tokens = next :: rest ∧
      tokens (first ++ second) = front ++ (last ++ next) :: rest := by
  simp only [tokens_eq_divide]
  exact exists_seam_of_meets (meets_iff_glued.mpr glued)

theorem tokens_append_of_apart (apart : ¬ Glued first second) :
    tokens (first ++ second) = first.tokens ++ second.tokens := by
  simp only [tokens_eq_divide]
  exact divide_append_of_apart (Bool.eq_false_iff.mpr (mt meets_iff_glued.mp apart))

/-- The whole text begins with the tokens of the first part, unless the last of them has grown. -/
theorem take_tokens_append_eq_iff :
    (tokens (first ++ second)).take first.tokens.length = first.tokens ↔ ¬ Glued first second := by
  by_cases glued : Glued first second
  · obtain ⟨front, last, next, rest, whole, behind, joined⟩ := glued.exists_seam
    have filled : next ≠ [] := (visible_of_mem_tokens (behind ▸ List.mem_cons_self ..)).1
    have grown : (front ++ (last ++ next) :: rest).take (front.length + 1) =
        front ++ [last ++ next] := by
      rw [← List.singleton_append, ← List.append_assoc]
      exact List.take_left' (by simp)
    simp [whole, joined, grown, filled, glued]
  · simp [tokens_append_of_apart glued, glued]

/-- No text is glued to one that begins with a blank. -/
theorem not_glued_blank {c : CodePoint} (blank : isBlank c = true) : ¬ Glued first (c :: second) := by
  rw [← meets_iff_glued, meets_cons_blank blank]
  exact Bool.false_ne_true

theorem tokens_append_blank {c : CodePoint} (blank : isBlank c = true) (first second : Text) :
    tokens (first ++ c :: second) = first.tokens ++ second.tokens := by
  simp only [tokens_eq_divide]
  exact divide_append_cons_blank blank first second

/-- Blanks in front add no tokens. -/
theorem tokens_blank_append {blanks : Text} (blank : ∀ c ∈ blanks, isBlank c = true) (text : Text) :
    tokens (blanks ++ text) = text.tokens := by
  simp only [tokens_eq_divide]
  exact divide_blank_append blank text

/-- Blanks at the end add no tokens. -/
theorem tokens_append_blanks {blanks : Text} (blank : ∀ c ∈ blanks, isBlank c = true) (text : Text) :
    tokens (text ++ blanks) = text.tokens := by
  simp only [tokens_eq_divide]
  exact divide_append_blank blank text

/-- Text that is added behind another takes no tokens away. -/
theorem length_tokens_le (first second : Text) :
    first.tokens.length ≤ (tokens (first ++ second)).length := by
  simp only [tokens_eq_divide]
  exact length_divide_le wordBond first second

/-- The tokens of a text with another one behind it. Where the two are glued, the last token of the first
and the first token of the second are one; otherwise all tokens stay as they are. The tokens of the first
text tell the two cases apart: the whole begins with other tokens exactly when something is glued. -/
theorem tokens_append (first second : Text) :
    ((Glued first second ∧ ∃ front last next rest,
        first.tokens = front ++ [last] ∧ second.tokens = next :: rest ∧
          tokens (first ++ second) = front ++ (last ++ next) :: rest) ∨
      (¬ Glued first second ∧ tokens (first ++ second) = first.tokens ++ second.tokens)) ∧
    ((tokens (first ++ second)).take first.tokens.length ≠ first.tokens ↔ Glued first second) := by
  constructor
  · by_cases glued : Glued first second
    · exact .inl ⟨glued, glued.exists_seam⟩
    · exact .inr ⟨glued, tokens_append_of_apart glued⟩
  · rw [ne_eq, take_tokens_append_eq_iff, not_not]

/-- An ordinal indicator is glued to the digit before it and ends the word. -/
example : Glued "5" "ºa" ∧ tokens "5ºa" = [[.char '5', .char 'º'], [.char 'a']] ∧ ¬ Glued "5º" "a" := by decide

/-! ## Writing tokens -/

/-- A text that is written with single spaces between its tokens has the same tokens. -/
theorem tokens_joinTokens (text : Text) : text.joinTokens.tokens = text.tokens := by
  simp only [joinTokens, tokens_eq_divide]
  exact divide_join fun _ => divide_of_mem_divide

/-- Collapsing the blanks of a text keeps its tokens. -/
theorem tokens_collapse (text : Text) : text.collapse.tokens = text.tokens := by
  simp only [tokens_eq_divide]
  exact divide_collapse wordBond text

theorem joinTokens_joinTokens (text : Text) : text.joinTokens.joinTokens = text.joinTokens :=
  congrArg (join " ") (tokens_joinTokens text)

theorem joinTokens_eq_iff {other : Text} :
    text.joinTokens = other.joinTokens ↔ text.tokens = other.tokens := by
  constructor
  · intro same
    rw [← tokens_joinTokens text, same, tokens_joinTokens]
  · exact congrArg (join " ")

/-- Cutting at the spaces gives the tokens, where there are any. -/
theorem splitOn_joinTokens (present : text.tokens ≠ []) :
    text.joinTokens.splitOn (.char ' ') = text.tokens := by
  apply List.splitOn_intercalate (.char ' ') _ present
  intro token member space
  exact absurd ((visible_of_mem_tokens member).2 ' ' space) (by decide)

/-- Writing the tokens moves blanks only. -/
theorem filter_joinTokens (text : Text) :
    (text.joinTokens.filter fun c => !isBlank c) = text.filter fun c => !isBlank c := by
  rw [← flatten_tokens, tokens_joinTokens, flatten_tokens]

theorem joinTokens_eq_nil_iff : text.joinTokens = [] ↔ ∀ c ∈ text, isBlank c = true := by
  rw [joinTokens, tokens_eq_divide, ← @divide_eq_nil_iff wordBond]
  exact join_divide_eq_nil_iff wordBond text

end IntentModel.Text
