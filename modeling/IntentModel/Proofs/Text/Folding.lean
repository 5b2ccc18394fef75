import IntentModel.Proofs.Text.CodePoint
import IntentModel.Proofs.Text.Joining
import IntentModel.Text.Folding

/-! # Folding and tokens

Lowering the letters A to Z turns word characters into word characters and leaves all others as they are.
So the tokens of a text that is folded in this way are the tokens of the text, each of them folded
(`tokens_lowerAscii`), and collapsing the blanks first makes no difference (`tokens_normalize`).
-/

namespace IntentModel

/-- What lowering changes makes up words, before and after. -/
theorem toLower_eq_self_or_word (c : CodePoint) :
    c.toLower = c ∨ isWordChar c = true ∧ isWordChar c.toLower = true := by
  obtain kept | ⟨least, most⟩ := c.toLower_eq_self_or
  · exact .inl kept
  · have each : ∀ n < 0x5B, 0x41 ≤ n →
        isWordChar (CodePoint.ofNat n) = true ∧ isWordChar (CodePoint.ofNat n).toLower = true := by decide
    refine .inr ?_
    simpa only [CodePoint.ofNat_toNat] using each c.toNat (by omega) least

theorem isWordChar_toLower (c : CodePoint) : isWordChar c.toLower = isWordChar c := by
  rcases toLower_eq_self_or_word c with same | ⟨word, lowered⟩
  · rw [same]
  · rw [word, lowered]

theorem isBlank_toLower (c : CodePoint) : isBlank c.toLower = isBlank c := by
  rcases toLower_eq_self_or_word c with same | ⟨word, lowered⟩
  · rw [same]
  · rw [isBlank_of_isWordChar word, isBlank_of_isWordChar lowered]

theorem isOrdinal_toLower (c : CodePoint) : isOrdinal c.toLower = isOrdinal c := by
  have other {d : CodePoint} (word : isWordChar d = true) : isOrdinal d = false := by
    by_contra ordinal
    simp [isWordChar_of_isOrdinal (by simpa using ordinal)] at word
  rcases toLower_eq_self_or_word c with same | ⟨word, lowered⟩
  · rw [same]
  · rw [other word, other lowered]

namespace Text

variable {culture : Text}

/-- The tokens of a text with lowered capitals are its tokens with lowered capitals. -/
theorem tokens_lowerAscii (text : Text) : text.lowerAscii.tokens = text.tokens.map lowerAscii := by
  simp only [tokens_eq_divide]
  apply divide_map isBlank_toLower
  intro c d
  simp only [wordBond, isWordChar_toLower, isOrdinal_toLower]

/-- What a culture that folds A to Z only makes of a text has the tokens of the text, folded. -/
theorem tokens_normalize (folds : culture.foldsAscii = true) (text : Text) :
    (text.normalize culture).tokens = text.tokens.map lowerAscii := by
  rw [normalize, fold, if_pos folds, tokens_lowerAscii, tokens_collapse]

theorem lowerAscii_join (pieces : List Text) :
    (join " " pieces).lowerAscii = join " " (pieces.map lowerAscii) := by
  induction pieces with
  | nil => rfl
  | cons piece pieces ih =>
    rw [List.map_cons, join_cons, join_cons, ← ih]
    cases pieces with
    | nil => rfl
    | cons next pieces =>
      have more : (next :: pieces).map lowerAscii ≠ [] := by simp
      rw [if_neg (List.cons_ne_nil _ _), if_neg more, lowerAscii, List.map_append, List.map_append]
      rfl

theorem joinTokens_normalize (folds : culture.foldsAscii = true) (text : Text) :
    (text.normalize culture).joinTokens = text.joinTokens.lowerAscii := by
  rw [joinTokens, joinTokens, tokens_normalize folds, lowerAscii_join]

end Text
end IntentModel
