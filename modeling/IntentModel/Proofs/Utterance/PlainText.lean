import IntentModel.Proofs.CompilationFault
import IntentModel.Proofs.Tag.Pieces

/-! # The text of an utterance

The plain text of an utterance is rebuilt from pieces of the sentence, cut out at the offsets of spans, and
the values between them (`text_of_ofSpans`, for any spans). For the tags of the sentence these pieces make
up the sentence, and the text is the one that replacing each tag by its value gives (`removals_agree`).

The text is kept with single spaces between its tokens. This form has the tokens of the text it stands for
and no others, so that the numbers in mentions can be looked up in it (`joinTokens_canonical`).
-/

namespace IntentModel

namespace Pieces

theorem text_cut (sentence : Text) : (cut sentence).text = sentence := by
  obtain ⟨pieces, formed, rfl⟩ := exists_text_eq sentence
  rw [cut_text formed]

theorem plain_cut (sentence : Text) : (cut sentence).plain = sentence.withoutTags := by
  obtain ⟨pieces, formed, rfl⟩ := exists_text_eq sentence
  rw [cut_text formed, withoutTags_text formed]

end Pieces

namespace Utterance

open Text

variable {sentence intent : Text} {spans : List Span} {utterance : Utterance}

/-- Reading spans writes the pieces into which they cut the rest of the sentence, with the values between
them. -/
theorem plain_of_run {draft final : Draft}
    (run : spans.foldlM (Draft.read sentence) draft = .ok final) :
    final.plain ++ sentence.drop final.cursor =
      draft.plain ++ (Pieces.cutFrom sentence draft.cursor spans).plain := by
  induction spans generalizing draft with
  | nil =>
    cases run
    simp [Pieces.cutFrom, Pieces.plain]
  | cons span spans ih =>
    obtain ⟨next, first, rest⟩ := bind_eq_ok_iff.mp run
    obtain ⟨-, rfl⟩ := Draft.read_eq_ok_iff.mp first
    rw [ih rest, Pieces.cutFrom, Pieces.plain_cons, List.append_assoc, List.append_assoc]

/-- The text of an utterance, whatever spans are handed over. -/
theorem text_of_ofSpans (built : ofSpans sentence intent spans = .ok utterance) :
    utterance.text = (Pieces.cutFrom sentence 0 spans).plain.joinTokens := by
  obtain ⟨draft, run, finished⟩ := bind_eq_ok_iff.mp built
  have plain := plain_of_run run
  cases finished
  rw [plain, List.nil_append]

theorem text_of_ofSentence (built : ofSentence sentence intent = .ok utterance) :
    utterance.text = sentence.withoutTags.joinTokens := by
  rw [text_of_ofSpans built, ← Pieces.plain_cut, Pieces.cut]

/-- It does not matter whether the spans of a sentence are handed over, and an utterance is made as long as
no tag is blank. The offsets cut a sentence into pieces that make it up again; with the values between
these pieces it is the text that replacing each tag by its value gives. What is rebuilt while the sentence
is read is this text, and the utterance keeps it but for blanks: no other character is lost, repeated or
changed. -/
theorem removals_agree (sentence intent : Text) :
    ofSentence sentence intent = ofSpans sentence intent sentence.spans ∧
    ((∃ utterance, ofSentence sentence intent = .ok utterance) ↔ sentence.Tagged) ∧
    (Pieces.cut sentence).text = sentence ∧
    (Pieces.cut sentence).plain = sentence.withoutTags ∧
    (∀ draft, sentence.spans.foldlM (Draft.read sentence) ⟨[], 0, []⟩ = .ok draft →
      draft.plain ++ sentence.drop draft.cursor = sentence.withoutTags) ∧
    ∀ utterance, ofSentence sentence intent = .ok utterance →
      utterance.text = sentence.withoutTags.joinTokens ∧
        (utterance.text.filter fun c => !isBlank c) =
          sentence.withoutTags.filter fun c => !isBlank c := by
  refine ⟨rfl, exists_ofSpans_eq_ok_iff, Pieces.text_cut sentence, Pieces.plain_cut sentence, ?_, ?_⟩
  · intro draft run
    rw [plain_of_run run, List.nil_append, ← Pieces.plain_cut, Pieces.cut]
  · intro utterance built
    have text := text_of_ofSentence built
    exact ⟨text, text ▸ filter_joinTokens _⟩

/-- Tags beside each other and at both ends, and brackets that belong to no tag. -/
theorem removals_agree_beside_brackets :
    ofSentence "[Ab:x][ c:y] [d [E:z:]]f[g: h]" "i" =
        .ok ⟨"Ab c [ d E ] fg", "i", [⟨"x", 0, 0⟩, ⟨"y", 1, 1⟩, ⟨"z:", 4, 4⟩, ⟨" h", 6, 6⟩]⟩ ∧
      withoutTags "[Ab:x][ c:y] [d [E:z:]]f[g: h]" = "Ab c [d E]fg" ∧
      joinTokens "Ab c [d E]fg" = "Ab c [ d E ] fg" := by
  have built : ofSentence "[Ab:x][ c:y] [d [E:z:]]f[g: h]" "i" =
      .ok ⟨"Ab c [ d E ] fg", "i", [⟨"x", 0, 0⟩, ⟨"y", 1, 1⟩, ⟨"z:", 4, 4⟩, ⟨" h", 6, 6⟩]⟩ := by rfl
  have plain : withoutTags "[Ab:x][ c:y] [d [E:z:]]f[g: h]" = "Ab c [d E]fg" := by rfl
  obtain ⟨-, -, -, -, -, texts⟩ := removals_agree "[Ab:x][ c:y] [d [E:z:]]f[g: h]" "i"
  obtain ⟨text, -⟩ := texts _ built
  rw [plain] at text
  exact ⟨built, plain, text.symm⟩

/-- The written form of a text. Its tokens are those of the text, so it is its own written form. No token
is empty or holds a blank, and cutting at the spaces gives the tokens unless the text is blank; together
they hold all of the text but its blanks. Texts have the same form exactly when they have the same tokens.
The tokens of an utterance can thus be read off its text alone. -/
theorem joinTokens_canonical (text other : Text) :
    text.joinTokens.tokens = text.tokens ∧
    text.joinTokens.joinTokens = text.joinTokens ∧
    (∀ token ∈ text.tokens, token ≠ [] ∧ ∀ c ∈ token, isBlank c = false) ∧
    ((∃ c ∈ text, isBlank c = false) → text.joinTokens.splitOn (.char ' ') = text.tokens) ∧
    (text.tokens.flatten = text.filter fun c => !isBlank c) ∧
    (text.joinTokens = other.joinTokens ↔ text.tokens = other.tokens) ∧
    ∀ sentence intent utterance, ofSentence sentence intent = .ok utterance →
      utterance.text.tokens = sentence.withoutTags.tokens := by
  refine ⟨tokens_joinTokens text, joinTokens_joinTokens text, fun _ => visible_of_mem_tokens, ?_,
    flatten_tokens text, joinTokens_eq_iff, ?_⟩
  · rintro ⟨c, member, visible⟩
    apply splitOn_joinTokens
    intro empty
    simp [tokens_eq_nil_iff.mp empty c member] at visible
  · intro sentence intent utterance built
    rw [text_of_ofSentence built, tokens_joinTokens]

/-- An ordinal indicator that stands apart from the word before it, behind another space character. -/
theorem joinTokens_canonical_of_ordinal :
    List.splitOn (.char ' ') (joinTokens "5\u00a0ºa_") = [[.char '5'], [.char 'º'], [.char 'a'], [.char '_']] ∧
      ofSentence "5\u00a0[º:o]a_" "i" = .ok ⟨"5 º a _", "i", [⟨"o", 1, 1⟩]⟩ ∧
      tokens "5 º a _" = [[.char '5'], [.char 'º'], [.char 'a'], [.char '_']] := by
  have built : ofSentence "5\u00a0[º:o]a_" "i" = .ok ⟨"5 º a _", "i", [⟨"o", 1, 1⟩]⟩ := by rfl
  obtain ⟨-, -, -, cut, -, -, read⟩ := joinTokens_canonical "5\u00a0ºa_" []
  exact ⟨cut ⟨'5', by decide, by decide⟩, built, read _ _ _ built⟩

end Utterance
end IntentModel
