import IntentModel.Model
import IntentModel.Proofs.Tag.Pieces
import IntentModel.Proofs.Text.Folding

/-! # The phrases of a feature

A feature keeps the words of a phrase list as phrases: with single spaces between tokens, and folded for
the culture of the model. Under a culture that folds the letters A to Z only, folding moves no token
boundary. A phrase then reads as the utterance of the same word does, with small letters
(`folding_keeps_boundaries`), so that what is listed is found again in what is said.
-/

namespace IntentModel

/-- The phrases for the words of a phrase list, in order. A blank word has an empty phrase. -/
def Phraselist.phrases (phraselist : Phraselist) (culture : Text) : List Text :=
  phraselist.words.map fun word => Text.joinTokens (word.normalize culture)

/-- A feature holds the phrases that are not empty. -/
theorem Phraselist.words_feature (phraselist : Phraselist) (culture : Text) :
    (phraselist.feature culture).words =
      Text.join [.char ','] ((phraselist.phrases culture).filter (!·.isEmpty)) := rfl

/-- The utterance of a sentence without tags is the sentence, with single spaces between tokens. -/
theorem Utterance.ofSentence_of_untagged {sentence : Text} (untagged : sentence.Untagged)
    (intent : Text) : ofSentence sentence intent = .ok ⟨sentence.joinTokens, intent, []⟩ := by
  have none : sentence.spans = [] :=
    (Text.spansFrom_eq_nil_iff 0 sentence).mpr (Text.untagged_iff.mp untagged)
  rw [ofSentence, none]
  rfl

namespace Text

/-- Under a culture that folds A to Z only, a text has the same tokens before and after it is collapsed and
folded, but for the capitals in them. The phrase of a word without tags, as the feature of a phrase list
holds it, is the text of the utterance that the word gives as a sentence, with its capitals lowered. -/
theorem folding_keeps_boundaries {culture : Text} (folds : culture.lower = ("en-us" : Text))
    (text : Text) :
    (text.normalize culture).tokens = text.tokens.map lowerAscii ∧
    (text.normalize culture).tokens.length = text.tokens.length ∧
    (text.Untagged → ∀ intent : Text, ∃ utterance : Utterance,
      Utterance.ofSentence text intent = .ok utterance ∧
        ∀ (phraselist : Phraselist) (k : Nat), phraselist.words[k]? = some text →
          (phraselist.phrases culture)[k]? = some utterance.text.lowerAscii ∧
            (phraselist.feature culture).words =
              join [.char ','] ((phraselist.phrases culture).filter (!·.isEmpty))) := by
  have ascii : culture.foldsAscii = true := by rw [foldsAscii, folds, beq_self_eq_true]
  have same := tokens_normalize ascii text
  refine ⟨same, by rw [same, List.length_map], fun untagged intent => ?_⟩
  refine ⟨_, Utterance.ofSentence_of_untagged untagged intent, fun phraselist k listed => ⟨?_, ?_⟩⟩
  · rw [Phraselist.phrases, List.getElem?_map, listed, Option.map_some, joinTokens_normalize ascii]
  · exact phraselist.words_feature culture

/-- Capitals beside ordinal indicators and behind other space characters; the accented one is kept. -/
theorem folding_keeps_boundaries_of_ordinals :
    lower "EN-us" = ("en-us" : Text) ∧ Untagged "Nº\u00a05ª_\tÉX" ∧
      tokens (normalize "Nº\u00a05ª_\tÉX" "EN-us") = [("nº" : Text), "5ª", "_", "Éx"] ∧
      Utterance.ofSentence "Nº\u00a05ª_\tÉX" "i" = .ok ⟨"Nº 5ª _ ÉX", "i", []⟩ ∧
      (Phraselist.phrases ⟨"p", ["Tea", "Nº\u00a05ª_\tÉX", " "], true, true⟩ "EN-us")[1]? =
        some ("nº 5ª _ Éx" : Text) ∧
      (Phraselist.feature ⟨"p", ["Tea", "Nº\u00a05ª_\tÉX", " "], true, true⟩ "EN-us").words =
        ("tea,nº 5ª _ Éx" : Text) := by
  have folds : lower "EN-us" = ("en-us" : Text) := by decide
  have untagged : Untagged "Nº\u00a05ª_\tÉX" :=
    untagged_iff.mpr ((spansFrom_eq_nil_iff 0 _).mp (by decide))
  obtain ⟨same, -, phrase⟩ := folding_keeps_boundaries folds "Nº\u00a05ª_\tÉX"
  obtain ⟨utterance, built, listed⟩ := phrase untagged "i"
  have plain : Utterance.ofSentence "Nº\u00a05ª_\tÉX" "i" = .ok ⟨"Nº 5ª _ ÉX", "i", []⟩ := by rfl
  cases built.symm.trans plain
  obtain ⟨kept, words⟩ :=
    listed ⟨"p", ["Tea", "Nº\u00a05ª_\tÉX", " "], true, true⟩ 1 rfl
  exact ⟨folds, untagged, same, plain, kept, words⟩

end Text
end IntentModel
