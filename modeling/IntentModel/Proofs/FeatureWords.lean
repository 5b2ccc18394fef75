import IntentModel.Proofs.Corpus.Sections
import IntentModel.Proofs.Phraselist
import IntentModel.Proofs.Text.Collapse

/-! # Phrases between commas

A feature holds its phrases in one text with commas between them. The text is read back by cutting it at its
commas. A phrase has a comma exactly when its word has one (`comma_mem_phrase_iff`), and such a phrase falls
apart: each phrase comes back as the pieces between its own commas (`splitOn_words_feature`).

Words that a corpus writes as one text stand between commas already, so their phrases come back as they are
(`not_mem_wordTexts`). Words that are written as a row may hold commas.
-/

namespace IntentModel

namespace Text

variable {text : Text} {x : CodePoint}

/-- What is cut at a character does not hold it. -/
theorem not_mem_of_mem_splitOn {piece : Text} (member : piece ∈ text.splitOn x) : x ∉ piece := by
  induction text generalizing piece with
  | nil =>
    rw [List.splitOn_nil, List.mem_singleton] at member
    simp [member]
  | cons c text ih =>
    rw [List.splitOn_cons_eq_if_modifyHead] at member
    obtain ⟨first, others, cut⟩ := List.exists_cons_of_ne_nil (List.splitOn_ne_nil x text)
    rw [cut] at member ih
    split_ifs at member with own
    · rcases List.mem_cons.mp member with rfl | later
      · exact List.not_mem_nil
      · exact ih later
    · rw [List.modifyHead_cons] at member
      rcases List.mem_cons.mp member with rfl | later
      · have rest := ih (List.mem_cons_self ..)
        have other : x ≠ c := by
          rintro rfl
          simp at own
        simp [other, rest]
      · exact ih (List.mem_cons_of_mem _ later)

/-- Texts with a separator between them are cut each for itself. -/
theorem splitOn_join {pieces : List Text} (present : pieces ≠ []) :
    (join [x] pieces).splitOn x = pieces.flatMap (·.splitOn x) := by
  induction pieces with
  | nil => exact absurd rfl present
  | cons piece pieces ih =>
    rw [join_cons, List.flatMap_cons]
    split_ifs with last
    · rw [last, List.flatMap_nil, List.append_nil]
    · rw [List.append_assoc, List.singleton_append, List.splitOn_append_cons_self, ih last]

theorem mem_of_mem_trim {c : CodePoint} (member : c ∈ text.trim) : c ∈ text := by
  unfold trim trimWhile dropEndWhile at member
  rw [List.mem_reverse] at member
  have inner := (List.dropWhile_suffix _).subset member
  rw [List.mem_reverse] at inner
  exact (List.dropWhile_suffix _).subset inner

end Text

namespace Phraselist

variable {phraselist : Phraselist} {culture : Text}

/-- The phrases that a feature holds. -/
def filledPhrases (phraselist : Phraselist) (culture : Text) : List Text :=
  (phraselist.phrases culture).filter (!·.isEmpty)

theorem mem_filledPhrases_iff {phrase : Text} :
    phrase ∈ phraselist.filledPhrases culture ↔
      phrase ≠ [] ∧ ∃ word ∈ phraselist.words, Text.joinTokens (word.normalize culture) = phrase := by
  simp [filledPhrases, phrases, and_comm]

theorem comma_mem_phrase_iff (word culture : Text) :
    .char ',' ∈ Text.joinTokens (word.normalize culture) ↔ .char ',' ∈ word := by
  have visible : isBlank ',' = false := by decide
  rw [Text.mem_iff_of_filter_eq (Text.filter_joinTokens _) visible, Text.normalize,
    Text.mem_fold_iff isCaseless_comma, Text.mem_iff_of_filter_eq (Text.filter_collapse _) visible]

/-- Only a blank word has an empty phrase. -/
theorem phrase_eq_nil_iff (word culture : Text) :
    Text.joinTokens (word.normalize culture) = [] ↔ ∀ c ∈ word, isBlank c = true := by
  rw [Text.joinTokens_eq_nil_iff, Text.normalize, Text.blank_fold_iff,
    ← @Text.divide_eq_nil_iff visibleBond, Text.divide_collapse, Text.divide_eq_nil_iff]

theorem filledPhrases_ne_nil (spoken : ∃ word ∈ phraselist.words, ∃ c ∈ word, isBlank c = false) :
    phraselist.filledPhrases culture ≠ [] := by
  obtain ⟨word, member, c, inside, visible⟩ := spoken
  refine List.ne_nil_of_mem (mem_filledPhrases_iff.mpr ⟨?_, word, member, rfl⟩)
  rw [Ne, phrase_eq_nil_iff]
  intro blank
  rw [blank c inside] at visible
  cases visible

/-- Cut at its commas, the text of a feature gives the pieces of its phrases, phrase by phrase. -/
theorem splitOn_words_feature (spoken : ∃ word ∈ phraselist.words, ∃ c ∈ word, isBlank c = false) :
    (phraselist.feature culture).words.splitOn (.char ',') =
      (phraselist.filledPhrases culture).flatMap (·.splitOn (.char ',')) := by
  rw [phraselist.words_feature]
  exact Text.splitOn_join (filledPhrases_ne_nil spoken)

/-- The phrases come back as they are if and only if no word has a comma. -/
theorem splitOn_words_feature_eq_iff
    (spoken : ∃ word ∈ phraselist.words, ∃ c ∈ word, isBlank c = false) :
    (phraselist.feature culture).words.splitOn (.char ',') = phraselist.filledPhrases culture ↔
      ∀ word ∈ phraselist.words, .char ',' ∉ word := by
  constructor
  · intro same word member comma
    have inside := (comma_mem_phrase_iff word culture).mpr comma
    have held : Text.joinTokens (word.normalize culture) ∈ phraselist.filledPhrases culture :=
      mem_filledPhrases_iff.mpr ⟨List.ne_nil_of_mem inside, word, member, rfl⟩
    rw [← same] at held
    exact Text.not_mem_of_mem_splitOn held inside
  · intro plain
    rw [splitOn_words_feature spoken]
    refine (List.flatMap_congr fun phrase held => ?_).trans (List.flatMap_singleton' _)
    obtain ⟨-, word, member, rfl⟩ := mem_filledPhrases_iff.mp held
    exact List.splitOn_eq_singleton (mt (comma_mem_phrase_iff word culture).mp (plain word member))

end Phraselist

namespace Corpus

/-- The words of a text stand between its commas and have none. -/
theorem not_mem_wordTexts {value : Value} (row : value.isText = true) :
    ∀ word ∈ wordTexts value, .char ',' ∉ word := by
  cases value with
  | text row =>
    intro word member comma
    unfold wordTexts at member
    split_ifs at member
    · cases member
    · obtain ⟨piece, among, rfl⟩ := List.mem_map.mp (List.mem_filter.mp member).1
      exact Text.not_mem_of_mem_splitOn among (Text.mem_of_mem_trim comma)
  | _ => cases row

/-- What is read back from the feature of a phrase list that a corpus has, when at least one word is not blank:
each phrase, in order, as the pieces between its own commas. These are the phrases themselves exactly when no
word has a comma. That is so for all words that are written as one text, with commas between them; a word
of a row may have commas, and its phrase comes back in pieces. -/
theorem phrases_between_commas {raw : Value} {corpus : Corpus} (made : ofValue raw = .ok corpus)
    {listed : Phraselist} (member : listed ∈ corpus.phraselists)
    (spoken : ∃ word ∈ listed.words, ∃ c ∈ word, isBlank c = false) (culture : Text) :
    (listed.feature culture).words.splitOn (.char ',') =
      (listed.filledPhrases culture).flatMap (·.splitOn (.char ',')) ∧
    ((listed.feature culture).words.splitOn (.char ',') = listed.filledPhrases culture ↔
      ∀ word ∈ listed.words, .char ',' ∉ word) ∧
    ∃ entries items item fields, raw.opened = .map entries ∧
      (under "phraselist" entries).opened = .list items ∧ item ∈ items ∧ item.opened = .map fields ∧
      phraselist item = .ok listed ∧
      ((writtenWords fields).isText = true →
        (listed.feature culture).words.splitOn (.char ',') = listed.filledPhrases culture) := by
  have back := @Phraselist.splitOn_words_feature_eq_iff listed culture spoken
  obtain ⟨entries, items, item, fields, whole, holds, inside, mapping, read, words⟩ :=
    exists_fields_of_mem_phraselists made member
  have written : (writtenWords fields).isText = true → ∀ word ∈ listed.words, .char ',' ∉ word := by
    rw [words]
    exact not_mem_wordTexts
  exact ⟨Phraselist.splitOn_words_feature spoken, back, entries, items, item, fields, whole, holds, inside,
    mapping, read, fun row => back.mpr (written row)⟩

/-- Words with capitals, an underscore and blanks around them, written as one text and folded as Spanish. -/
theorem phrases_between_commas_of_row :
    let raw : Value := .map [(.text "phraselist", .list [.map
      [(.text "name", .text "p"), (.text "words", .text " Café_OLÉ ,, ,5º PISO")]])]
    let listed : Phraselist := ⟨"p", ["Café_OLÉ", "5º PISO"], true, true⟩
    ofValue raw = .ok { Corpus.empty with phraselists := [listed] } ∧
      (∃ word ∈ listed.words, ∃ c ∈ word, isBlank c = false) ∧
      (listed.feature "es-es").words.splitOn (.char ',') = [("café _ olé" : Text), ("5º piso" : Text)] := by
  intro raw listed
  have made : ofValue raw = .ok { Corpus.empty with phraselists := [listed] } := by decide +kernel
  have spoken : ∃ word ∈ listed.words, ∃ c ∈ word, isBlank c = false :=
    ⟨"5º PISO", by decide, 'P', by decide, by decide⟩
  obtain ⟨-, back, -⟩ := phrases_between_commas made (List.mem_singleton_self _) spoken "es-es"
  have phrases : listed.filledPhrases "es-es" = [("café _ olé" : Text), ("5º piso" : Text)] := by decide +kernel
  exact ⟨made, spoken, phrases ▸ back.mpr (by decide)⟩

/-- A word of a row has a comma, and its phrase comes back as two pieces, with blanks where the comma was. -/
theorem phrase_cut_at_its_comma :
    ¬ ∀ (raw : Value) (corpus : Corpus) (listed : Phraselist) (culture : Text),
      ofValue raw = .ok corpus → listed ∈ corpus.phraselists →
      (∃ word ∈ listed.words, ∃ c ∈ word, isBlank c = false) →
      (listed.feature culture).words.splitOn (.char ',') = listed.filledPhrases culture := by
  intro whole
  have made : ofValue (.map [(.text "phraselist", .list [.map
      [(.text "name", .text "p"), (.text "words", .list [.text "salt, pepper", .text "oil"])]])]) =
      .ok { Corpus.empty with phraselists := [⟨"p", ["salt, pepper", "oil"], true, true⟩] } := by
    decide +kernel
  have same := whole _ _ _ "en-us" made (List.mem_singleton_self _)
    ⟨"oil", by decide, 'o', by decide, by decide⟩
  have pieces : (Phraselist.feature ⟨"p", ["salt, pepper", "oil"], true, true⟩ "en-us").words.splitOn (.char ',') =
      [("salt " : Text), (" pepper" : Text), ("oil" : Text)] := by decide +kernel
  have phrases : Phraselist.filledPhrases ⟨"p", ["salt, pepper", "oil"], true, true⟩ "en-us" =
      [("salt , pepper" : Text), ("oil" : Text)] := by decide +kernel
  rw [pieces, phrases] at same
  exact absurd same (by decide)

end Corpus
end IntentModel
