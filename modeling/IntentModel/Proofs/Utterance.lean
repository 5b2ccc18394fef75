import IntentModel.Utterance
import IntentModel.Proofs.Outcome
import IntentModel.Proofs.Tag
import IntentModel.Proofs.Text.Joining
import IntentModel.Proofs.Text.TokenRanges

/-! # Mentions and the words they mark

A value that is written behind other text begins and ends at certain tokens of what has been written
so far. `exists_locate` states that these are the tokens at the first and at the last visible
character of the value in any text that goes on from there: a value that is glued to the word before
it shares the token of that word, and what follows can lengthen its last token but gives it no other
number.
-/

namespace IntentModel

namespace Text

def firstVisible (text : Text) : Nat :=
  (text.takeWhile isBlank).length

def lastVisible (text : Text) : Nat :=
  text.trimEnd.length - 1

/-- A text with tokens is blank up to its first visible character. -/
theorem exists_firstVisible {text : Text} (present : text.tokens ≠ []) :
    ∃ blanks c rest, text = blanks ++ c :: rest ∧ blanks.length = text.firstVisible ∧
      (∀ b ∈ blanks, isBlank b = true) ∧ isBlank c = false := by
  cases visible : text.dropWhile isBlank with
  | nil => exact (present (tokens_eq_nil_iff.mpr (List.dropWhile_eq_nil_iff.mp visible))).elim
  | cons c rest =>
    refine ⟨text.takeWhile isBlank, c, rest, ?_, rfl, fun b => List.mem_takeWhile_imp, ?_⟩
    · rw [← visible, List.takeWhile_append_dropWhile]
    · simpa [visible] using List.head?_dropWhile_not isBlank text

/-- A text with tokens is blank behind its last visible character. -/
theorem exists_lastVisible {text : Text} (present : text.tokens ≠ []) :
    ∃ front c blanks, text = front ++ c :: blanks ∧ front.length = text.lastVisible ∧
      (∀ b ∈ blanks, isBlank b = true) ∧ isBlank c = false := by
  have presentBack : tokens text.reverse ≠ [] := by
    simpa [tokens_eq_nil_iff] using present
  obtain ⟨blanks, c, rest, turned, -, blank, visible⟩ := exists_firstVisible presentBack
  refine ⟨rest.reverse, c, blanks.reverse, ?_, ?_, by simpa using blank, visible⟩
  · rw [← List.reverse_reverse text, turned]
    simp
  · rw [lastVisible, trimEnd, dropEndWhile, turned, List.dropWhile_append_of_pos blank]
    simp [visible]

/-- The tokens from the one at the first visible character of a value to the one at its last are those that
cover a character of the value. -/
theorem covers_value_iff {before value behind : Text} {first last : Nat}
    (present : value.tokens ≠ [])
    (starts : Covers (before ++ value ++ behind) first (before.length + value.firstVisible))
    (ends : Covers (before ++ value ++ behind) last (before.length + value.lastVisible))
    (number : Nat) :
    first ≤ number ∧ number ≤ last ↔
      ∃ offset, before.length ≤ offset ∧ offset < (before ++ value).length ∧
        Covers (before ++ value ++ behind) number offset := by
  obtain ⟨blanks, c, rest, split, firstAt, blank, -⟩ := exists_firstVisible present
  obtain ⟨front, d, blanks', split', lastAt, blank', -⟩ := exists_lastVisible present
  have sizeFirst := congrArg List.length split
  have sizeLast := congrArg List.length split'
  simp only [List.length_append, List.length_cons] at sizeFirst sizeLast ⊢
  constructor
  · rintro ⟨after, upTo⟩
    rcases Nat.eq_or_lt_of_le after with rfl | after
    · exact ⟨_, by omega, by omega, starts⟩
    rcases Nat.eq_or_lt_of_le upTo with rfl | upTo
    · exact ⟨_, by omega, by omega, ends⟩
    obtain ⟨offset, lower, upper, covered⟩ := starts.exists_between ends after upTo
    exact ⟨offset, by omega, by omega, covered⟩
  · rintro ⟨offset, lower, upper, covered⟩
    -- no token covers a blank, so the character stands between the first and the last visible one
    have within : offset - before.length < value.length := by omega
    have stands : (before ++ value ++ behind)[offset]? = some value[offset - before.length] := by
      rw [List.append_assoc, List.getElem?_append_right lower, List.getElem?_append_left within,
        List.getElem?_eq_getElem within]
    have visible := covered.isBlank_eq_false stands
    constructor
    · refine starts.le covered (Nat.le_of_not_lt fun early => ?_)
      have among : value[offset - before.length] ∈ blanks := by
        simp only [split]
        rw [List.getElem_append_left (by omega)]
        exact List.getElem_mem _
      rw [blank _ among] at visible
      cases visible
    · refine covered.le ends (Nat.le_of_not_lt fun late => ?_)
      have among : value[offset - before.length] ∈ blanks' := by
        simp only [split', List.append_cons front d blanks']
        rw [List.getElem_append_right (by simp only [List.length_append, List.length_singleton]; omega)]
        exact List.getElem_mem _
      rw [blank' _ among] at visible
      cases visible

end Text

namespace Utterance

open Text

/-- Counting tokens before and behind a value shows whether the value is glued to the token before it. -/
theorem locate_eq (label before value : Text) :
    locate label before value =
      { label
        first := if Glued before value then (before.tokens.length : Int) - 1 else before.tokens.length
        last := ((tokens (before ++ value)).length : Int) - 1 } := by
  have glued : ((tokens (before ++ value)).take before.tokens.length != before.tokens) =
      decide (Glued before value) := by
    rw [Bool.eq_iff_iff, bne_iff_ne, ne_eq, take_tokens_append_eq_iff, not_not, decide_eq_true_iff]
  simp only [locate, glued, decide_eq_true_iff]

/-- Up to its first visible character a value adds a token, unless it is glued to the one before. -/
theorem length_tokens_first {c : CodePoint} (visible : isBlank c = false) {blanks : Text}
    (blank : ∀ b ∈ blanks, isBlank b = true) (before rest : Text) :
    (tokens (before ++ blanks ++ [c])).length =
      if Glued before (blanks ++ c :: rest) then before.tokens.length
      else before.tokens.length + 1 := by
  have single := tokens_singleton visible
  cases blanks with
  | nil =>
    have same : Glued before ([] ++ c :: rest) ↔ Glued before [c] := Iff.rfl
    rw [List.append_nil, if_congr same rfl rfl]
    split_ifs with glued
    · obtain ⟨front, last, next, more, whole, own, joined⟩ := glued.exists_seam
      cases single.symm.trans own
      simp [whole, joined]
    · simp [tokens_append_of_apart glued, single]
  | cons b blanks =>
    obtain ⟨first, others⟩ := List.forall_mem_cons.mp blank
    rw [List.cons_append, if_neg (not_glued_blank first), List.append_assoc, List.cons_append,
      tokens_append_blank first, tokens_blank_append others, single, List.length_append]
    rfl

/-- A value is marked from the token at its first visible character to the token at its last one, as
these are numbered in the whole text, whatever follows the value. -/
theorem exists_locate (label before : Text) {value : Text} (present : value.tokens ≠ []) :
    ∃ first last : Nat, locate label before value = ⟨label, first, last⟩ ∧ ∀ behind : Text,
      Covers (before ++ value ++ behind) first (before.length + value.firstVisible) ∧
      Covers (before ++ value ++ behind) last (before.length + value.lastVisible) := by
  obtain ⟨blanks, c, rest, split, firstAt, blank, visible⟩ := exists_firstVisible present
  obtain ⟨front, d, blanks', split', lastAt, blank', visible'⟩ := exists_lastVisible present
  obtain ⟨first, countedFirst, coversFirst⟩ := exists_covers visible (before ++ blanks)
  obtain ⟨last, countedLast, coversLast⟩ := exists_covers visible' (before ++ front)
  have upToFirst := length_tokens_first visible blank before rest
  have whole : (tokens (before ++ value)).length = last + 1 := by
    have trimmed : before ++ value = before ++ front ++ [d] ++ blanks' := by simp [split']
    rw [trimmed, tokens_append_blanks blank', countedLast]
  refine ⟨first, last, ?_, fun behind => ⟨?_, ?_⟩⟩
  · rw [← split, countedFirst] at upToFirst
    simp only [locate_eq, whole, Mention.mk.injEq, true_and]
    split_ifs at upToFirst ⊢ with glued
    · omega
    · omega
  · have covered := coversFirst (rest ++ behind)
    rw [← firstAt, ← List.length_append]
    simpa [split] using covered
  · have covered := coversLast (blanks' ++ behind)
    rw [← lastAt, ← List.length_append]
    simpa [split'] using covered

/-! ## Reading a sentence -/

/-- A span is read when its value has tokens: the text up to the span and then the value are written, and
the value is marked. -/
theorem Draft.read_eq_ok_iff {sentence : Text} {draft next : Draft} {span : Span} :
    draft.read sentence span = .ok next ↔
      span.tag.value.tokens ≠ [] ∧
        next =
          { plain := draft.plain ++ sentence.slice draft.cursor span.start ++ span.tag.value
            cursor := span.stop
            mentions := draft.mentions ++ [locate span.tag.label
              (draft.plain ++ sentence.slice draft.cursor span.start) span.tag.value] } := by
  simp only [read, List.isEmpty_iff]
  split_ifs with empty
  · simp [empty]
  · simp [empty, eq_comm]

/-- What a tag of a sentence is marked with: its value as it stands behind the plain text of all that
is written before the tag. -/
def mentionOf (sentence : Text) (span : Span) : Mention :=
  locate span.tag.label (withoutTags (sentence.take span.start)) span.tag.value

/-- The draft holds the plain text of the part that has been read, and no tag begins in that part and
ends behind it. -/
structure Draft.HasRead (draft : Draft) (done : Text) : Prop where
  cursor : draft.cursor = done.length
  plain : draft.plain = done.withoutTags
  closed : ∀ rest : Text, withoutTags (done ++ rest) = withoutTags done ++ withoutTags rest

/-- Reading the free text before a tag and the tag itself. -/
theorem Draft.HasRead.next {draft next : Draft} {done free rest : Text} {span : Span}
    (hasRead : draft.HasRead done) (untagged : TagFree free) (formed : span.tag.WellFormed)
    (starts : span.start = (done ++ free).length)
    (stops : span.stop = (done ++ free ++ span.tag.text).length)
    (step : Draft.read (done ++ free ++ span.tag.text ++ rest) draft span = .ok next) :
    next.HasRead (done ++ free ++ span.tag.text) ∧ span.tag.value.tokens ≠ [] ∧
      next.mentions =
        draft.mentions ++ [mentionOf (done ++ free ++ span.tag.text ++ rest) span] := by
  have before : draft.plain ++ slice (done ++ free ++ span.tag.text ++ rest) draft.cursor span.start =
      withoutTags (done ++ free) := by
    rw [hasRead.closed, withoutTags_of_tagFree untagged, hasRead.plain, hasRead.cursor, starts, slice,
      List.append_assoc (done ++ free), List.take_left', List.drop_left']
    all_goals rfl
  have around := withoutTags_around formed (done ++ free)
  have ended := withoutTags_append_tag formed (done ++ free)
  obtain ⟨filled, rfl⟩ := Draft.read_eq_ok_iff.mp step
  rw [before]
  refine ⟨⟨stops, ended.symm, fun more => ?_⟩, filled, ?_⟩
  · rw [around, ended]
  · rw [mentionOf, starts, List.append_assoc (done ++ free), List.take_left' rfl]

/-- Where a draft stands between the tags that have been read and those that are still to come. -/
structure Reading (sentence : Text) (remaining : List Span) (draft : Draft) : Prop where
  cut : ∃ done rest, sentence = done ++ rest ∧ remaining = spansFrom done.length rest ∧
    draft.HasRead done
  marked : ∃ behind, sentence.spans = behind ++ remaining ∧
    draft.mentions = behind.map (mentionOf sentence) ∧
    ∀ span ∈ behind, span.tag.value.tokens ≠ []

theorem Reading.start (sentence : Text) : Reading sentence sentence.spans ⟨[], 0, []⟩ :=
  ⟨⟨[], sentence, rfl, rfl, rfl, rfl, fun _ => rfl⟩, [], rfl, rfl, by simp⟩

theorem Reading.step {sentence : Text} {span : Span} {remaining : List Span} {draft next : Draft}
    (reading : Reading sentence (span :: remaining) draft)
    (step : Draft.read sentence draft span = .ok next) : Reading sentence remaining next := by
  obtain ⟨⟨done, text, rfl, split, hasRead⟩, behind, spans, mentions, present⟩ := reading
  obtain ⟨free, rest, rfl, untagged, formed, starts, stops, later⟩ :=
    exists_of_spansFrom_cons split.symm
  have whole : done ++ (free ++ span.tag.text ++ rest) = done ++ free ++ span.tag.text ++ rest := by
    simp only [List.append_assoc]
  have placed : span.stop = (done ++ free ++ span.tag.text).length := by
    simp only [stops, List.length_append, Nat.add_assoc]
  rw [whole] at step spans mentions ⊢
  obtain ⟨nextRead, filled, marked⟩ := hasRead.next untagged formed
    (by rw [starts, List.length_append]) placed step
  refine ⟨⟨_, rest, rfl, by rw [later, placed], nextRead⟩, behind ++ [span],
    spans.trans (List.append_cons ..), ?_, ?_⟩
  · rw [marked, mentions, List.map_append, List.map_singleton]
  · intro other member
    rcases List.mem_append.mp member with member | member
    · exact present other member
    · rw [List.mem_singleton.mp member]
      exact filled

/-- Behind the last tag only free text is left. -/
theorem Reading.finish {sentence : Text} {draft : Draft} (reading : Reading sentence [] draft) :
    draft.plain ++ sentence.drop draft.cursor = withoutTags sentence := by
  obtain ⟨⟨done, rest, rfl, empty, hasRead⟩, -⟩ := reading
  have untagged := (spansFrom_eq_nil_iff _ _).mp empty.symm
  rw [hasRead.closed, withoutTags_of_tagFree untagged, hasRead.plain, hasRead.cursor, List.drop_left]

/-- The utterance of a sentence, if it has one, holds the plain text of the sentence, and each tag is
marked behind the plain text of what is written before it. -/
theorem eq_of_ofSpans_spans {sentence intent : Text} {utterance : Utterance}
    (built : ofSpans sentence intent sentence.spans = .ok utterance) :
    (∀ span ∈ sentence.spans, span.tag.value.tokens ≠ []) ∧
      utterance =
        { text := sentence.withoutTags.joinTokens, intent
          mentions := sentence.spans.map (mentionOf sentence) } := by
  obtain ⟨draft, run, finished⟩ := bind_eq_ok_iff.mp built
  have reading := foldlM_preserves (Reading sentence) (fun _ _ _ _ => Reading.step)
    (Reading.start sentence) run
  obtain ⟨behind, spans, mentions, present⟩ := reading.marked
  rw [List.append_nil] at spans
  cases finished
  refine ⟨spans ▸ present, ?_⟩
  rw [mentions, spans, ← reading.finish]

/-- The mentions of an utterance answer to the tags of its sentence one by one. The value of a tag
stands in the plain text between the plain texts of what is written before and behind the tag; the
mention bears the label of the tag, and its ends are the numbers of the tokens of the whole plain
text that cover the first and the last visible character of the value there. -/
theorem mentions_cover_values {sentence intent : Text} {utterance : Utterance}
    (built : ofSentence sentence intent = .ok utterance ∨
      ofSpans sentence intent sentence.spans = .ok utterance) :
    utterance.mentions.length = sentence.spans.length ∧
      ∀ (k : Nat) (span : Span), sentence.spans[k]? = some span →
        ∃ (first last : Nat) (before behind : Text),
          utterance.mentions[k]? = some ⟨span.tag.label, first, last⟩ ∧
          sentence = before ++ span.tag.text ++ behind ∧
          before.length = span.start ∧
          sentence.withoutTags =
            before.withoutTags ++ span.tag.value ++ behind.withoutTags ∧
          Covers sentence.withoutTags first
            (before.withoutTags.length + span.tag.value.firstVisible) ∧
          Covers sentence.withoutTags last
            (before.withoutTags.length + span.tag.value.lastVisible) := by
  have handed : ofSpans sentence intent sentence.spans = .ok utterance := built.elim id id
  obtain ⟨present, rfl⟩ := eq_of_ofSpans_spans handed
  refine ⟨List.length_map .., fun k span found => ?_⟩
  have member := List.mem_of_getElem? found
  obtain ⟨before, behind, whole, formed, starts, -⟩ := exists_of_mem_spansFrom member
  have placed : before.length = span.start := by rw [starts, Nat.zero_add]
  have around : sentence.withoutTags = before.withoutTags ++ span.tag.value ++ behind.withoutTags := by
    rw [whole, withoutTags_around formed]
  have upTo : sentence.take span.start = before := by
    rw [whole, List.append_assoc, List.take_left' placed]
  obtain ⟨first, last, located, covers⟩ :=
    exists_locate span.tag.label before.withoutTags (present span member)
  have covered := covers behind.withoutTags
  refine ⟨first, last, before, behind, ?_, whole, placed, around, ?_, ?_⟩
  · simp [found, mentionOf, upTo, located]
  · exact around ▸ covered.1
  · exact around ▸ covered.2

/-- A value that is glued to the word before it, and one that begins and ends with a blank. -/
theorem mentions_cover_glued_values :
    ofSentence "a5[º:o][ x_y :p::q]ºb" "i" =
        .ok ⟨"a5º x _ y º b", "i", [⟨"o", 0, 0⟩, ⟨"p::q", 1, 3⟩]⟩ ∧
      Covers "a5º x_y ºb" 1 4 ∧ Covers "a5º x_y ºb" 3 6 := by
  have built : ofSentence "a5[º:o][ x_y :p::q]ºb" "i" =
      .ok ⟨"a5º x _ y º b", "i", [⟨"o", 0, 0⟩, ⟨"p::q", 1, 3⟩]⟩ := by rfl
  obtain ⟨first, last, before, behind, marked, whole, placed, -, starts, ends⟩ :=
    (mentions_cover_values (.inl built)).2 1 ⟨⟨" x_y ", "p::q"⟩, 7, 19⟩ (by rfl)
  obtain rfl : ("a5[º:o]" : Text) = before := by
    rw [← List.take_left' placed, ← List.append_assoc, ← whole]
    rfl
  obtain ⟨atFirst, atLast⟩ : (1 : Int) = first ∧ (3 : Int) = last := by simpa using marked
  obtain rfl : first = 1 := by omega
  obtain rfl : last = 3 := by omega
  exact ⟨built, starts, ends⟩

end Utterance
end IntentModel
