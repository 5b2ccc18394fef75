import IntentModel.Proofs.CompilationFault

/-! # Mentions in bounds

Spans need not be those of the tags of a sentence: they may stand in any order, overlap, reach beyond the
end or hold other words. Whatever is cut out of the sentence for them, the plain text only grows and never
loses a token. A mention ends with the last token written so far, and the next one begins with that token
or behind it, so all mentions are ranges of the final text, in order (`ofSpans_outcome`).
-/

namespace IntentModel.Utterance

open Text

/-- Each mention is a range of the tokens that have been counted, and none begins before the one in front
of it ends. -/
structure InBounds (mentions : List Mention) (count : Nat) : Prop where
  within : ∀ mention ∈ mentions,
    0 ≤ mention.first ∧ mention.first ≤ mention.last ∧ mention.last < count
  ordered : mentions.Pairwise fun mention next => mention.last ≤ next.first

variable {sentence intent : Text} {spans : List Span} {mentions : List Mention} {count : Nat}

theorem InBounds.mono {more : Nat} (bounds : InBounds mentions count) (grown : count ≤ more) :
    InBounds mentions more := by
  refine ⟨fun mention member => ?_, bounds.ordered⟩
  obtain ⟨lower, forward, upper⟩ := bounds.within mention member
  exact ⟨lower, forward, by omega⟩

/-- One more mention, which may begin with the last token that had been counted before. -/
theorem InBounds.concat {more first last : Nat} (bounds : InBounds mentions count) (label : Text)
    (behind : count ≤ first + 1) (forward : first ≤ last) (inside : last < more) :
    InBounds (mentions ++ [⟨label, first, last⟩]) more := by
  constructor
  · intro mention member
    rcases List.mem_append.mp member with member | member
    · obtain ⟨lower, ahead, upper⟩ := bounds.within mention member
      exact ⟨lower, ahead, by omega⟩
    · obtain rfl := List.mem_singleton.mp member
      dsimp only
      omega
  · refine List.pairwise_append.mpr ⟨bounds.ordered, List.pairwise_singleton _ _, ?_⟩
    intro mention member next added
    obtain rfl := List.mem_singleton.mp added
    have upper := (bounds.within mention member).2.2
    dsimp only
    omega

/-- A value is marked up to the last token of all that is written, from the last token that stood before
it or from the next one. -/
theorem exists_bounds_locate (label before : Text) {value : Text} (present : value.tokens ≠ []) :
    ∃ first last : Nat, locate label before value = ⟨label, first, last⟩ ∧
      before.tokens.length ≤ first + 1 ∧ first ≤ last ∧
      (tokens (before ++ value)).length = last + 1 := by
  rw [locate_eq]
  split_ifs with glued
  · obtain ⟨front, last, next, rest, whole, -, joined⟩ := glued.exists_seam
    refine ⟨front.length, front.length + rest.length, ?_, ?_, Nat.le_add_right .., ?_⟩
    · simp [whole, joined]
      omega
    · simp [whole]
    · simp [joined]
      omega
  · obtain ⟨next, rest, own⟩ := List.exists_cons_of_ne_nil present
    have whole := tokens_append_of_apart glued
    refine ⟨before.tokens.length, before.tokens.length + rest.length, ?_, Nat.le_succ _,
      Nat.le_add_right .., ?_⟩
    · simp [whole, own]
      omega
    · simp [whole, own]
      omega

/-- Reading a span keeps all mentions within the tokens written so far. -/
theorem Draft.inBounds_read {draft next : Draft} {span : Span}
    (bounds : InBounds draft.mentions draft.plain.tokens.length)
    (step : draft.read sentence span = .ok next) :
    InBounds next.mentions next.plain.tokens.length := by
  obtain ⟨present, rfl⟩ := read_eq_ok_iff.mp step
  have grown := length_tokens_le draft.plain (sentence.slice draft.cursor span.start)
  obtain ⟨first, last, located, behind, forward, counted⟩ := exists_bounds_locate span.tag.label
    (draft.plain ++ sentence.slice draft.cursor span.start) present
  have inside : last < (tokens (draft.plain ++ sentence.slice draft.cursor span.start ++
      span.tag.value)).length := by omega
  rw [located]
  exact bounds.concat _ (by omega) forward inside

/-- The mentions of an utterance are ranges of the tokens of its text. -/
theorem inBounds_of_ofSpans {utterance : Utterance}
    (built : ofSpans sentence intent spans = .ok utterance) :
    InBounds utterance.mentions utterance.text.tokens.length := by
  obtain ⟨draft, run, finished⟩ := bind_eq_ok_iff.mp built
  have bounds := foldlM_preserves
    (fun _ (draft : Draft) => InBounds draft.mentions draft.plain.tokens.length)
    (fun _ _ _ _ bounds step => Draft.inBounds_read bounds step) ⟨by simp, .nil⟩ run
  cases finished
  rw [tokens_joinTokens]
  exact bounds.mono (length_tokens_le _ _)

/-- Spans that do not fit their sentence are refused only for a blank value, and the first of them is to
blame. Otherwise there is one mention for each span, in the given order; each is a range of tokens of the
text, and none begins before the one in front of it ends. -/
theorem ofSpans_outcome (sentence intent : Text) (spans : List Span) :
    (∀ error, ofSpans sentence intent spans = .error error ↔
      ∃ before span after, spans = before ++ span :: after ∧
        (∀ earlier ∈ before, ¬ earlier.tag.IsBlank) ∧ span.tag.IsBlank ∧
        error = ⟨span.tag, sentence⟩) ∧
    ((∀ span ∈ spans, ¬ span.tag.IsBlank) →
      ∃ utterance, ofSpans sentence intent spans = .ok utterance ∧
        utterance.intent = intent ∧ utterance.labels = spans.map (·.tag.label) ∧
        InBounds utterance.mentions utterance.text.tokens.length) := by
  refine ⟨fun _ => ofSpans_eq_error_iff, fun visible => ?_⟩
  obtain ⟨utterance, built⟩ := exists_ofSpans_eq_ok_iff.mpr visible
  refine ⟨utterance, built, ?_, labels_of_ofSpans built, inBounds_of_ofSpans built⟩
  obtain ⟨draft, -, finished⟩ := bind_eq_ok_iff.mp built
  cases finished
  rfl

/-- The second span ends before the first begins, the third begins beyond the end of the sentence, and the
second value shares the token to which the first one is glued. -/
theorem ofSpans_outcome_astray :
    ofSpans "a b" "i" [⟨⟨"5", "p"⟩, 3, 1⟩, ⟨⟨"º", "q"⟩, 0, 1⟩, ⟨⟨" c", "r"⟩, 20, 9⟩] =
        .ok ⟨"a b5º b c", "i", [⟨"p", 1, 1⟩, ⟨"q", 1, 1⟩, ⟨"r", 3, 3⟩]⟩ ∧
      InBounds [⟨"p", 1, 1⟩, ⟨"q", 1, 1⟩, ⟨"r", 3, 3⟩] 4 := by
  have built : ofSpans "a b" "i" [⟨⟨"5", "p"⟩, 3, 1⟩, ⟨⟨"º", "q"⟩, 0, 1⟩, ⟨⟨" c", "r"⟩, 20, 9⟩] =
      .ok ⟨"a b5º b c", "i", [⟨"p", 1, 1⟩, ⟨"q", 1, 1⟩, ⟨"r", 3, 3⟩]⟩ := by rfl
  have visible := exists_ofSpans_eq_ok_iff.mp ⟨_, built⟩
  obtain ⟨utterance, own, -, -, bounds⟩ := (ofSpans_outcome "a b" "i" _).2 visible
  cases built.symm.trans own
  exact ⟨built, bounds⟩

end IntentModel.Utterance
