import IntentModel.Proofs.Tag

/-! # All tags of a sentence

`Span.Written` says by the grammar alone that a tag is written between two offsets of a sentence. The
tags of a sentence are all that are written in it (`mem_spans_iff`), from left to right, and no two of
them share a character (`pairwise_spansFrom`). A search need not look at each place for itself: one that
tries short values and labels first and goes on behind each tag it has found finds the same tags
(`search_eq_spansFrom`), since no tag begins among the characters it passes over.
-/

namespace IntentModel

/-- Between the offsets of the span, which lie inside the sentence, its tag is written: an opening
bracket, a value, a colon, a label and a closing bracket. The value is free of brackets and colons, the
label is free of brackets, and neither is empty. -/
structure Span.Written (span : Span) (sentence : Text) : Prop where
  inside : span.stop ≤ sentence.length
  characters : sentence.slice span.start span.stop =
    .char '[' :: span.tag.value ++ .char ':' :: span.tag.label ++ [.char ']']
  value : span.tag.value ≠ [] ∧ ∀ c ∈ span.tag.value, c ≠ '[' ∧ c ≠ ']' ∧ c ≠ ':'
  label : span.tag.label ≠ [] ∧ ∀ c ∈ span.tag.label, c ≠ '[' ∧ c ≠ ']'

theorem Tag.wellFormed_iff {tag : Tag} :
    tag.WellFormed ↔
      (tag.value ≠ [] ∧ ∀ c ∈ tag.value, c ≠ '[' ∧ c ≠ ']' ∧ c ≠ ':') ∧
        (tag.label ≠ [] ∧ ∀ c ∈ tag.label, c ≠ '[' ∧ c ≠ ']') := by
  have valueChar (c : CodePoint) : isValueChar c = true ↔ c ≠ '[' ∧ c ≠ ']' ∧ c ≠ ':' := by
    simp [isValueChar, and_assoc]
  have labelChar (c : CodePoint) : isLabelChar c = true ↔ c ≠ '[' ∧ c ≠ ']' := by
    simp [isLabelChar]
  simp only [← valueChar, ← labelChar]
  constructor
  · intro formed
    exact ⟨⟨formed.value_ne_nil, formed.value_chars⟩, formed.label_ne_nil, formed.label_chars⟩
  · rintro ⟨⟨value, valueChars⟩, label, labelChars⟩
    exact ⟨value, label, valueChars, labelChars⟩

/-- A written tag stands between two parts of the sentence, and its offsets are where they end and
begin. -/
theorem Span.written_iff {span : Span} {sentence : Text} :
    span.Written sentence ↔
      span.tag.WellFormed ∧ ∃ before behind, sentence = before ++ span.tag.text ++ behind ∧
        span.start = before.length ∧ span.stop = (before ++ span.tag.text).length := by
  constructor
  · intro written
    have characters : sentence.slice span.start span.stop = span.tag.text := written.characters
    have counted := congrArg List.length characters
    have present : 0 < span.tag.text.length := by simp [Tag.text]
    have inside := written.inside
    rw [Text.slice, List.length_drop, List.length_take, Nat.min_eq_left inside] at counted
    have upTo : (sentence.take span.stop).take span.start ++ span.tag.text =
        sentence.take span.stop := by
      rw [← characters, Text.slice, List.take_append_drop]
    refine ⟨Tag.wellFormed_iff.mpr ⟨written.value, written.label⟩,
      (sentence.take span.stop).take span.start, sentence.drop span.stop, ?_, ?_, ?_⟩
    · rw [upTo, List.take_append_drop]
    · simp only [List.length_take]
      omega
    · rw [upTo, List.length_take, Nat.min_eq_left inside]
  · rintro ⟨formed, before, behind, rfl, starts, stops⟩
    obtain ⟨value, label⟩ := Tag.wellFormed_iff.mp formed
    refine ⟨?_, ?_, value, label⟩
    · simp only [stops, List.length_append, Nat.le_add_right]
    · rw [starts, stops, Text.slice, List.take_left, List.drop_left]
      rfl

namespace Text

open Tag

/-! ## None is missed -/

/-- The tags of a sentence are those that are written in it. -/
theorem mem_spans_iff {sentence : Text} {span : Span} :
    span ∈ sentence.spans ↔ span.Written sentence := by
  rw [Span.written_iff]
  constructor
  · intro member
    obtain ⟨before, behind, whole, formed, starts, stops⟩ := exists_of_mem_spansFrom member
    rw [Nat.zero_add] at starts stops
    exact ⟨formed, before, behind, whole, starts, stops⟩
  · rintro ⟨formed, before, behind, rfl, starts, stops⟩
    -- the bracket of the tag cuts the sentence, so nothing before it can reach over the tag
    have cut := spansFrom_append_bracket 0 before
      (span.tag.value ++ .char ':' :: (span.tag.label ++ .char ']' :: behind))
    rw [← text_append, spansFrom_tag formed, Nat.zero_add, ← starts, ← List.append_assoc] at cut
    rw [List.length_append, ← starts] at stops
    rw [spans, cut, ← stops]
    exact List.mem_append_right _ (List.mem_cons_self ..)

/-- A tag ends before the next one begins. -/
theorem pairwise_spansFrom (offset : Nat) (text : Text) :
    (spansFrom offset text).Pairwise fun earlier later =>
      earlier.start < later.start ∧ earlier.stop ≤ later.start := by
  generalize split : spansFrom offset text = spans
  induction spans generalizing offset text with
  | nil => exact .nil
  | cons first spans ih =>
    obtain ⟨free, rest, -, -, -, starts, stops, later⟩ := exists_of_spansFrom_cons split
    refine List.pairwise_cons.mpr ⟨fun other member => ?_, ih first.stop rest later.symm⟩
    obtain ⟨before, -, -, -, behind, -⟩ := exists_of_mem_spansFrom (later ▸ member)
    have present : 0 < first.tag.text.length := by simp [Tag.text]
    rw [List.length_append] at stops
    omega

/-! ## A search that leaves out what it has found -/

variable {α : Type}

/-- Reads one given character and then what `next?` reads. -/
def expect? (c : CodePoint) (next? : Text → Option α) : Text → Option α
  | [] => none
  | d :: text => if d = c then next? text else none

/-- Reads characters of a class, one at least and then as few as let `next?` read what follows. -/
def fewest? (inClass : CodePoint → Bool) (next? : Text → Option α) : Text → Option (Text × α)
  | [] => none
  | c :: text =>
    if inClass c then
      match next? text with
      | some result => some ([c], result)
      | none => (fewest? inClass next? text).map fun (run, result) => (c :: run, result)
    else none

/-- Reads a label up to a closing bracket. -/
def shortestLabel? : Text → Option (Text × Unit) :=
  fewest? isLabelChar (expect? ']' fun _ => some ())

/-- Reads a value up to a colon with a label behind it. -/
def shortestValue? : Text → Option (Text × Text × Unit) :=
  fewest? isValueChar (expect? ':' shortestLabel?)

/-- Reads the tag with the shortest value, and with the shortest label behind it, that begins a text. -/
def shortestTag? (text : Text) : Option Tag :=
  (expect? '[' shortestValue? text).map fun (value, label, _) => ⟨value, label⟩

/-- The tags that a search from the left finds when it goes on behind each of them. -/
def search (offset : Nat) : Text → List Span
  | [] => []
  | c :: text =>
    match shortestTag? (c :: text) with
    | some tag =>
      ⟨tag, offset, offset + tag.text.length⟩ ::
        search (offset + tag.text.length) (text.drop (tag.text.length - 1))
    | none => search (offset + 1) text
termination_by text => text.length
decreasing_by all_goals simp only [List.length_drop, List.length_cons]; omega

/-- What cannot go on with a character of the class leaves a run no choice but to take them all. -/
theorem fewest?_eq {inClass : CodePoint → Bool} {next? : Text → Option α}
    (stops : ∀ c text, inClass c = true → next? (c :: text) = none) (text : Text) :
    fewest? inClass next? text =
      if text.takeWhile inClass = [] then none
      else (next? (text.dropWhile inClass)).map (text.takeWhile inClass, ·) := by
  induction text with
  | nil => rfl
  | cons c text ih =>
    cases first : inClass c with
    | false => simp [fewest?, first]
    | true =>
      rw [fewest?, if_pos first, ih]
      cases text with
      | nil => cases ended : next? [] <;> simp [first, ended]
      | cons d text =>
        cases second : inClass d with
        | false => cases ended : next? (d :: text) <;> simp [first, second, ended]
        | true => simp [first, second, stops d text second, Option.map_map, Function.comp_def]

theorem expect?_of_ne {c d : CodePoint} (other : d ≠ c) (next? : Text → Option α) (text : Text) :
    expect? c next? (d :: text) = none := by
  rw [expect?, if_neg other]

/-- A label ends at a bracket, so the shortest one is the longest one. -/
theorem shortestLabel?_eq (text : Text) :
    shortestLabel? text =
      if text.takeWhile isLabelChar = [] then none
      else (expect? ']' (fun _ => some ()) (text.dropWhile isLabelChar)).map
        (text.takeWhile isLabelChar, ·) := by
  refine fewest?_eq (fun c rest inside => expect?_of_ne ?_ _ rest) text
  rintro rfl
  exact absurd inside (by decide)

/-- A value ends at a colon, so the shortest one is the longest one. -/
theorem shortestValue?_eq (text : Text) :
    shortestValue? text =
      if text.takeWhile isValueChar = [] then none
      else (expect? ':' shortestLabel? (text.dropWhile isValueChar)).map
        (text.takeWhile isValueChar, ·) := by
  refine fewest?_eq (fun c rest inside => expect?_of_ne ?_ _ rest) text
  rintro rfl
  exact absurd inside (by decide)

theorem shortestTag?_eq_read? (text : Text) : shortestTag? text = read? text := by
  cases text with
  | nil => rfl
  | cons c text =>
    by_cases opened : c = '['
    · subst opened
      simp only [shortestTag?, expect?, read?, shortestValue?_eq, shortestLabel?_eq, if_true]
      generalize text.takeWhile isValueChar = value, text.dropWhile isValueChar = behindValue
      cases behindValue with
      | nil => grind
      | cons d rest =>
        generalize rest.takeWhile isLabelChar = label, rest.dropWhile isLabelChar = behindLabel
        grind
    · rw [read?_of_ne opened, shortestTag?, expect?_of_ne opened]
      rfl

/-- Going on behind each tag that is found misses none. -/
theorem search_eq_spansFrom (offset : Nat) (text : Text) :
    search offset text = spansFrom offset text := by
  fun_induction search offset text with
  | case1 offset => rfl
  | case2 offset c text tag found ih =>
    rw [shortestTag?_eq_read?] at found
    obtain ⟨formed, rest, whole⟩ := of_read? found
    have behind : text.drop (tag.text.length - 1) = rest := by
      have dropped : (c :: text).drop tag.text.length = rest := by rw [whole, List.drop_left]
      simpa [Tag.text] using dropped
    rw [ih, behind, whole, spansFrom_tag formed]
  | case3 offset c text nothing ih =>
    rw [shortestTag?_eq_read?] at nothing
    rw [ih, spansFrom_cons_none nothing]

/-- The tags of a sentence are exactly those that are written in it, by increasing offsets and apart
from one another. Each is what stands between its offsets, and a search that goes on behind each tag it
has found finds them all. -/
theorem spans_are_all_written (sentence : Text) :
    (∀ span, span ∈ sentence.spans ↔ span.Written sentence) ∧
      (sentence.spans.Pairwise fun earlier later =>
        earlier.start < later.start ∧ earlier.stop ≤ later.start) ∧
      (∀ span ∈ sentence.spans, sentence.slice span.start span.stop = span.tag.text) ∧
      sentence.search 0 = sentence.spans :=
  ⟨fun _ => mem_spans_iff, pairwise_spansFrom 0 sentence,
    fun _ member => (mem_spans_iff.mp member).characters, search_eq_spansFrom 0 sentence⟩

/-- Failed starts, an empty value and an empty label keep no tag from being found; the first colon ends
the value. -/
example :
    Text.spans "[a[:x][b:][[c::d]e:]f]" = [⟨⟨"c", ":d"⟩, 11, 17⟩] := by decide

end Text
end IntentModel
