import IntentModel.Proofs.Collection
import IntentModel.Proofs.CompilationFault
import IntentModel.Proofs.Tag.Pieces
import IntentModel.Proofs.Text.BlankRuns

/-! # Sentences that differ in blanks only

A run of blanks lies in free text, in the value of a tag or in a label (`RunPlace`). Outside of labels
another run may stand in its place: the sentence keeps its tags, since what is written between brackets
stays well formed and free text stays free of tags, and each piece of it is exchanged for one that has the
same tokens in any surroundings (`exists_exchange`). The utterance is made from the tokens of the pieces alone,
so it is the same. Where several runs give way, the last one goes first, so that the labels before it, and
the runs between them, are still where they were (`RespacedBehind.ofSentence_iff`).
-/

namespace IntentModel

open Text

/-! ## Blanks around and inside a tag -/

/-- The offset at which the label of a tag begins, behind the bracket, the value and the colon. -/
def Span.labelStart (span : Span) : Nat :=
  span.start + span.tag.value.length + 2

/-- The offset just past the label of a tag, where the closing bracket stands. -/
def Span.labelStop (span : Span) : Nat :=
  span.stop - 1

/-- What stands between two offsets is outside the labels of all spans. -/
def OutsideLabels (spans : List Span) (start stop : Nat) : Prop :=
  ∀ span ∈ spans, stop ≤ span.labelStart ∨ span.labelStop ≤ start

instance (spans : List Span) (start stop : Nat) : Decidable (OutsideLabels spans start stop) :=
  List.decidableBAll _ spans

/-- Behind `done`, runs of blanks give way to others at the same time, each of them outside the labels of
the tags or a part of such a run. -/
inductive RespacedBehind (tags : List Span) : Text → Text → Text → Prop
  | rest (done behind : Text) : RespacedBehind tags done behind behind
  | run {done kept run other behind respaced : Text} : IsBlankRun run → IsBlankRun other →
      OutsideLabels tags (done ++ kept).length (done ++ kept ++ run).length →
      RespacedBehind tags (done ++ kept ++ run) behind respaced →
      RespacedBehind tags done (kept ++ run ++ behind) (kept ++ other ++ respaced)

/-- Runs of blanks outside the labels of a sentence give way to others. -/
def Respaced (sentence respaced : Text) : Prop :=
  RespacedBehind sentence.spans [] sentence respaced

/-- The other spans have their labels where the spans have theirs, or begin them at an offset or behind
it. -/
def LabelsKept (upTo : Nat) (spans others : List Span) : Prop :=
  ∀ other ∈ others, upTo ≤ other.labelStart ∨
    ∃ span ∈ spans, span.labelStart = other.labelStart ∧ span.labelStop = other.labelStop

/-- Where a run between two texts lies in a sentence that holds a tag between two others. -/
inductive RunPlace (front : Text) (tag : Tag) (rest before run behind : Text) : Prop
  | front (more : Text) : front = before ++ run ++ more → behind = more ++ tag.text ++ rest →
      RunPlace front tag rest before run behind
  | value (first last : Text) : tag.value = first ++ run ++ last → before = front ++ .char '[' :: first →
      behind = last ++ .char ':' :: (tag.label ++ .char ']' :: rest) → RunPlace front tag rest before run behind
  | label (first last : Text) : tag.label = first ++ run ++ last →
      before = front ++ .char '[' :: (tag.value ++ .char ':' :: first) → behind = last ++ .char ']' :: rest →
      RunPlace front tag rest before run behind
  | rest (more : Text) : before = front ++ tag.text ++ more → rest = more ++ run ++ behind →
      RunPlace front tag rest before run behind

theorem OutsideLabels.of_labelsKept {spans others : List Span} {start stop : Nat}
    (outside : OutsideLabels spans start stop) (kept : LabelsKept stop spans others) :
    OutsideLabels others start stop := by
  intro other member
  rcases kept other member with behind | ⟨span, among, sameStart, sameStop⟩
  · exact .inl behind
  · exact sameStart ▸ sameStop ▸ outside span among

namespace LabelsKept

variable {spans others : List Span} {upTo : Nat}

theorem refl (upTo : Nat) (spans : List Span) : LabelsKept upTo spans spans :=
  fun span member => .inr ⟨span, member, rfl, rfl⟩

theorem trans {middle : List Span} {less : Nat} (first : LabelsKept upTo spans middle)
    (second : LabelsKept less middle others) (before : less ≤ upTo) : LabelsKept less spans others := by
  intro other member
  rcases second other member with behind | ⟨span, among, sameStart, sameStop⟩
  · exact .inl behind
  · rcases first span among with behind | ⟨source, origin, start, stop⟩
    · exact .inl (sameStart ▸ before.trans behind)
    · exact .inr ⟨source, origin, start.trans sameStart, stop.trans sameStop⟩

theorem mono {less : Nat} (kept : LabelsKept upTo spans others) (before : less ≤ upTo) :
    LabelsKept less spans others :=
  kept.trans (refl less others) before

theorem cons (kept : LabelsKept upTo spans others) (span : Span) :
    LabelsKept upTo (span :: spans) (span :: others) := by
  intro other member
  rcases List.mem_cons.mp member with rfl | later
  · exact .inr ⟨other, List.mem_cons_self .., rfl, rfl⟩
  · rcases kept other later with behind | ⟨source, origin, same⟩
    · exact .inl behind
    · exact .inr ⟨source, List.mem_cons_of_mem _ origin, same⟩

/-- Tags that are written from an offset on have their labels behind it. -/
theorem of_place {offset : Nat} (spans : List Span) (before : upTo ≤ offset)
    (tagged : List (Tag × Text)) : LabelsKept upTo spans (Pieces.place offset tagged) := by
  induction tagged generalizing offset with
  | nil => exact fun _ absent => absurd absent List.not_mem_nil
  | cons piece tagged ih =>
    intro span member
    rcases List.mem_cons.mp member with rfl | later
    · exact .inl (by simp only [Span.labelStart]; omega)
    · exact ih (by omega) span later

end LabelsKept

variable {front rest before run other behind : Text} {tag : Tag}

/-- The brackets and the colon of a tag are no blanks, so a run lies between two of them. -/
theorem runPlace_of_eq (blanks : IsBlankRun run)
    (whole : front ++ tag.text ++ rest = before ++ run ++ behind) :
    RunPlace front tag rest before run behind := by
  rw [List.append_assoc, Tag.text_append] at whole
  have opening : isBlank '[' = false := by decide
  have colon : isBlank ':' = false := by decide
  have closing : isBlank ']' = false := by decide
  rcases run_around_visible opening blanks whole with ⟨more, early, late⟩ | ⟨inValue, early, whole⟩
  · exact .front more early (by rw [late, List.append_assoc, Tag.text_append])
  rcases run_around_visible colon blanks whole with ⟨last, value, late⟩ | ⟨inLabel, onward, whole⟩
  · exact .value inValue last value early late
  rcases run_around_visible closing blanks whole with ⟨last, label, late⟩ | ⟨more, behindLabel, late⟩
  · exact .label inLabel last label (by rw [early, onward]) late
  · exact .rest more (by rw [early, onward, behindLabel]; simp [Tag.text]) late

theorem isValueChar_of_isBlank {c : CodePoint} (blank : isBlank c = true) : Tag.isValueChar c = true := by
  simp only [Tag.isValueChar, Bool.and_eq_true, bne_iff_ne]
  refine ⟨⟨?_, ?_⟩, ?_⟩
  all_goals
    rintro rfl
    exact absurd blank (by decide)

theorem isLabelChar_of_isBlank {c : CodePoint} (blank : isBlank c = true) : Tag.isLabelChar c = true := by
  have allowed := isValueChar_of_isBlank blank
  simp only [Tag.isValueChar, Tag.isLabelChar, Bool.and_eq_true] at allowed ⊢
  exact allowed.1

/-- Characters of a class stay in it when a run of them gives way to another. -/
theorem forall_mem_replace {Good : CodePoint → Prop} {first last : Text}
    (each : ∀ c ∈ first ++ run ++ last, Good c) (others : ∀ c ∈ other, Good c) :
    ∀ c ∈ first ++ other ++ last, Good c := by
  intro c member
  simp only [List.mem_append, or_assoc] at each member
  rcases member with early | new | late
  · exact each c (.inl early)
  · exact others c new
  · exact each c (.inr (.inr late))

theorem Tag.WellFormed.replace_value {first last : Text} (formed : tag.WellFormed)
    (value : tag.value = first ++ run ++ last) (blanks : IsBlankRun other) :
    Tag.WellFormed ⟨first ++ other ++ last, tag.label⟩ where
  value_ne_nil := by simp [blanks.ne_nil]
  label_ne_nil := formed.label_ne_nil
  value_chars := forall_mem_replace (value ▸ formed.value_chars)
    fun c member => isValueChar_of_isBlank (blanks.blank c member)
  label_chars := formed.label_chars

theorem Tag.WellFormed.replace_label {first last : Text} (formed : tag.WellFormed)
    (label : tag.label = first ++ run ++ last) (blanks : IsBlankRun other) :
    Tag.WellFormed ⟨tag.value, first ++ other ++ last⟩ where
  value_ne_nil := formed.value_ne_nil
  label_ne_nil := by simp [blanks.ne_nil]
  value_chars := formed.value_chars
  label_chars := forall_mem_replace (label ▸ formed.label_chars)
    fun c member => isLabelChar_of_isBlank (blanks.blank c member)

theorem Text.untagged_iff_forall_ne {text : Text} :
    text.Untagged ↔
      ∀ (front : Text) (tag : Tag) (rest : Text), tag.WellFormed → text ≠ front ++ tag.text ++ rest := by
  constructor
  · rintro untagged front tag rest formed rfl
    exact untagged ⟨tag, front.length, (front ++ tag.text).length⟩
      (Span.written_iff.mpr ⟨formed, front, rest, rfl, rfl, rfl⟩)
  · intro none span written
    obtain ⟨formed, front, rest, whole, -, -⟩ := Span.written_iff.mp written
    exact none front span.tag rest formed whole

/-- A tag that shows up with other blanks would show up with the old ones, too. -/
theorem Text.Untagged.replace (untagged : (before ++ run ++ behind).Untagged)
    (blanks : IsBlankRun run) (otherBlanks : IsBlankRun other) :
    (before ++ other ++ behind).Untagged := by
  rw [untagged_iff_forall_ne] at untagged ⊢
  intro front tag rest formed whole
  cases runPlace_of_eq otherBlanks whole.symm with
  | front more early late =>
    exact untagged (before ++ run ++ more) tag rest formed (by simp [late])
  | value first last value early late =>
    exact untagged front _ rest (formed.replace_value value blanks) (by simp [early, late, Tag.text])
  | label first last label early late =>
    exact untagged front _ rest (formed.replace_label label blanks) (by simp [early, late, Tag.text])
  | rest more early late =>
    exact untagged front tag (more ++ run ++ behind) formed (by simp [early])

/-! ## Pieces with the same tokens -/

namespace Pieces

/-- Two tags with the free text behind them bear the same label, and the values and the free texts have the
same tokens in any surroundings. -/
structure AlikePiece (piece other : Tag × Text) : Prop where
  label : piece.1.label = other.1.label
  value : Interchangeable piece.1.value other.1.value
  free : Interchangeable piece.2 other.2

/-- The pieces answer to one another one by one. -/
structure Alike (pieces other : Pieces) : Prop where
  front : Interchangeable pieces.front other.front
  tagged : List.Forall₂ AlikePiece pieces.tagged other.tagged

theorem Alike.refl (pieces : Pieces) : pieces.Alike pieces :=
  ⟨.refl _, List.forall₂_same.mpr fun _ _ => ⟨rfl, .refl _, .refl _⟩⟩

theorem Alike.cons {start otherStart free otherFree : Text} {tag otherTag : Tag}
    {tagged otherTagged : List (Tag × Text)} (sameStart : Interchangeable start otherStart)
    (label : tag.label = otherTag.label) (value : Interchangeable tag.value otherTag.value)
    (alike : Alike ⟨free, tagged⟩ ⟨otherFree, otherTagged⟩) :
    Alike ⟨start, (tag, free) :: tagged⟩ ⟨otherStart, (otherTag, otherFree) :: otherTagged⟩ :=
  ⟨sameStart, .cons ⟨label, value, alike.front⟩ alike.tagged⟩

/-- Pieces that can stand for others behind `skip` characters: they are well formed, have the same tokens and
keep the labels, where those before `upTo` stay in place. -/
structure Exchange (skip upTo : Nat) (pieces respaced : Pieces) : Prop where
  formed : respaced.WellFormed
  alike : pieces.Alike respaced
  labels : LabelsKept upTo (place (skip + pieces.front.length) pieces.tagged)
    (place (skip + respaced.front.length) respaced.tagged)

section Exchange

variable {start free more first last label : Text} {tag : Tag} {tagged : List (Tag × Text)}

theorem exchange_alone (front : Untagged (before ++ run ++ behind)) (blanks : IsBlankRun run)
    (otherBlanks : IsBlankRun other) (skip upTo : Nat) :
    Exchange skip upTo ⟨before ++ run ++ behind, []⟩ ⟨before ++ other ++ behind, []⟩ where
  formed := ⟨front.replace blanks otherBlanks, by simp, by simp⟩
  alike := ⟨.replace blanks otherBlanks before behind, .nil⟩
  labels := .refl _ []

/-- A run in the free text before a tag. -/
theorem exchange_front (formed : WellFormed ⟨before ++ run ++ more, (tag, free) :: tagged⟩)
    (blanks : IsBlankRun run) (otherBlanks : IsBlankRun other) (skip : Nat) :
    Exchange skip (skip + before.length) ⟨before ++ run ++ more, (tag, free) :: tagged⟩
      ⟨before ++ other ++ more, (tag, free) :: tagged⟩ := by
  obtain ⟨opening, ownTag, later⟩ := wellFormed_cons.mp formed
  refine ⟨?_, ?_, ?_⟩
  · exact wellFormed_cons.mpr ⟨opening.replace blanks otherBlanks, ownTag, later⟩
  · exact .cons (.replace blanks otherBlanks before more) rfl (.refl _) (.refl _)
  · exact .of_place _ (by simp only [List.length_append]; omega) _

/-- A run in the value of a tag. -/
theorem exchange_value (formed : WellFormed ⟨start, (⟨first ++ run ++ last, label⟩, free) :: tagged⟩)
    (blanks : IsBlankRun run) (otherBlanks : IsBlankRun other) (skip : Nat) :
    Exchange skip (skip + (start ++ .char '[' :: first).length)
      ⟨start, (⟨first ++ run ++ last, label⟩, free) :: tagged⟩
      ⟨start, (⟨first ++ other ++ last, label⟩, free) :: tagged⟩ := by
  obtain ⟨opening, ownTag, later⟩ := wellFormed_cons.mp formed
  refine ⟨?_, ?_, ?_⟩
  · exact wellFormed_cons.mpr ⟨opening, ownTag.replace_value rfl otherBlanks, later⟩
  · exact .cons (.refl _) rfl (.replace blanks otherBlanks first last) (.refl _)
  · intro span member
    rcases List.mem_cons.mp member with rfl | next
    · refine .inl ?_
      simp only [Span.labelStart, List.length_append, List.length_cons]
      omega
    · refine LabelsKept.of_place _ ?_ tagged span next
      simp only [Tag.text, List.length_append, List.length_cons]
      omega

/-- A run behind a tag, in the pieces that begin with the free text there. -/
theorem Exchange.behind_tag {skip : Nat} {respaced : Pieces}
    (formed : WellFormed ⟨start, (tag, free) :: tagged⟩)
    (exchange : Exchange (skip + (start ++ tag.text).length) (skip + (start ++ tag.text).length + more.length)
      ⟨free, tagged⟩ respaced) :
    Exchange skip (skip + (start ++ tag.text ++ more).length) ⟨start, (tag, free) :: tagged⟩
      ⟨start, (tag, respaced.front) :: respaced.tagged⟩ := by
  obtain ⟨opening, ownTag, -⟩ := wellFormed_cons.mp formed
  have formed := wellFormed_cons.mpr ⟨opening, ownTag, exchange.formed⟩
  refine ⟨formed, .cons (.refl _) rfl (.refl _) exchange.alike, ?_⟩
  have kept := exchange.labels.cons ⟨tag, skip + start.length, skip + start.length + tag.text.length⟩
  simp only [List.length_append, ← Nat.add_assoc] at kept ⊢
  exact kept.mono (by omega)

/-- A run in the label of a tag is not outside the labels. -/
theorem not_outside_own_label {skip : Nat} (blanks : IsBlankRun run) (label : tag.label = first ++ run ++ last)
    (early : before = start ++ .char '[' :: (tag.value ++ .char ':' :: first)) :
    ¬(skip + (before ++ run).length ≤
        Span.labelStart ⟨tag, skip + start.length, skip + start.length + tag.text.length⟩ ∨
      Span.labelStop ⟨tag, skip + start.length, skip + start.length + tag.text.length⟩ ≤
        skip + before.length) := by
  intro own
  have size := congrArg List.length label
  have positive := blanks.length_pos
  simp only [early, Span.labelStart, Span.labelStop, Tag.text, List.length_append, List.length_cons,
    List.length_nil] at own size
  omega

/-- What is outside the labels of all tags is outside of those behind the first one. -/
theorem outsideLabels_behind {skip : Nat}
    (others : ∀ span ∈ place (skip + start.length + tag.text.length + free.length) tagged,
      skip + (start ++ tag.text ++ more ++ run).length ≤ span.labelStart ∨
        span.labelStop ≤ skip + (start ++ tag.text ++ more).length) :
    OutsideLabels (place (skip + (start ++ tag.text).length + free.length) tagged)
      (skip + (start ++ tag.text).length + more.length)
      (skip + (start ++ tag.text).length + (more ++ run).length) := by
  intro span member
  simp only [List.length_append, ← Nat.add_assoc] at others member ⊢
  exact others span member

end Exchange

/-- A sentence in which a run outside the labels gives way to another is written from pieces like its own.
The first `skip` characters of the whole sentence stand before the pieces. -/
theorem exists_exchange {pieces : Pieces} (formed : pieces.WellFormed) (blanks : IsBlankRun run)
    (otherBlanks : IsBlankRun other) (whole : pieces.text = before ++ run ++ behind) (skip : Nat)
    (outside : OutsideLabels (place (skip + pieces.front.length) pieces.tagged)
      (skip + before.length) (skip + (before ++ run).length)) :
    ∃ respaced : Pieces, respaced.text = before ++ other ++ behind ∧
      Exchange skip (skip + before.length) pieces respaced := by
  obtain ⟨start, tagged⟩ := pieces
  induction tagged generalizing start before skip with
  | nil =>
    have alone : start = before ++ run ++ behind := by simpa [text] using whole
    subst alone
    exact ⟨_, by simp [text], exchange_alone formed.front blanks otherBlanks skip _⟩
  | cons piece tagged ih =>
    obtain ⟨tag, free⟩ := piece
    obtain ⟨own, others⟩ := List.forall_mem_cons.mp outside
    rw [text_cons, ← List.append_assoc] at whole
    cases runPlace_of_eq blanks whole with
    | front more early late =>
      subst early late
      exact ⟨_, by simp [text_cons], exchange_front formed blanks otherBlanks skip⟩
    | value first last value early late =>
      obtain ⟨_, label⟩ := tag
      subst early late value
      exact ⟨_, by simp [text_cons, Tag.text], exchange_value formed blanks otherBlanks skip⟩
    | label first last label early late => exact (not_outside_own_label blanks label early own).elim
    | rest more early late =>
      subst early
      obtain ⟨-, -, later⟩ := wellFormed_cons.mp formed
      obtain ⟨respaced, written, exchange⟩ := ih _ free later late (outsideLabels_behind others)
      refine ⟨_, ?_, exchange.behind_tag formed⟩
      rw [text_cons, written]
      simp

/-- The mentions of tags with free text behind each, in order, when `before` is written in front. -/
def mentionsBehind (before : Text) : List (Tag × Text) → List Mention
  | [] => []
  | (tag, free) :: tagged =>
    Utterance.locate tag.label before tag.value ::
      mentionsBehind (before ++ tag.value ++ free) tagged

end Pieces

open Pieces

/-- What tags are marked with can be read off the pieces. -/
theorem map_mentionOf_place (done : Text)
    (closed : ∀ later, withoutTags (done ++ later) = withoutTags done ++ withoutTags later)
    {pieces : Pieces} (formed : pieces.WellFormed) :
    (place (done.length + pieces.front.length) pieces.tagged).map
        (Utterance.mentionOf (done ++ pieces.text)) =
      mentionsBehind (withoutTags done ++ pieces.front) pieces.tagged := by
  obtain ⟨start, tagged⟩ := pieces
  induction tagged generalizing done start with
  | nil => rfl
  | cons piece tagged ih =>
    obtain ⟨tag, free⟩ := piece
    obtain ⟨opening, ownTag, later⟩ := wellFormed_cons.mp formed
    have upTo : withoutTags (done ++ start) = withoutTags done ++ start := by
      rw [closed, withoutTags_of_tagFree (untagged_iff.mp opening)]
    have around := withoutTags_around ownTag (done ++ start)
    have ended := withoutTags_append_tag ownTag (done ++ start)
    have shut (more : Text) : withoutTags (done ++ start ++ tag.text ++ more) =
        withoutTags (done ++ start ++ tag.text) ++ withoutTags more := by rw [around, ended]
    have onward := ih _ shut free later
    have whole : done ++ start ++ tag.text ++ text ⟨free, tagged⟩ =
        done ++ text ⟨start, (tag, free) :: tagged⟩ := by
      simp only [text_cons, List.append_assoc]
    rw [whole, ended, upTo] at onward
    have first : (done ++ text ⟨start, (tag, free) :: tagged⟩).take (done.length + start.length) =
        done ++ start := by
      rw [text_cons, ← List.append_assoc, ← List.length_append, List.take_left]
    simp only [List.length_append] at onward
    rw [place, List.map_cons, mentionsBehind, onward, Utterance.mentionOf, first, upTo]

/-- An utterance is made of a sentence in pieces when no value is blank. It holds the plain text of the
pieces, and its tags are marked behind what is written before them. -/
theorem ofSentence_text_eq_ok_iff {pieces : Pieces} (formed : pieces.WellFormed) {intent : Text}
    {utterance : Utterance} :
    Utterance.ofSentence pieces.text intent = .ok utterance ↔
      [] ∉ pieces.tagged.map (fun piece => piece.1.value.tokens) ∧
        utterance =
          ⟨pieces.plain.joinTokens, intent, mentionsBehind pieces.front pieces.tagged⟩ := by
  have tags : pieces.text.spans.map (·.tag) = pieces.tagged.map (·.1) := by
    rw [spans_text formed]
    exact map_tag_place _ _
  have visible : [] ∉ pieces.tagged.map (fun piece => piece.1.value.tokens) ↔
      ∀ span ∈ pieces.text.spans, span.tag.value.tokens ≠ [] := by
    have values := congrArg (List.map fun tag : Tag => tag.value.tokens) tags
    rw [List.map_map, List.map_map] at values
    have same : pieces.tagged.map (fun piece => piece.1.value.tokens) =
        pieces.text.spans.map fun span => span.tag.value.tokens := values.symm
    simp [same]
  have mentions := map_mentionOf_place [] (fun _ => rfl) formed
  have marked : pieces.text.spans.map (Utterance.mentionOf pieces.text) =
      mentionsBehind pieces.front pieces.tagged := by
    rw [List.nil_append, List.length_nil, Nat.zero_add] at mentions
    rw [spans_text formed]
    exact mentions
  rw [visible, ← withoutTags_text formed, ← marked]
  constructor
  · exact Utterance.eq_of_ofSpans_spans
  · rintro ⟨filled, rfl⟩
    have present : ∀ span ∈ pieces.text.spans, ¬ span.tag.IsBlank := fun span member blank =>
      filled span member (tokens_eq_nil_iff.mpr blank)
    obtain ⟨utterance, built⟩ := Utterance.exists_ofSpans_eq_ok_iff.mpr present
    rw [Utterance.ofSentence, built, (Utterance.eq_of_ofSpans_spans built).2]

theorem Pieces.Alike.plain {pieces other : Pieces} (alike : pieces.Alike other) :
    Interchangeable pieces.plain other.plain := by
  obtain ⟨start, tagged⟩ := pieces
  obtain ⟨otherStart, otherTagged⟩ := other
  obtain ⟨front, tagged⟩ := alike
  refine front.append ?_
  clear front
  dsimp only at tagged ⊢
  induction tagged with
  | nil => exact .refl []
  | cons same _ ih =>
    rw [List.flatMap_cons, List.flatMap_cons]
    exact (same.value.append same.free).append ih

theorem locate_congr {label value otherValue : Text} (same : Interchangeable before behind)
    (sameValue : Interchangeable value otherValue) :
    Utterance.locate label before value = Utterance.locate label behind otherValue := by
  rw [Utterance.locate, Utterance.locate, same.tokens_eq, (same.append sameValue).tokens_eq]

theorem Pieces.Alike.mentions {pieces other : Pieces} (alike : pieces.Alike other) :
    mentionsBehind pieces.front pieces.tagged = mentionsBehind other.front other.tagged := by
  obtain ⟨start, tagged⟩ := pieces
  obtain ⟨otherStart, otherTagged⟩ := other
  obtain ⟨front, tagged⟩ := alike
  dsimp only at front tagged ⊢
  induction tagged generalizing start otherStart with
  | nil => rfl
  | @cons piece otherPiece _ _ same _ ih =>
    rw [mentionsBehind, mentionsBehind, same.label, locate_congr front same.value,
      ih _ _ ((front.append same.value).append same.free)]

theorem Pieces.Alike.values {pieces other : Pieces} (alike : pieces.Alike other) :
    pieces.tagged.map (fun piece => piece.1.value.tokens) =
      other.tagged.map fun piece => piece.1.value.tokens := by
  obtain ⟨-, tagged⟩ := alike
  generalize pieces.tagged = these, other.tagged = those at tagged ⊢
  induction tagged with
  | nil => rfl
  | cons same _ ih => rw [List.map_cons, List.map_cons, same.value.tokens_eq, ih]

/-- Pieces that answer to one another give the same utterance, or none. -/
theorem Pieces.Alike.ofSentence_iff {pieces other : Pieces} (alike : pieces.Alike other)
    (formed : pieces.WellFormed) (formedOther : other.WellFormed) {intent : Text}
    {utterance : Utterance} :
    Utterance.ofSentence pieces.text intent = .ok utterance ↔
      Utterance.ofSentence other.text intent = .ok utterance := by
  have plain : pieces.plain.joinTokens = other.plain.joinTokens :=
    joinTokens_eq_iff.mpr alike.plain.tokens_eq
  rw [ofSentence_text_eq_ok_iff formed, ofSentence_text_eq_ok_iff formedOther, alike.values, plain,
    alike.mentions]

/-! ## Sentences -/

variable {sentence respaced intent : Text} {utterance : Utterance}

/-- Where one run gives way to another, the utterance stays as it is, and so do the labels before the
run. -/
theorem ofSentence_run_iff (blanks : IsBlankRun run) (otherBlanks : IsBlankRun other)
    (outside : OutsideLabels (spans (before ++ run ++ behind)) before.length (before ++ run).length) :
    (∀ intent utterance, Utterance.ofSentence (before ++ run ++ behind) intent = .ok utterance ↔
        Utterance.ofSentence (before ++ other ++ behind) intent = .ok utterance) ∧
      LabelsKept before.length (spans (before ++ run ++ behind))
        (spans (before ++ other ++ behind)) := by
  obtain ⟨pieces, formed, written⟩ := exists_text_eq (before ++ run ++ behind)
  rw [← written, spans_text formed, Pieces.spans] at outside ⊢
  obtain ⟨respaced, writtenOther, exchange⟩ :=
    exists_exchange formed blanks otherBlanks written 0 (by simpa only [Nat.zero_add] using outside)
  have kept := exchange.labels
  rw [← writtenOther, spans_text exchange.formed, Pieces.spans]
  simp only [Nat.zero_add] at kept
  exact ⟨fun intent utterance => exchange.alike.ofSentence_iff formed exchange.formed, kept⟩

/-- The runs give way from the last one to the first, so that those before keep their places. -/
theorem RespacedBehind.ofSentence_iff {tags : List Span} {done : Text}
    (way : RespacedBehind tags done sentence respaced) (own : tags = spans (done ++ sentence)) :
    (∀ intent utterance, Utterance.ofSentence (done ++ sentence) intent = .ok utterance ↔
        Utterance.ofSentence (done ++ respaced) intent = .ok utterance) ∧
      LabelsKept done.length tags (spans (done ++ respaced)) := by
  induction way with
  | rest done behind => exact ⟨fun _ _ => Iff.rfl, own ▸ .refl _ _⟩
  | @run done kept run other behind respaced blanks otherBlanks outside _ ih =>
    obtain ⟨same, unmoved⟩ := ih (by rw [own]; simp only [List.append_assoc])
    obtain ⟨last, before⟩ :=
      ofSentence_run_iff blanks otherBlanks (outside.of_labelsKept unmoved)
    simp only [List.append_assoc] at same last before unmoved ⊢
    refine ⟨fun intent utterance => (same intent utterance).trans (last intent utterance), ?_⟩
    refine (unmoved.trans before ?_).mono ?_
    · simp only [List.length_append]
      omega
    · simp only [List.length_append]
      omega

namespace Utterance

/-- Blanks outside labels are immaterial. Where runs of blanks in free text or in values give way to
others, both sentences are refused for a blank tag, or both give one and the same utterance; a collection
that has taken it up for the one sentence stays as it is when the other one follows. -/
theorem respaced_sentences_agree (same : Respaced sentence respaced) (intent : Text) :
    ((∃ error, ofSentence sentence intent = .error error) ∧
        ∃ error, ofSentence respaced intent = .error error) ∨
      ∃ utterance, ofSentence sentence intent = .ok utterance ∧
        ofSentence respaced intent = .ok utterance ∧
        ∀ earlier later : List Utterance,
          insertInto (collect (earlier ++ utterance :: later)) utterance =
            collect (earlier ++ utterance :: later) := by
  have agree := (same.ofSentence_iff rfl).1 intent
  cases built : ofSentence sentence intent with
  | ok utterance =>
    refine .inr ⟨utterance, rfl, (agree utterance).mp built, fun earlier later => ?_⟩
    exact if_pos (mem_collect.mpr (by simp))
  | error error =>
    refine .inl ⟨⟨error, rfl⟩, ?_⟩
    cases other : ofSentence respaced intent with
    | ok utterance => cases built.symm.trans ((agree utterance).mpr other)
    | error fault => exact ⟨fault, rfl⟩

/-- Other blanks before an ordinal indicator and inside a value; the blanks of the label are kept. -/
theorem respaced_sentences_agree_of_ordinal :
    Respaced "5 º [a\tb :x  y]c" "5\u00a0\tº [a\u3000 b :x  y]c" ∧
      ofSentence "5 º [a\tb :x  y]c" "i" = .ok ⟨"5 º a b c", "i", [⟨"x  y", 2, 3⟩]⟩ ∧
      ofSentence "5\u00a0\tº [a\u3000 b :x  y]c" "i" =
        .ok ⟨"5 º a b c", "i", [⟨"x  y", 2, 3⟩]⟩ := by
  have exchanged : Respaced "5 º [a\tb :x  y]c" "5\u00a0\tº [a\u3000 b :x  y]c" :=
    @RespacedBehind.run _ [] "5" " " "\u00a0\t" _ _ (by decide) (by decide) (by decide)
      (@RespacedBehind.run _ _ "º [a" "\t" "\u3000 " _ _ (by decide) (by decide) (by decide)
        (.rest _ "b :x  y]c"))
  have built : ofSentence "5 º [a\tb :x  y]c" "i" =
      .ok ⟨"5 º a b c", "i", [⟨"x  y", 2, 3⟩]⟩ := by rfl
  rcases respaced_sentences_agree exchanged "i" with
    ⟨⟨error, failed⟩, -⟩ | ⟨utterance, same, other, -⟩
  · cases failed.symm.trans built
  · cases same.symm.trans built
    exact ⟨exchanged, built, other⟩

end Utterance
end IntentModel
