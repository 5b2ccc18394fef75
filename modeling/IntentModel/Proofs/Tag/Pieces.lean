import IntentModel.Proofs.Tag.Occurrences

/-! # Sentences in pieces

A tagged sentence is free text, and tags with free text behind each. `Pieces` holds these parts;
`Pieces.text` writes them one behind the other, and `Pieces.cut` cuts a sentence at the offsets of spans.
As long as no free text holds a tag of its own, what has been written is cut into the same pieces again,
whatever brackets and colons stand beside the tags (`spans_text`, `cut_text`); and every sentence is
written from such pieces (`exists_text_eq`). So marking and reading tags undo each other.
-/

namespace IntentModel

/-- No tag is written in the text. -/
def Text.Untagged (text : Text) : Prop :=
  ∀ span : Span, ¬ span.Written text

theorem Text.untagged_iff {text : Text} : text.Untagged ↔ text.TagFree := by
  rw [← spansFrom_eq_nil_iff 0, List.eq_nil_iff_forall_not_mem]
  exact forall_congr' fun span => not_congr mem_spans_iff.symm

/-- The parts of a sentence: the free text before the first tag, and each tag with the free text behind
it. -/
structure Pieces where
  front : Text
  tagged : List (Tag × Text)
deriving DecidableEq, Repr

namespace Pieces

def text (pieces : Pieces) : Text :=
  pieces.front ++ pieces.tagged.flatMap fun (tag, free) => tag.text ++ free

/-- The pieces with the values in the place of the tags. -/
def plain (pieces : Pieces) : Text :=
  pieces.front ++ pieces.tagged.flatMap fun (tag, free) => tag.value ++ free

/-- Where tags come to stand when they are written one behind the other from an offset on, each with its
free text behind it. -/
def place (offset : Nat) : List (Tag × Text) → List Span
  | [] => []
  | (tag, free) :: tagged =>
    ⟨tag, offset, offset + tag.text.length⟩ ::
      place (offset + tag.text.length + free.length) tagged

def spans (pieces : Pieces) : List Span :=
  place pieces.front.length pieces.tagged

/-- Cuts what a sentence holds from an offset on at the offsets of spans. -/
def cutFrom (sentence : Text) (offset : Nat) : List Span → Pieces
  | [] => ⟨sentence.drop offset, []⟩
  | span :: spans =>
    let rest := cutFrom sentence span.stop spans
    ⟨sentence.slice offset span.start, (span.tag, rest.front) :: rest.tagged⟩

def cut (sentence : Text) : Pieces :=
  cutFrom sentence 0 sentence.spans

/-- The tags are well-formed and the free text holds none by itself. It may hold brackets and colons. -/
structure WellFormed (pieces : Pieces) : Prop where
  front : pieces.front.Untagged
  tags : ∀ piece ∈ pieces.tagged, piece.1.WellFormed
  between : ∀ piece ∈ pieces.tagged, piece.2.Untagged

variable {pieces : Pieces} {front free : Text} {tag : Tag} {tagged : List (Tag × Text)}

theorem text_cons (front : Text) (tag : Tag) (free : Text) (tagged : List (Tag × Text)) :
    text ⟨front, (tag, free) :: tagged⟩ = front ++ (tag.text ++ text ⟨free, tagged⟩) := by
  simp [text]

theorem plain_cons (front : Text) (tag : Tag) (free : Text) (tagged : List (Tag × Text)) :
    plain ⟨front, (tag, free) :: tagged⟩ = front ++ (tag.value ++ plain ⟨free, tagged⟩) := by
  simp [plain]

theorem wellFormed_cons :
    WellFormed ⟨front, (tag, free) :: tagged⟩ ↔
      front.Untagged ∧ tag.WellFormed ∧ WellFormed ⟨free, tagged⟩ := by
  constructor
  · rintro ⟨opening, tags, between⟩
    obtain ⟨formed, tags⟩ := List.forall_mem_cons.mp tags
    obtain ⟨own, between⟩ := List.forall_mem_cons.mp between
    exact ⟨opening, formed, own, tags, between⟩
  · rintro ⟨opening, formed, own, tags, between⟩
    exact ⟨opening, List.forall_mem_cons.mpr ⟨formed, tags⟩, List.forall_mem_cons.mpr ⟨own, between⟩⟩

/-! ## From the pieces to the sentence and back -/

/-- The tags of a sentence that is written from an offset on are those of its pieces. -/
theorem spansFrom_text (formed : pieces.WellFormed) (offset : Nat) :
    pieces.text.spansFrom offset = place (offset + pieces.front.length) pieces.tagged := by
  obtain ⟨front, tagged⟩ := pieces
  induction tagged generalizing front offset with
  | nil =>
    rw [text, List.flatMap_nil, List.append_nil]
    exact (Text.spansFrom_eq_nil_iff offset front).mpr (Text.untagged_iff.mp formed.front)
  | cons piece tagged ih =>
    obtain ⟨tag, free⟩ := piece
    obtain ⟨opening, ownTag, rest⟩ := wellFormed_cons.mp formed
    -- the bracket of the tag keeps the free text before it from reaching into the tag
    have cut := Text.spansFrom_append_bracket offset front
      (tag.value ++ .char ':' :: (tag.label ++ .char ']' :: text ⟨free, tagged⟩))
    rw [← Tag.text_append, Text.spansFrom_tag ownTag,
      (Text.spansFrom_eq_nil_iff offset front).mpr (Text.untagged_iff.mp opening)] at cut
    rw [text_cons, cut, ih _ free rest]
    rfl

theorem spans_text (formed : pieces.WellFormed) : pieces.text.spans = pieces.spans := by
  rw [Text.spans, spansFrom_text formed, Nat.zero_add]
  rfl

theorem withoutTags_text (formed : pieces.WellFormed) : pieces.text.withoutTags = pieces.plain := by
  obtain ⟨front, tagged⟩ := pieces
  have opening := Text.withoutTags_of_tagFree (Text.untagged_iff.mp formed.front)
  induction tagged generalizing front with
  | nil => simpa [text, plain] using opening
  | cons piece tagged ih =>
    obtain ⟨tag, free⟩ := piece
    obtain ⟨-, ownTag, rest⟩ := wellFormed_cons.mp formed
    have around := Text.withoutTags_around ownTag front (text ⟨free, tagged⟩)
    rw [text_cons, plain_cons, ← List.append_assoc, around, opening, List.append_assoc,
      ih free rest (Text.withoutTags_of_tagFree (Text.untagged_iff.mp rest.front))]

/-- Cutting behind `done` at the places of the pieces gives the pieces. -/
theorem cutFrom_text (done : Text) (pieces : Pieces) :
    cutFrom (done ++ pieces.text) done.length
      (place (done.length + pieces.front.length) pieces.tagged) = pieces := by
  obtain ⟨front, tagged⟩ := pieces
  induction tagged generalizing done front with
  | nil => simp [place, cutFrom, text]
  | cons piece tagged ih =>
    obtain ⟨tag, free⟩ := piece
    have behind := ih (done ++ front ++ tag.text) free
    have whole : done ++ front ++ tag.text ++ text ⟨free, tagged⟩ =
        done ++ text ⟨front, (tag, free) :: tagged⟩ := by
      simp only [text_cons, List.append_assoc]
    have before : (done ++ text ⟨front, (tag, free) :: tagged⟩).slice done.length
        (done.length + front.length) = front := by
      rw [text_cons, Text.slice, ← List.append_assoc, ← List.length_append, List.take_left,
        List.drop_left]
    rw [whole] at behind
    simp only [List.length_append] at behind
    rw [place, cutFrom, behind, before]

theorem cut_text (formed : pieces.WellFormed) : cut pieces.text = pieces := by
  have whole := cutFrom_text [] pieces
  rw [List.nil_append, List.length_nil, Nat.zero_add] at whole
  rw [cut, spans_text formed]
  exact whole

theorem map_tag_place (offset : Nat) (tagged : List (Tag × Text)) :
    (place offset tagged).map (·.tag) = tagged.map (·.1) := by
  induction tagged generalizing offset with
  | nil => rfl
  | cons piece tagged ih => rw [place, List.map_cons, List.map_cons, ih]

/-- Every sentence is written from pieces. -/
theorem exists_text_eq (sentence : Text) :
    ∃ pieces : Pieces, pieces.WellFormed ∧ pieces.text = sentence := by
  generalize split : sentence.spansFrom 0 = spans
  generalize 0 = offset at split
  induction spans generalizing offset sentence with
  | nil =>
    have untagged := Text.untagged_iff.mpr ((Text.spansFrom_eq_nil_iff offset sentence).mp split)
    exact ⟨⟨sentence, []⟩, ⟨untagged, by simp, by simp⟩, by simp [text]⟩
  | cons span spans ih =>
    obtain ⟨free, rest, rfl, untagged, formed, -, -, later⟩ := Text.exists_of_spansFrom_cons split
    obtain ⟨⟨front, tagged⟩, behind, rfl⟩ := ih rest span.stop later.symm
    refine ⟨⟨free, (span.tag, front) :: tagged⟩, ?_, ?_⟩
    · exact wellFormed_cons.mpr ⟨Text.untagged_iff.mpr untagged, formed, behind⟩
    · rw [text_cons, List.append_assoc]

/-- Tags that are written between pieces of free text are read again as they were written and where they
stand, and without them the values are left in their places. Conversely each sentence is made up of the
pieces into which its tags cut it; the tags stand between pieces that hold none, and without them the
values are left in their places. -/
theorem marking_inverts_reading :
    (∀ pieces : Pieces, pieces.WellFormed →
      pieces.text.spans = pieces.spans ∧ cut pieces.text = pieces ∧
        pieces.text.withoutTags = pieces.plain) ∧
    ∀ sentence : Text,
      (cut sentence).text = sentence ∧ (cut sentence).WellFormed ∧
        (cut sentence).tagged.map (·.1) = sentence.spans.map (·.tag) ∧
        sentence.withoutTags = (cut sentence).plain := by
  refine ⟨fun pieces formed => ⟨spans_text formed, cut_text formed, withoutTags_text formed⟩, ?_⟩
  intro sentence
  obtain ⟨pieces, formed, rfl⟩ := exists_text_eq sentence
  rw [cut_text formed, spans_text formed, withoutTags_text formed]
  exact ⟨rfl, formed, (map_tag_place _ _).symm, rfl⟩

/-- Free text that opens and closes brackets around the tags, and a tag that stands right behind a
colon. -/
theorem marking_inverts_reading_beside_brackets :
    WellFormed ⟨"a[b:", [(⟨"x", "t::u"⟩, "]c[:"), (⟨"y", "z"⟩, ":]")]⟩ ∧
      Text.spans "a[b:[x:t::u]]c[:[y:z]:]" = [⟨⟨"x", "t::u"⟩, 4, 12⟩, ⟨⟨"y", "z"⟩, 16, 21⟩] ∧
      Text.withoutTags "a[b:[x:t::u]]c[:[y:z]:]" = "a[b:x]c[:y:]" := by
  have untagged {free : Text} (none : free.spans = []) : free.Untagged :=
    Text.untagged_iff.mpr ((Text.spansFrom_eq_nil_iff 0 free).mp none)
  have first : Tag.read? "[x:t::u]" = some ⟨"x", "t::u"⟩ := by decide
  have second : Tag.read? "[y:z]" = some ⟨"y", "z"⟩ := by decide
  have formed : WellFormed ⟨"a[b:", [(⟨"x", "t::u"⟩, "]c[:"), (⟨"y", "z"⟩, ":]")]⟩ :=
    wellFormed_cons.mpr ⟨untagged (by decide), (Tag.of_read? first).1,
      wellFormed_cons.mpr ⟨untagged (by decide), (Tag.of_read? second).1,
        untagged (by decide), by simp, by simp⟩⟩
  obtain ⟨spans, -, plain⟩ := marking_inverts_reading.1 _ formed
  exact ⟨formed, spans, plain⟩

end Pieces
end IntentModel
