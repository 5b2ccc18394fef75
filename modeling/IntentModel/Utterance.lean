import IntentModel.Tag
import IntentModel.Text.Tokens

/-! # Training utterances

An utterance is the text of a sentence without its tags, with one space between tokens, and the
entities of the sentence as ranges of tokens. The plain text is rebuilt piece by piece and the
tokens are counted at each value, so that a value is found where it was tagged even when the same
words occur elsewhere.
-/

namespace IntentModel

/-- An entity of an utterance: its label and its first and last token. -/
structure Mention where
  label : Text
  first : Int
  last : Int
deriving DecidableEq, Repr

/-- A training example for an intent. -/
structure Utterance where
  text : Text
  intent : Text
  mentions : List Mention
deriving DecidableEq, Repr

/-- A tag whose value has no tokens, and the sentence that holds it. -/
structure EmptyTag where
  tag : Tag
  sentence : Text
deriving DecidableEq, Repr

def EmptyTag.message (error : EmptyTag) : Text :=
  "Entity tag " ++ error.tag.text ++ (" has an empty value in sentence: " : Text) ++ error.sentence

namespace Utterance

/-- An utterance in the making: the plain text so far, the offset in the sentence up to which it has
been read, and the mentions so far. -/
structure Draft where
  plain : Text
  cursor : Nat
  mentions : List Mention
deriving DecidableEq, Repr

/-- The range of the tokens of `value` behind `before`. A value that is glued to the last token
changes that token and begins with it. -/
def locate (label before value : Text) : Mention :=
  let tokensBefore := before.tokens
  let tokensAfter := Text.tokens (before ++ value)
  let glued := tokensAfter.take tokensBefore.length != tokensBefore
  { label
    first := if glued then (tokensBefore.length : Int) - 1 else tokensBefore.length
    last := (tokensAfter.length : Int) - 1 }

/-- Reads the sentence up to the end of a span and annotates the value of the span. -/
def Draft.read (sentence : Text) (draft : Draft) (span : Span) : Except EmptyTag Draft :=
  let before := draft.plain ++ sentence.slice draft.cursor span.start
  if span.tag.value.tokens.isEmpty then .error ⟨span.tag, sentence⟩
  else
    .ok
      { plain := before ++ span.tag.value
        cursor := span.stop
        mentions := draft.mentions ++ [locate span.tag.label before span.tag.value] }

/-- The utterance of a sentence with the given spans, which need not be those of its tags. -/
def ofSpans (sentence intent : Text) (spans : List Span) : Except EmptyTag Utterance := do
  let draft ← spans.foldlM (Draft.read sentence) ⟨[], 0, []⟩
  let plain := draft.plain ++ sentence.drop draft.cursor
  return { text := Text.joinTokens plain, intent, mentions := draft.mentions }

def ofSentence (sentence intent : Text) : Except EmptyTag Utterance :=
  ofSpans sentence intent sentence.spans

/-- Puts an utterance at the end of a collection, unless an equal one is in it. -/
def insertInto (collection : List Utterance) (utterance : Utterance) : List Utterance :=
  if utterance ∈ collection then collection else collection ++ [utterance]

end Utterance

end IntentModel
