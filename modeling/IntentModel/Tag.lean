import IntentModel.Text

/-! # Entity tags

A sentence marks an entity by writing it as `[value:label]`. The value has no bracket and no colon,
the label has no bracket, and neither is empty; so the first colon ends the value and a label may
hold colons of its own. Since no bracket occurs inside, two tags never overlap, and the tags of a
sentence are found by looking at each place for itself.
-/

namespace IntentModel

/-- An entity mention: the words as they are written and the label given to them. -/
structure Tag where
  value : Text
  label : Text
deriving DecidableEq, Repr

/-- A tag together with the offsets of its opening bracket and just past its closing one. -/
structure Span where
  tag : Tag
  start : Nat
  stop : Nat
deriving DecidableEq, Repr

namespace Tag

/-- The written form of a tag. -/
def text (tag : Tag) : Text :=
  .char '[' :: tag.value ++ .char ':' :: tag.label ++ [.char ']']

/-- The characters that a value may hold. -/
def isValueChar (c : CodePoint) : Bool :=
  c != '[' && c != ']' && c != ':'

/-- The characters that a label may hold. -/
def isLabelChar (c : CodePoint) : Bool :=
  c != '[' && c != ']'

/-- Reads the tag that begins a text. -/
def read? : Text → Option Tag
  | .char '[' :: text =>
    let value := text.takeWhile isValueChar
    match text.dropWhile isValueChar with
    | .char ':' :: rest =>
      let label := rest.takeWhile isLabelChar
      match rest.dropWhile isLabelChar with
      | .char ']' :: _ => if value.isEmpty || label.isEmpty then none else some ⟨value, label⟩
      | _ => none
    | _ => none
  | _ => none

end Tag

namespace Text

/-- The tags of a text whose first character has the given offset. -/
def spansFrom (offset : Nat) : Text → List Span
  | [] => []
  | c :: text =>
    match Tag.read? (c :: text) with
    | some tag => ⟨tag, offset, offset + tag.text.length⟩ :: spansFrom (offset + 1) text
    | none => spansFrom (offset + 1) text

/-- The tags of a sentence, from left to right. -/
def spans (sentence : Text) : List Span :=
  sentence.spansFrom 0

/-- The sentence with each tag replaced by its value. -/
def withoutTags (sentence : Text) : Text :=
  sentence.substitute fun rest => (Tag.read? rest).map fun tag => (tag.text.length, tag.value)

end Text

end IntentModel
