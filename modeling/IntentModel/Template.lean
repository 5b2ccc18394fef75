import IntentModel.Text

/-! # Sentence templates

A template holds places written `${name}`, which stand for the values of the list of that name. A
name is not empty and holds no brace. Inside a placeholder no other one can begin, so the
placeholders of a text are found by looking at each place for itself.
-/

namespace IntentModel

namespace Placeholder

/-- The characters that a name may hold. -/
def isNameChar (c : CodePoint) : Bool :=
  c != '{' && c != '}'

/-- The written form of a placeholder. -/
def text (name : Text) : Text :=
  .char '$' :: .char '{' :: name ++ [.char '}']

/-- Reads the name of the placeholder that begins a text. -/
def read? : Text → Option Text
  | .char '$' :: .char '{' :: rest =>
    let name := rest.takeWhile isNameChar
    match rest.dropWhile isNameChar with
    | .char '}' :: _ => if name.isEmpty then none else some name
    | _ => none
  | _ => none

end Placeholder

namespace Text

/-- The names of all placeholders of a text, from left to right. -/
def references : Text → List Text
  | [] => []
  | c :: text =>
    match Placeholder.read? (c :: text) with
    | some name => name :: references text
    | none => references text

/-- The names of the placeholders of a text, each once, in order of first appearance. -/
def placeholders (text : Text) : List Text :=
  text.references.eraseDups

/-- The name of the leftmost placeholder. -/
def leftmostPlaceholder? : Text → Option Text
  | [] => none
  | c :: text =>
    match Placeholder.read? (c :: text) with
    | some name => some name
    | none => leftmostPlaceholder? text

/-- The text with every placeholder of a name replaced by a value. -/
def fill (template : Text) (name value : Text) : Text :=
  template.replaceAll (Placeholder.text name) value

end Text

/-- The values that may stand for a placeholder, by list name; a name has one entry. -/
abbrev ValueLists := List (Text × List Text)

namespace ValueLists

/-- The values of a list. -/
def get? (lists : ValueLists) (name : Text) : Option (List Text) :=
  lists.lookup name

/-- Gives a list its values; a name that is there already keeps its place. -/
def put (name : Text) (values : List Text) : ValueLists → ValueLists
  | [] => [(name, values)]
  | entry :: lists =>
    if entry.1 = name then (entry.1, values) :: lists else entry :: put name values lists

end ValueLists

end IntentModel
