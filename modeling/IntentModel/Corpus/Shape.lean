import IntentModel.Corpus
import IntentModel.Value.Display
import IntentModel.Text.Lowercase

/-! # The shape of a corpus

A corpus is written as one mapping. The key of an entry says what it is: `phraselist` and `builtin`
have sections of their own, `list.` before a name makes a list, and every other key is an intent.
`Corpus.ofValue` sorts the entries into these sections and checks the shape of each; nothing behind
it meets values of unknown shape.
-/

namespace IntentModel

/-- Why a value is no corpus. -/
inductive ShapeError
  /-- The corpus is not a mapping. -/
  | notMapping (found : Value)
  /-- The entry of an intent or a list holds no list. -/
  | notList (key : Text) (found : Value)
  /-- A list holds something that is no text, number or truth value. -/
  | notText (key : Text) (item : Value)
  /-- The section of phrase lists is no list. -/
  | phraselistsNotList
  /-- A phrase list is not a mapping with a name. -/
  | phraselistUnnamed (item : Value)
  /-- A flag of a phrase list is no truth value. -/
  | phraselistFlag (name : Text)
  /-- The section of builtin entities is no list. -/
  | builtinNotList
  /-- A builtin entity is neither a text nor a mapping. -/
  | builtinUnrecognized (item : Value)
deriving Repr

namespace ShapeError

/-- The text of the error. What the check of a flag says about it follows behind a colon and is left out
here. -/
def message : ShapeError → Text
  | notMapping found => "Training document must be a mapping, got " ++ found.kind
  | notList key found =>
    .char '\x27' :: key ++ ("' must be a list of sentences, got " : Text) ++ found.kind
  | notText key item => .char '\x27' :: key ++ ("' contains a non-text item: " : Text) ++ item.shown
  | phraselistsNotList => "'phraselist' must be a list of features"
  | phraselistUnnamed item => "Phraselist entries need at least a name: " ++ item.shown
  | phraselistFlag name => "Invalid phraselist '" ++ name ++ "'"
  | builtinNotList => "'builtin' must be a list of entities"
  | builtinUnrecognized item => "Unrecognized builtin entity: " ++ item.shown

end ShapeError

/-- Why a value is not accepted as a corpus. -/
inductive CorpusError
  /-- The shape is wrong. -/
  | shape (error : ShapeError)
  /-- A builtin entity has a key that is no text. -/
  | builtinKey (key : Value)
  /-- An integer has too many digits to be written as a text or shown in a message. -/
  | tooManyDigits
deriving Repr

/-- The error that shows a value, if the value can be shown. -/
def CorpusError.showing (value : Value) (error : ShapeError) : CorpusError :=
  if value.isShowable then .shape error else .tooManyDigits

/-- The text that a key, an item or a name stands for. -/
def Value.plain? (value : Value) : Except CorpusError Text :=
  if value.isShowable then .ok value.plain else .error .tooManyDigits

/-- The truth value that a flag stands for: one of its words, or the number one or zero. -/
def Value.flag? : Value → Option Bool
  | .bool truth => some truth
  | .text word => ofWord word
  | .bytes word => ofWord (word.map fun byte => CodePoint.ofNat byte.toNat)
  | value =>
    if value.same (.int 1) then some true else if value.same (.int 0) then some false else none
where
  /-- The truth value of a word, whatever its capitals. -/
  ofWord (word : Text) : Option Bool :=
    let word := Text.lowerAscii word
    if (["1", "on", "t", "true", "y", "yes"] : List Text).contains word then some true
    else if (["0", "off", "f", "false", "n", "no"] : List Text).contains word then some false
    else none

namespace Corpus

/-- The text of an item, which has to be a text, a number or a truth value. -/
def textItem (key : Text) (item : Value) : Except CorpusError Text :=
  if item.isScalar then item.plain? else .error (.showing item (.notText key item))

/-- The texts of a list of texts, numbers and truth values; null is the empty list. -/
def textItems (key : Text) (value : Value) : Except CorpusError (List Text) :=
  match value.opened with
  | .null => .ok []
  | .list items => items.mapM (textItem key)
  | _ => .error (.shape (.notList key value))

/-- The words of a phrase list: written with commas between them or as a list. -/
def words (name : Text) (value : Value) : Except CorpusError (List Text) :=
  if value.isEmpty then .ok []
  else
    match value with
    | .text row => .ok (((row.splitOn (.char ',')).map Text.trim).filter (!·.isEmpty))
    | value => textItems ("phraselist." ++ name) value

/-- A phrase list. Both flags are set unless the entry says otherwise. -/
def phraselist (value : Value) : Except CorpusError Phraselist :=
  match value.opened with
  | .map entries =>
    match Entries.field? "name" entries with
    | none => .error (.showing value (.phraselistUnnamed value))
    | some name => do
      let name ← name.plain?
      let words ← words name ((Entries.field? "words" entries).getD .null)
      let activated := ((Entries.field? "activated" entries).getD (.bool true)).flag?
      let interchangeable := ((Entries.field? "mode" entries).getD (.bool true)).flag?
      match activated, interchangeable with
      | some activated, some interchangeable => .ok { name, words, activated, interchangeable }
      | _, _ => .error (.shape (.phraselistFlag name))
  | _ => .error (.showing value (.phraselistUnnamed value))

def phraselistSection (value : Value) : Except CorpusError (List Phraselist) :=
  match value.opened with
  | .null => .ok []
  | .list items => items.mapM phraselist
  | _ => .error (.shape .phraselistsNotList)

/-- A builtin entity; a text is the name of one. -/
def builtinEntity (value : Value) : Except CorpusError Entries :=
  match value.opened with
  | .text name => .ok [(.text "name", .text name)]
  | .map entries => .ok entries
  | _ => .error (.showing value (.builtinUnrecognized value))

def builtinSection (value : Value) : Except CorpusError (List Entries) :=
  match value.opened with
  | .null => .ok []
  | .list items => items.mapM builtinEntity
  | _ => .error (.shape .builtinNotList)

/-- The sections of a corpus while they are filled. Builtin entities are taken as they are written;
their keys are looked at when all sections are filled. -/
structure Sections where
  intents : List Intent
  lists : ValueLists
  phraselists : List Phraselist
  builtin : List Entries

def Sections.none : Sections :=
  ⟨[], [], [], []⟩

/-- What the key of an entry says about it. -/
inductive Section
  | list (name : Text)
  | phraselists
  | builtin
  | intent
deriving DecidableEq, Repr

/-- The name of a list; it may be written as a placeholder. -/
def listName (written : Text) : Text :=
  if written.beginsWith [.char '$', .char '{'] && written.endsWith [.char '}'] then (written.drop 2).dropLast
  else written

def Section.ofKey (key : Text) : Section :=
  match Text.after? "list." key with
  | some written => .list (listName written)
  | none =>
    if key = ("phraselist" : Text) then .phraselists
    else if key = ("builtin" : Text) then .builtin
    else .intent

/-- Puts an entry into its section. A list that is there already is replaced, and so are the
phrase lists and the builtin entities. -/
def Sections.add (sections : Sections) (entry : Value × Value) : Except CorpusError Sections := do
  let key ← entry.1.plain?
  match Section.ofKey key with
  | .list name =>
    let values ← textItems key entry.2
    return { sections with lists := sections.lists.put name values }
  | .phraselists => return { sections with phraselists := ← phraselistSection entry.2 }
  | .builtin => return { sections with builtin := ← builtinSection entry.2 }
  | .intent =>
    let templates ← textItems key entry.2
    return { sections with intents := sections.intents ++ [⟨key, templates⟩] }

def Sections.toCorpus (sections : Sections) : Except CorpusError Corpus := do
  let builtin ← (sections.builtin.mapM Fields.ofEntries).mapError .builtinKey
  return {
    intents := sections.intents
    lists := sections.lists
    phraselists := sections.phraselists
    builtin }

/-- The corpus that a value describes; null describes the empty one. -/
def ofValue (value : Value) : Except CorpusError Corpus :=
  match value.opened with
  | .null => .ok empty
  | .map entries => do
    let sections ← entries.foldlM Sections.add .none
    sections.toCorpus
  | _ => .error (.shape (.notMapping value))

end Corpus

end IntentModel
