import IntentModel.Corpus.Shape
import IntentModel.Proofs.Outcome
import IntentModel.Proofs.Upsert
import IntentModel.Proofs.Value.Flag

/-! # The format of a corpus

What may stand in the sections of a corpus, and what it is read as. Each part of the format has a predicate
on values and a function that reads the values that satisfy it; the checker of the part accepts what the
predicate allows and returns what the function reads (`textItems_eq_ok_iff`, `phraselistSection_eq_ok_iff`,
`builtinSection_eq_ok_iff`, `ofEntries_eq_ok_iff`).
-/

namespace IntentModel.Corpus

theorem plain?_eq_ok_iff {value : Value} {text : Text} :
    value.plain? = .ok text ↔ value.isShowable = true ∧ text = value.plain := by
  unfold Value.plain?
  split_ifs with showable
  · simp [showable, eq_comm]
  · simp [showable]

/-- Null, which stands for an empty list, or a list of items of a kind. -/
def IsListOf (Good : Value → Prop) (value : Value) : Prop :=
  match value.opened with
  | .null => True
  | .list items => ∀ item ∈ items, Good item
  | _ => False

/-- What the items of a list are read as. -/
def readList {α : Type} (read : Value → α) (value : Value) : List α :=
  match value.opened with
  | .list items => items.map read
  | _ => []

/-! ## Rows -/

/-- A text, a number or a truth value that can be written as a text. -/
def IsItem (value : Value) : Prop :=
  value.isScalar = true ∧ value.isShowable = true

def rowTexts : Value → List Text :=
  readList Value.plain

theorem textItem_eq_ok_iff {key : Text} (item : Value) (text : Text) :
    textItem key item = .ok text ↔ IsItem item ∧ text = item.plain := by
  unfold textItem IsItem
  split_ifs with scalar
  · rw [plain?_eq_ok_iff]
    simp [scalar]
  · simp [scalar]

theorem textItems_eq_ok_iff {key : Text} {value : Value} {texts : List Text} :
    textItems key value = .ok texts ↔ IsListOf IsItem value ∧ texts = rowTexts value := by
  unfold textItems IsListOf rowTexts readList
  cases value.opened with
  | null => simp [eq_comm]
  | list items => exact mapM_eq_ok_iff textItem_eq_ok_iff
  | _ => simp

/-! ## Phrase lists -/

/-- The words of a phrase list: none, a text or a row. -/
def AreWords (value : Value) : Prop :=
  value.isEmpty = true ∨ value.isText = true ∨ IsListOf IsItem value

/-- The words that are written: those between the commas of a text, without blanks around them and without
the empty ones, or the texts of a row. -/
def wordTexts (value : Value) : List Text :=
  if value.isEmpty then []
  else
    match value with
    | .text row => ((row.splitOn (.char ',')).map Text.trim).filter (!·.isEmpty)
    | value => rowTexts value

theorem words_eq_ok_iff {name : Text} {value : Value} {texts : List Text} :
    words name value = .ok texts ↔ AreWords value ∧ texts = wordTexts value := by
  unfold words AreWords wordTexts
  cases empty : value.isEmpty with
  | true =>
    simp only [if_true, true_or, true_and]
    exact ⟨fun same => (Except.ok.inj same).symm, fun same => congrArg _ same.symm⟩
  | false =>
    simp only [Bool.false_eq_true, if_false, false_or]
    cases value with
    | text row =>
      simp only [Value.isText, true_or, true_and]
      exact ⟨fun same => (Except.ok.inj same).symm, fun same => congrArg _ same.symm⟩
    | _ =>
      simp only [Value.isText, Bool.false_eq_true, false_or]
      exact textItems_eq_ok_iff

/-- What an entry for a phrase list says about its words. -/
def writtenWords (fields : Entries) : Value :=
  (Entries.field? "words" fields).getD .null

/-- What an entry for a phrase list says about a flag; it is set if nothing is said. -/
def writtenFlag (name : Text) (fields : Entries) : Value :=
  (Entries.field? name fields).getD (.bool true)

/-- A mapping that has a name, and whose words and flags are as they have to be if they are there. -/
def IsPhraselist (value : Value) : Prop :=
  match value.opened with
  | .map fields =>
    (∃ name, Entries.field? "name" fields = some name ∧ name.isShowable = true) ∧
      AreWords (writtenWords fields) ∧
      (∃ truth, (writtenFlag "activated" fields).standsFor truth = true) ∧
      ∃ truth, (writtenFlag "mode" fields).standsFor truth = true
  | _ => False

/-- The phrase list that a mapping writes. -/
def phraselistOf (value : Value) : Phraselist :=
  match value.opened with
  | .map fields =>
    { name := ((Entries.field? "name" fields).getD .null).plain
      words := wordTexts (writtenWords fields)
      activated := (writtenFlag "activated" fields).standsFor true
      interchangeable := (writtenFlag "mode" fields).standsFor true }
  | _ => ⟨[], [], true, true⟩

theorem phraselist_of_named {value name : Value} {fields : Entries} (shape : value.opened = .map fields)
    (named : Entries.field? "name" fields = some name) :
    phraselist value =
      (name.plain? >>= fun name => words name (writtenWords fields) >>= fun words =>
        match (writtenFlag "activated" fields).flag?, (writtenFlag "mode" fields).flag? with
        | some activated, some interchangeable => .ok ⟨name, words, activated, interchangeable⟩
        | _, _ => .error (.shape (.phraselistFlag name))) := by
  unfold phraselist
  rw [shape]
  dsimp only
  rw [named]
  rfl

theorem phraselist_of_unnamed {value : Value} {fields : Entries} (shape : value.opened = .map fields)
    (unnamed : Entries.field? "name" fields = none) :
    phraselist value = .error (.showing value (.phraselistUnnamed value)) := by
  unfold phraselist
  rw [shape]
  dsimp only
  rw [unnamed]

theorem phraselist_eq_ok_iff (value : Value) (made : Phraselist) :
    phraselist value = .ok made ↔ IsPhraselist value ∧ made = phraselistOf value := by
  unfold IsPhraselist phraselistOf
  cases shape : value.opened with
  | map fields =>
    cases named : Entries.field? "name" fields with
    | none =>
      rw [phraselist_of_unnamed shape named]
      constructor
      · intro run
        cases run
      · rintro ⟨⟨⟨_, found, -⟩, -⟩, -⟩
        cases named.symm.trans found
    | some name =>
      rw [phraselist_of_named shape named]
      simp only [bind_eq_ok_iff, plain?_eq_ok_iff, words_eq_ok_iff]
      constructor
      · rintro ⟨_, ⟨showable, rfl⟩, _, ⟨words, rfl⟩, flags⟩
        split at flags
        · next activated interchangeable first second =>
          rw [Value.flag?_eq_some_iff] at first second
          have set := (Value.flag?_eq_some_iff.mpr first).symm.trans (Value.flag?_eq_some_standsFor first)
          have taken := (Value.flag?_eq_some_iff.mpr second).symm.trans (Value.flag?_eq_some_standsFor second)
          cases flags
          refine ⟨⟨⟨name, named, showable⟩, words, ⟨_, first⟩, _, second⟩, ?_⟩
          rw [named, ← Option.some.inj set, ← Option.some.inj taken]
          rfl
        · cases flags
      · rintro ⟨⟨⟨_, found, showable⟩, words, ⟨first, activated⟩, second, interchangeable⟩, rfl⟩
        cases named.symm.trans found
        refine ⟨_, ⟨showable, rfl⟩, _, ⟨words, rfl⟩, ?_⟩
        rw [Value.flag?_eq_some_standsFor activated, Value.flag?_eq_some_standsFor interchangeable, named]
        rfl
  | _ => simp [phraselist, shape, CorpusError.showing]

theorem phraselistSection_eq_ok_iff {value : Value} {made : List Phraselist} :
    phraselistSection value = .ok made ↔
      IsListOf IsPhraselist value ∧ made = readList phraselistOf value := by
  unfold phraselistSection IsListOf readList
  cases value.opened with
  | null => simp [eq_comm]
  | list items => exact mapM_eq_ok_iff phraselist_eq_ok_iff
  | _ => simp

/-! ## Builtin entities -/

def IsEntity (value : Value) : Prop :=
  match value.opened with
  | .text _ => True
  | .map _ => True
  | _ => False

/-- The entries of a builtin entity; a text is its name. -/
def entityEntries (value : Value) : Entries :=
  match value.opened with
  | .text name => [(.text "name", .text name)]
  | .map entries => entries
  | _ => []

theorem builtinEntity_eq_ok_iff (value : Value) (made : Entries) :
    builtinEntity value = .ok made ↔ IsEntity value ∧ made = entityEntries value := by
  unfold builtinEntity IsEntity entityEntries
  cases value.opened with
  | text name => simp [eq_comm]
  | map entries => simp [eq_comm]
  | _ => simp [CorpusError.showing]

theorem builtinSection_eq_ok_iff {value : Value} {made : List Entries} :
    builtinSection value = .ok made ↔ IsListOf IsEntity value ∧ made = readList entityEntries value := by
  unfold builtinSection IsListOf readList
  cases value.opened with
  | null => simp [eq_comm]
  | list items => exact mapM_eq_ok_iff builtinEntity_eq_ok_iff
  | _ => simp

def HaveTextKeys (entries : Entries) : Prop :=
  ∀ entry ∈ entries, entry.1.asText?.isSome = true

/-- The entries as fields; bytes and a text can be one name, which then has the value of the later one. -/
def toFields (entries : Entries) : Fields :=
  lastOfEach (entries.map fun entry => (entry.1.asText?.getD [], entry.2))

theorem putField_eq_upsert (name : Text) (value : Value) (fields : Fields) :
    Fields.put name value fields =
      upsert (fun field => field.1 == name) (fun field => (field.1, value)) (name, value) fields := by
  induction fields with
  | nil => rfl
  | cons field fields ih =>
    rw [Fields.put, upsert, ih]
    by_cases own : field.1 = name
    · simp [own]
    · simp [own]

def fieldOf (entry : Value × Value) : Except Value (Text × Value) :=
  match entry.1.asText? with
  | some name => .ok (name, entry.2)
  | none => .error entry.1

theorem fieldOf_eq_ok_iff (entry : Value × Value) (field : Text × Value) :
    fieldOf entry = .ok field ↔
      entry.1.asText?.isSome = true ∧ field = (entry.1.asText?.getD [], entry.2) := by
  unfold fieldOf
  cases entry.1.asText? with
  | none => simp
  | some name => simp [eq_comm]

theorem ofEntries_eq_ok_iff (entries : Entries) (fields : Fields) :
    Fields.ofEntries entries = .ok fields ↔ HaveTextKeys entries ∧ fields = toFields entries := by
  have run : Fields.ofEntries entries = entries.mapM fieldOf >>= fun rows =>
      .ok (rows.foldl (fun fields field => Fields.put field.1 field.2 fields) []) := by
    apply foldlM_eq_mapM
    intro fields ⟨key, value⟩
    unfold fieldOf
    dsimp only
    cases key.asText? with
    | none => rfl
    | some name => rfl
  rw [run, bind_eq_ok_iff]
  simp only [foldl_put_eq_lastOfEach putField_eq_upsert, mapM_eq_ok_iff fieldOf_eq_ok_iff]
  constructor
  · rintro ⟨_, ⟨named, rfl⟩, made⟩
    exact ⟨named, (Except.ok.inj made).symm⟩
  · rintro ⟨named, rfl⟩
    exact ⟨_, ⟨named, rfl⟩, rfl⟩

end IntentModel.Corpus
