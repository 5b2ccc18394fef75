import IntentModel.Proofs.Corpus.Format
import IntentModel.Proofs.Text.Cut
import IntentModel.Proofs.Value.Decidable
import IntentModel.Proofs.Value.Tangle

/-! # The sections of a corpus

The key of an entry says to which section it belongs (`names_ofKey`). All entries can be read first and put
into their sections afterwards (`add_eq_take`), so a value is a corpus when each entry has the shape that its
key asks for, and the sections hold what has been read, in order (`ofValue_eq_ok_iff`).
-/

namespace IntentModel.Corpus

deriving instance DecidableEq for ShapeError
deriving instance DecidableEq for CorpusError
deriving instance DecidableEq for Corpus

/-- What the key of an entry says, in the terms of the format: the name of a list stands behind `list.`,
plain or as a placeholder. -/
def Section.Names (key : Text) : Section → Prop
  | .list name => key = ("list." : Text) ++ Placeholder.text name ∨
      key = ("list." : Text) ++ name ∧ ∀ inner, name ≠ Placeholder.text inner
  | .phraselists => key = ("phraselist" : Text)
  | .builtin => key = ("builtin" : Text)
  | .intent => ¬("list." : Text) <+: key ∧ key ≠ ("phraselist" : Text) ∧ key ≠ ("builtin" : Text)

theorem listName_placeholder (name : Text) : listName (Placeholder.text name) = name := by
  have opening : (Placeholder.text name).beginsWith [.char '$', .char '{'] = true :=
    Text.beginsWith_iff.mpr ⟨name ++ [.char '}'], rfl⟩
  have ending : (Placeholder.text name).endsWith [.char '}'] = true :=
    Text.endsWith_iff.mpr ⟨.char '$' :: .char '{' :: name, rfl⟩
  rw [listName, opening, ending]
  simp [Placeholder.text]

theorem listName_plain {written : Text} (plain : ∀ inner, written ≠ Placeholder.text inner) :
    listName written = written := by
  unfold listName
  split_ifs with wrapped
  · obtain ⟨opening, ending⟩ := Bool.and_eq_true_iff.mp wrapped
    obtain ⟨rest, rfl⟩ := Text.beginsWith_iff.mp opening
    obtain ⟨start, same⟩ := Text.endsWith_iff.mp ending
    have final := congrArg List.getLast? same
    rcases List.eq_nil_or_concat rest with rfl | ⟨inner, last, rfl⟩
    · simp at final
    · rw [List.concat_eq_append] at final plain
      rw [← List.append_assoc, List.getLast?_concat, List.getLast?_concat] at final
      obtain rfl := Option.some.inj final
      exact absurd rfl (plain inner)
  · rfl

theorem names_ofKey (key : Text) : (Section.ofKey key).Names key := by
  unfold Section.ofKey
  cases found : Text.after? "list." key with
  | some written =>
    have whole := Text.after?_eq_some_iff.mp found
    dsimp only
    by_cases wrapped : ∃ inner, written = Placeholder.text inner
    · obtain ⟨inner, rfl⟩ := wrapped
      rw [listName_placeholder]
      exact .inl whole
    · have plain : ∀ inner, written ≠ Placeholder.text inner := fun inner same => wrapped ⟨inner, same⟩
      rw [listName_plain plain]
      exact .inr ⟨whole, plain⟩
  | none =>
    dsimp only
    split_ifs with first second
    · exact first
    · exact second
    · refine ⟨?_, first, second⟩
      rintro ⟨rest, whole⟩
      rw [Text.after?_eq_some_iff.mpr whole.symm] at found
      cases found

theorem ofKey_list (written : Text) :
    Section.ofKey (("list." : Text) ++ written) = .list (listName written) := by
  rw [Section.ofKey, Text.after?_eq_some_iff.mpr rfl]

/-- A key belongs to one section. -/
theorem names_iff {key : Text} {place : Section} : place.Names key ↔ Section.ofKey key = place := by
  constructor
  · intro named
    cases place with
    | list name =>
      rcases named with rfl | ⟨rfl, plain⟩
      · rw [ofKey_list, listName_placeholder]
      · rw [ofKey_list, listName_plain plain]
    | phraselists =>
      rw [show key = _ from named]
      decide
    | builtin =>
      rw [show key = _ from named]
      decide
    | intent =>
      obtain ⟨other, first, second⟩ := named
      have none : Text.after? "list." key = none := by
        by_contra some
        obtain ⟨rest, found⟩ := Option.ne_none_iff_exists'.mp some
        exact other ⟨rest, (Text.after?_eq_some_iff.mp found).symm⟩
      rw [Section.ofKey, none]
      dsimp only
      rw [if_neg first, if_neg second]
  · rintro rfl
    exact names_ofKey key

theorem eq_phraselist_iff {key : Text} :
    key = ("phraselist" : Text) ↔ Section.ofKey key = .phraselists :=
  @names_iff key .phraselists

theorem eq_builtin_iff {key : Text} : key = ("builtin" : Text) ↔ Section.ofKey key = .builtin :=
  @names_iff key .builtin

/-- What may stand under a key. -/
def MayHold (key : Text) : Value → Prop :=
  match Section.ofKey key with
  | .phraselists => IsListOf IsPhraselist
  | .builtin => IsListOf IsEntity
  | _ => IsListOf IsItem

inductive Part
  | list (name : Text) (values : List Text)
  | phraselists (made : List Phraselist)
  | builtin (made : List Entries)
  | intent (made : Intent)

def readSection (key : Text) (value : Value) : Except CorpusError Part :=
  match Section.ofKey key with
  | .list name => (textItems key value).map (.list name)
  | .phraselists => (phraselistSection value).map .phraselists
  | .builtin => (builtinSection value).map .builtin
  | .intent => (textItems key value).map fun templates => .intent ⟨key, templates⟩

/-- What a value of the format is read as under its key. -/
def partOf (key : Text) (value : Value) : Part :=
  match Section.ofKey key with
  | .list name => .list name (rowTexts value)
  | .phraselists => .phraselists (readList phraselistOf value)
  | .builtin => .builtin (readList entityEntries value)
  | .intent => .intent ⟨key, rowTexts value⟩

theorem readSection_eq_ok_iff (key : Text) (value : Value) (part : Part) :
    readSection key value = .ok part ↔ MayHold key value ∧ part = partOf key value := by
  unfold readSection MayHold partOf
  cases Section.ofKey key with
  | list name => exact map_eq_ok_iff_of fun _ => textItems_eq_ok_iff
  | phraselists => exact map_eq_ok_iff_of fun _ => phraselistSection_eq_ok_iff
  | builtin => exact map_eq_ok_iff_of fun _ => builtinSection_eq_ok_iff
  | intent => exact map_eq_ok_iff_of fun _ => textItems_eq_ok_iff

def readEntry (entry : Value × Value) : Except CorpusError Part :=
  entry.1.plain? >>= fun key => readSection key entry.2

theorem readEntry_eq_ok_iff (entry : Value × Value) (part : Part) :
    readEntry entry = .ok part ↔
      (entry.1.isShowable = true ∧ MayHold entry.1.plain entry.2) ∧
        part = partOf entry.1.plain entry.2 := by
  unfold readEntry
  simp only [bind_eq_ok_iff, plain?_eq_ok_iff]
  constructor
  · rintro ⟨_, ⟨showable, rfl⟩, read⟩
    obtain ⟨good, rfl⟩ := (readSection_eq_ok_iff ..).mp read
    exact ⟨⟨showable, good⟩, rfl⟩
  · rintro ⟨⟨showable, good⟩, rfl⟩
    exact ⟨_, ⟨showable, rfl⟩, (readSection_eq_ok_iff ..).mpr ⟨good, rfl⟩⟩

/-- Puts what has been read into its section. -/
def Sections.take (sections : Sections) : Part → Sections
  | .list name values => { sections with lists := sections.lists.put name values }
  | .phraselists made => { sections with phraselists := made }
  | .builtin made => { sections with builtin := made }
  | .intent made => { sections with intents := sections.intents ++ [made] }

theorem add_eq_take (sections : Sections) (entry : Value × Value) :
    sections.add entry = readEntry entry >>= fun part => .ok (sections.take part) := by
  unfold Sections.add readEntry readSection
  cases entry.1.plain? with
  | error fault => rfl
  | ok key =>
    simp only [bind, Except.bind]
    cases Section.ofKey key with
    | list name =>
      dsimp only
      cases textItems key entry.2 <;> rfl
    | phraselists =>
      dsimp only
      cases phraselistSection entry.2 <;> rfl
    | builtin =>
      dsimp only
      cases builtinSection entry.2 <;> rfl
    | intent =>
      dsimp only
      cases textItems key entry.2 <;> rfl

/-! ## The whole value -/

/-- The value of a key that is written as a name; null if there is none. Of several such entries, of which a
mapping has no more than one, the last counts. -/
def under (name : Text) (entries : Entries) : Value :=
  ((entries.reverse.find? (·.1.plain == name)).map (·.2)).getD .null

theorem under_concat (name : Text) (entries : Entries) (entry : Value × Value) :
    under name (entries ++ [entry]) = if entry.1.plain = name then entry.2 else under name entries := by
  rw [under, List.reverse_append, List.reverse_singleton, List.singleton_append, List.find?_cons]
  by_cases own : entry.1.plain = name
  · simp [own]
  · rw [if_neg own, beq_false_of_ne own, under]

/-- What stands under the name of a section stands under it in an entry, or nothing does. -/
theorem under_eq_null_or (name : Text) (entries : Entries) :
    under name entries = .null ∨ ∃ entry ∈ entries, entry.1.plain = name ∧ under name entries = entry.2 := by
  unfold under
  cases found : entries.reverse.find? (·.1.plain == name) with
  | none => exact .inl rfl
  | some entry =>
    have member := List.mem_reverse.mp (List.mem_of_find?_eq_some found)
    exact .inr ⟨entry, member, by simpa using List.find?_some found, rfl⟩

def intentsOf (entries : Entries) : List Intent :=
  entries.filterMap fun entry =>
    match Section.ofKey entry.1.plain with
    | .intent => some ⟨entry.1.plain, rowTexts entry.2⟩
    | _ => none

/-- The lists that entries define, with all their definitions. -/
def listRows (entries : Entries) : List (Text × List Text) :=
  entries.filterMap fun entry =>
    match Section.ofKey entry.1.plain with
    | .list name => some (name, rowTexts entry.2)
    | _ => none

/-- The format of a corpus: null, or a mapping whose entries have the shape that their keys ask for. -/
def InFormat (raw : Value) : Prop :=
  match raw.opened with
  | .null => True
  | .map entries =>
    (∀ entry ∈ entries, entry.1.isShowable = true ∧ MayHold entry.1.plain entry.2) ∧
      ∀ entity ∈ readList entityEntries (under "builtin" entries), HaveTextKeys entity
  | _ => False

/-- The corpus that a value of the format describes. -/
def reading (raw : Value) : Corpus :=
  match raw.opened with
  | .map entries =>
    { intents := intentsOf entries
      lists := lastOfEach (listRows entries)
      phraselists := readList phraselistOf (under "phraselist" entries)
      builtin := (readList entityEntries (under "builtin" entries)).map toFields }
  | _ => .empty

theorem putList_eq_upsert (name : Text) (values : List Text) (lists : ValueLists) :
    ValueLists.put name values lists =
      upsert (fun entry => entry.1 == name) (fun entry => (entry.1, values)) (name, values) lists := by
  induction lists with
  | nil => rfl
  | cons entry lists ih =>
    rw [ValueLists.put, upsert, ih]
    by_cases own : entry.1 = name
    · simp [own]
    · simp [own]

/-- The sections after entries have been taken. -/
theorem foldl_take (entries : Entries) :
    (entries.map fun entry => partOf entry.1.plain entry.2).foldl Sections.take .none =
      { intents := intentsOf entries
        lists := lastOfEach (listRows entries)
        phraselists := readList phraselistOf (under "phraselist" entries)
        builtin := readList entityEntries (under "builtin" entries) } := by
  have lists : ∀ entries, lastOfEach (listRows entries) =
      (listRows entries).foldl (fun lists row => ValueLists.put row.1 row.2 lists) [] :=
    fun entries => (foldl_put_eq_lastOfEach putList_eq_upsert _).symm
  simp only [lists]
  induction entries using List.reverseRecOn with
  | nil => rfl
  | append_singleton entries entry ih =>
    rw [List.map_append, List.foldl_append, ih]
    simp only [under_concat, intentsOf, listRows, List.filterMap_append, List.map_singleton,
      List.foldl_cons, List.foldl_nil, partOf, List.foldl_append, eq_phraselist_iff, eq_builtin_iff]
    cases own : Section.ofKey entry.1.plain with
    | list name => simp [Sections.take, own]
    | phraselists => simp [Sections.take, own]
    | builtin => simp [Sections.take, own]
    | intent => simp [Sections.take, own]

/-- A mapping is read entry by entry, and the corpus is made of all that has been read. -/
theorem ofValue_map {raw : Value} {entries : Entries} (shape : raw.opened = .map entries) :
    ofValue raw = entries.mapM readEntry >>= fun parts =>
      (parts.foldl Sections.take .none).toCorpus := by
  unfold ofValue
  rw [shape]
  dsimp only
  rw [foldlM_eq_mapM add_eq_take]
  cases entries.mapM readEntry <;> rfl

theorem ofValue_eq_ok_iff (raw : Value) (corpus : Corpus) :
    ofValue raw = .ok corpus ↔ InFormat raw ∧ corpus = reading raw := by
  unfold InFormat reading
  cases shape : raw.opened with
  | null => simp [ofValue, shape, eq_comm]
  | map entries =>
    rw [ofValue_map shape, bind_eq_ok_iff]
    simp only [mapM_eq_ok_iff readEntry_eq_ok_iff]
    constructor
    · rintro ⟨_, ⟨good, rfl⟩, made⟩
      rw [foldl_take] at made
      obtain ⟨builtin, named, final⟩ := bind_eq_ok_iff.mp made
      rw [mapError_eq_ok_iff, mapM_eq_ok_iff ofEntries_eq_ok_iff] at named
      obtain ⟨texts, rfl⟩ := named
      exact ⟨⟨good, texts⟩, (Except.ok.inj final).symm⟩
    · rintro ⟨⟨good, texts⟩, rfl⟩
      refine ⟨_, ⟨good, rfl⟩, ?_⟩
      rw [foldl_take]
      refine bind_eq_ok_iff.mpr ⟨_, ?_, rfl⟩
      rw [mapError_eq_ok_iff, mapM_eq_ok_iff ofEntries_eq_ok_iff]
      exact ⟨texts, rfl⟩
  | _ => simp [ofValue, shape]

/-- What is read from a list is read from one of its items. -/
theorem exists_of_mem_readList {α : Type} {read : Value → α} {value : Value} {made : α}
    (member : made ∈ readList read value) :
    ∃ items, value.opened = .list items ∧ ∃ item ∈ items, read item = made := by
  unfold readList at member
  split at member
  · next items shape =>
    obtain ⟨item, inside, same⟩ := List.mem_map.mp member
    exact ⟨items, shape, item, inside, same⟩
  · cases member

/-- A phrase list is read from a mapping, and its words are those of the mapping. -/
theorem exists_fields_of_isPhraselist {item : Value} (good : IsPhraselist item) :
    ∃ fields, item.opened = .map fields ∧ (phraselistOf item).words = wordTexts (writtenWords fields) := by
  unfold IsPhraselist at good
  split at good
  · next fields shape =>
    refine ⟨fields, shape, ?_⟩
    rw [phraselistOf, shape]
  · cases good

/-- A phrase list of a corpus is read from a mapping in the section of phrase lists. -/
theorem exists_fields_of_mem_phraselists {raw : Value} {corpus : Corpus} (made : ofValue raw = .ok corpus)
    {listed : Phraselist} (member : listed ∈ corpus.phraselists) :
    ∃ entries items item fields, raw.opened = .map entries ∧
      (under "phraselist" entries).opened = .list items ∧ item ∈ items ∧ item.opened = .map fields ∧
      phraselist item = .ok listed ∧ listed.words = wordTexts (writtenWords fields) := by
  obtain ⟨good, rfl⟩ := (ofValue_eq_ok_iff raw corpus).mp made
  unfold InFormat at good
  unfold reading at member
  cases whole : raw.opened with
  | map entries =>
    rw [whole] at good member
    obtain ⟨items, holds, item, inside, rfl⟩ := exists_of_mem_readList member
    rcases under_eq_null_or "phraselist" entries with nothing | ⟨entry, among, key, stands⟩
    · rw [nothing] at holds
      cases holds
    · have row : IsListOf IsPhraselist (under "phraselist" entries) := by
        have shape := (good.1 entry among).2
        rwa [MayHold, key, eq_phraselist_iff.mp rfl, ← stands] at shape
      rw [IsListOf, holds] at row
      have own : IsPhraselist item := row item inside
      obtain ⟨fields, mapping, words⟩ := exists_fields_of_isPhraselist own
      exact ⟨entries, items, item, fields, rfl, holds, inside, mapping,
        (phraselist_eq_ok_iff item _).mpr ⟨own, rfl⟩, words⟩
  | _ =>
    rw [whole] at member
    cases member

/-- Each entry is counted in one section. -/
theorem length_sections (entries : Entries) :
    entries.length = (intentsOf entries).length + (listRows entries).length +
      (entries.filter (·.1.plain == ("phraselist" : Text))).length +
      (entries.filter (·.1.plain == ("builtin" : Text))).length := by
  induction entries with
  | nil => rfl
  | cons entry entries ih =>
    unfold intentsOf listRows at ih ⊢
    simp only [List.filterMap_cons, List.filter_cons, beq_iff_eq, eq_phraselist_iff, eq_builtin_iff,
      List.length_cons]
    cases own : Section.ofKey entry.1.plain with
    | list name =>
      simp only [List.length_cons, reduceCtorEq, if_false]
      omega
    | phraselists =>
      simp only [List.length_cons, reduceCtorEq, if_false, if_true]
      omega
    | builtin =>
      simp only [List.length_cons, reduceCtorEq, if_false, if_true]
      omega
    | intent =>
      simp only [List.length_cons, reduceCtorEq, if_false]
      omega

/-- A mapping whose keys are different texts is kept as it is. -/
theorem toFields_record {fields : Fields} (different : (fields.map (·.1)).Nodup) :
    toFields (entityEntries (.record fields)) = fields := by
  have same : (entityEntries (.record fields)).map (fun entry => (entry.1.asText?.getD [], entry.2)) =
      fields := by
    rw [Value.record, entityEntries, Value.opened_map, List.map_map]
    exact List.map_id _
  rw [toFields, same, lastOfEach_of_nodup different]

/-- A value is accepted as a corpus when it has the format, and the corpus is what the value reads as: the
key of each entry says to which one section it belongs, the sections hold what their entries hold, in order,
and a builtin mapping whose keys are different texts is kept as it is. -/
theorem ofValue_of_format (raw : Value) :
    ((∃ corpus, ofValue raw = .ok corpus) ↔ InFormat raw) ∧
    (∀ corpus, ofValue raw = .ok corpus ↔ InFormat raw ∧ corpus = reading raw) ∧
    (∀ key place, Section.Names key place ↔ Section.ofKey key = place) ∧
    (∀ entries : Entries, entries.length = (intentsOf entries).length + (listRows entries).length +
      (entries.filter (·.1.plain == ("phraselist" : Text))).length +
      (entries.filter (·.1.plain == ("builtin" : Text))).length) ∧
    ∀ fields : Fields, (fields.map (·.1)).Nodup →
      toFields (entityEntries (.record fields)) = fields := by
  refine ⟨?_, ofValue_eq_ok_iff raw, fun _ _ => names_iff, length_sections, fun _ => toFields_record⟩
  constructor
  · rintro ⟨corpus, made⟩
    exact ((ofValue_eq_ok_iff raw corpus).mp made).1
  · intro good
    exact ⟨_, (ofValue_eq_ok_iff raw _).mpr ⟨good, rfl⟩⟩

/-- A value with entries of every kind; one list is defined twice. -/
def mixedValue : Value :=
  .map [(.text "list.$\x7bday\x7d", .list [.int 1]), (.text "hi", .list [.text "a", .bool true]),
    (.text "list.city", .null), (.text "list.day", .list [.text "b"]),
    (.text "phraselist", .list [.map [(.text "name", .int 7), (.text "words", .text "c, d ,"),
      (.text "mode", .text "No")]]),
    (.int 3, .null),
    (.text "builtin", .list [.text "n", .map [(.text "name", .text "m"), (.text "x", .null)]])]

theorem ofValue_of_format_mixed :
    InFormat mixedValue ∧
      ofValue mixedValue = .ok {
        intents := [⟨"hi", ["a", "True"]⟩, ⟨"3", []⟩]
        lists := [("day", ["b"]), ("city", [])]
        phraselists := [⟨"7", ["c", "d"], true, false⟩]
        builtin := [[("name", .text "n")], [("name", .text "m"), ("x", .null)]] } := by
  have made : ofValue mixedValue = .ok {
      intents := [⟨"hi", ["a", "True"]⟩, ⟨"3", []⟩]
      lists := [("day", ["b"]), ("city", [])]
      phraselists := [⟨"7", ["c", "d"], true, false⟩]
      builtin := [[("name", .text "n")], [("name", .text "m"), ("x", .null)]] } := by decide +kernel
  exact ⟨(ofValue_of_format mixedValue).1.mp ⟨_, made⟩, made⟩

/-- A builtin mapping is accepted although a key of it is no text. -/
theorem accepted_without_text_keys :
    ¬ ∀ (fields : Entries) (corpus : Corpus),
      ofValue (.map [(.text "builtin", .list [.map fields])]) = .ok corpus →
      ∀ field ∈ fields, field.1.isText = true := by
  intro texts
  have accepted : ofValue (.map [(.text "builtin", .list [.map
      [(.bytes (Text.toUtf8 "name"), .text "a"), (.text "name", .text "b")]])]) =
      .ok { Corpus.empty with builtin := [[("name", .text "b")]] } := by decide +kernel
  have own := texts _ _ accepted (.bytes (Text.toUtf8 "name"), .text "a") (by simp)
  cases own

end IntentModel.Corpus
