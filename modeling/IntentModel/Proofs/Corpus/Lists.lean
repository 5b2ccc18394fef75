import IntentModel.Proofs.Corpus.Merging
import IntentModel.Proofs.Corpus.Sections
import IntentModel.Proofs.Value.Display

/-! # The lists of a corpus in files

The key of a list can be spelled in two ways, with the name plain or as a placeholder, and files in which the
two spellings stand share no key. Under the policy `error` a list is therefore defined at most once in each
spelling, and the later definition replaces the earlier one (`lists_of_load`).
-/

namespace IntentModel.ValueLists

theorem get?_cons (entry : Text × List Text) (lists : ValueLists) (query : Text) :
    get? (entry :: lists) query = if entry.1 = query then some entry.2 else get? lists query := by
  rw [get?, List.lookup_cons]
  by_cases own : entry.1 = query
  · rw [if_pos own, own, beq_self_eq_true]
  · rw [if_neg own, beq_false_of_ne (Ne.symm own)]
    rfl

theorem get?_put (lists : ValueLists) (name : Text) (values : List Text) (query : Text) :
    (lists.put name values).get? query = if name = query then some values else lists.get? query := by
  induction lists with
  | nil => exact get?_cons (name, values) [] query
  | cons entry lists ih =>
    rw [put, get?_cons]
    by_cases there : entry.1 = name
    · rw [if_pos there, get?_cons, there]
      split_ifs <;> rfl
    · rw [if_neg there, get?_cons, ih]
      split_ifs with first second
      · exact absurd (first.trans second.symm) there
      all_goals rfl

/-- After rows have been put in order, a name has the values of its last row. -/
theorem get?_foldl_put (rows : List (Text × List Text)) (lists : ValueLists) (query : Text) :
    (rows.foldl (fun lists row => ValueLists.put row.1 row.2 lists) lists).get? query =
      ((rows.reverse.find? (·.1 == query)).map (·.2)).or (lists.get? query) := by
  induction rows using List.reverseRecOn with
  | nil => rfl
  | append_singleton rows row ih =>
    rw [List.foldl_append, List.foldl_cons, List.foldl_nil, get?_put, ih, List.reverse_append,
      List.reverse_singleton, List.singleton_append, List.find?_cons]
    by_cases own : row.1 = query
    · simp [own]
    · rw [if_neg own, beq_false_of_ne own]

end IntentModel.ValueLists

namespace IntentModel.Corpus

deriving instance DecidableEq for LoadError

theorem listRows_append (entries more : Entries) :
    listRows (entries ++ more) = listRows entries ++ listRows more :=
  List.filterMap_append

theorem listRows_cons {entry : Value × Value} {name : Text}
    (named : Section.ofKey entry.1.plain = .list name) (entries : Entries) :
    listRows (entry :: entries) = (name, rowTexts entry.2) :: listRows entries := by
  rw [listRows, List.filterMap_cons, named]
  rfl

/-- A row of a list comes from an entry that defines it. -/
theorem exists_of_mem_listRows {entries : Entries} {row : Text × List Text}
    (member : row ∈ listRows entries) :
    ∃ entry ∈ entries, Section.ofKey entry.1.plain = .list row.1 := by
  obtain ⟨entry, among, made⟩ := List.mem_filterMap.mp member
  split at made
  · next name named =>
    cases made
    exact ⟨entry, among, named⟩
  · cases made

/-- A list has the values of its last definition. -/
theorem get?_lastOfEach {before after : Entries} {entry : Value × Value} {name : Text}
    (named : Section.ofKey entry.1.plain = .list name)
    (last : ∀ later ∈ after, Section.ofKey later.1.plain ≠ .list name) :
    ValueLists.get? (lastOfEach (listRows (before ++ entry :: after))) name =
      some (rowTexts entry.2) := by
  have none : (listRows after).reverse.find? (·.1 == name) = none := by
    apply List.find?_eq_none.mpr
    intro row member same
    obtain ⟨later, among, own⟩ := exists_of_mem_listRows (List.mem_reverse.mp member)
    rw [eq_of_beq same] at own
    exact last later among own
  rw [← foldl_put_eq_lastOfEach putList_eq_upsert, ValueLists.get?_foldl_put, listRows_append,
    listRows_cons named, List.reverse_append, List.reverse_cons, List.find?_append, List.find?_append,
    none]
  simp

/-- The key of a list is a text in one of two spellings. -/
theorem spelling {key : Value} {name : Text} (named : Section.Names key.plain (.list name)) :
    key = .text (("list." : Text) ++ Placeholder.text name) ∨ key = .text (("list." : Text) ++ name) := by
  rcases named with wrapped | ⟨plain, -⟩
  · exact .inl (Value.eq_text_of_plain (by simp) wrapped)
  · exact .inr (Value.eq_text_of_plain (by simp) plain)

/-- The two keys spell the name of a list differently. -/
def SpelledApart (name : Text) (first second : Value) : Prop :=
  first = .text (("list." : Text) ++ name) ∧ second = .text (("list." : Text) ++ Placeholder.text name) ∨
    first = .text (("list." : Text) ++ Placeholder.text name) ∧ second = .text (("list." : Text) ++ name)

/-- Different keys of one list are spelled differently. -/
theorem spelledApart_of_names {first second : Value} {name : Text} (unlike : first.same second = false)
    (one : Section.Names first.plain (.list name)) (other : Section.Names second.plain (.list name)) :
    SpelledApart name first second := by
  have different : ∀ key : Text, first = .text key → second = .text key → False := by
    rintro key rfl rfl
    rw [Value.same, beq_self_eq_true] at unlike
    cases unlike
  rcases spelling one with own | own
  · rcases spelling other with also | also
    · exact (different _ own also).elim
    · exact .inr ⟨own, also⟩
  · rcases spelling other with also | also
    · exact .inl ⟨own, also⟩
    · exact (different _ own also).elim

theorem spellings_differ (name : Text) :
    Value.text (("list." : Text) ++ name) ≠ .text (("list." : Text) ++ Placeholder.text name) := by
  intro same
  have lengths := congrArg List.length (List.append_cancel_left (Value.text.inj same))
  simp only [Placeholder.text, List.length_cons, List.length_append, List.length_nil] at lengths
  omega

/-- A name has no third spelling. -/
theorem not_spelledApart_thrice {first second third : Value} {name : Text}
    (one : SpelledApart name first second) (two : SpelledApart name first third) :
    ¬SpelledApart name second third := by
  have different := spellings_differ name
  intro three
  rcases one with ⟨rfl, rfl⟩ | ⟨rfl, rfl⟩
  · rcases two with ⟨-, rfl⟩ | ⟨same, -⟩
    · rcases three with ⟨same, -⟩ | ⟨-, same⟩
      · exact different same.symm
      · exact different same.symm
    · exact different same
  · rcases two with ⟨same, -⟩ | ⟨-, rfl⟩
    · exact different same.symm
    · rcases three with ⟨-, same⟩ | ⟨same, -⟩
      · exact different same
      · exact different same

variable {store : FileStore}

/-- The entries of files that are apart have different keys. -/
theorem distinct_of_apart {files : List LoadedFile} (loaded : Loaded store files)
    (apart : Apart files) :
    (files.flatMap (·.entries)).Pairwise fun a b => Entries.alike a b = false := by
  apply List.pairwise_flatMap.mpr
  constructor
  · intro file member
    exact (regular_of_loadFile (loaded file member)).distinct
  · refine List.Pairwise.imp ?_ apart
    intro earlier later none entry own other member
    by_contra like
    exact none other member ⟨entry, own, Bool.eq_true_of_not_eq_false like⟩

/-- The corpus of files that are merged under the policy `error` is read from all their entries. -/
theorem lists_eq_of_load {files : List LoadedFile} (loaded : Loaded store files) {corpus : Corpus}
    (made : load store .error (files.map (·.source)) = .ok corpus) :
    Apart files ∧ InFormat (.map (files.flatMap (·.entries))) ∧
      corpus.lists = lastOfEach (listRows (files.flatMap (·.entries))) := by
  obtain ⟨entries, merged, shaped⟩ := bind_eq_ok_iff.mp made
  rw [mapError_eq_ok_iff] at merged shaped
  have apart := apart_of_mergeFiles loaded merged
  rw [mergeFiles_of_apart loaded apart] at merged
  cases merged
  obtain ⟨good, rfl⟩ := (ofValue_eq_ok_iff _ corpus).mp shaped
  exact ⟨apart, good, rfl⟩

/-- The value of a list has the format of a row. -/
theorem isListOf_of_inFormat {entries : Entries} (good : InFormat (.map entries))
    {entry : Value × Value} (member : entry ∈ entries) {name : Text}
    (named : Section.ofKey entry.1.plain = .list name) : IsListOf IsItem entry.2 := by
  have own := (good.1 entry member).2
  rw [MayHold, named] at own
  exact own

/-- What becomes of the definitions of lists in files that are merged under the policy `error`: a list has
the values of its last definition, and a definition that comes after another one of the same list spells its
key differently. -/
theorem lists_of_load {files : List LoadedFile} (loaded : Loaded store files) {corpus : Corpus}
    (made : load store .error (files.map (·.source)) = .ok corpus) :
    ∀ before entry after name, files.flatMap (·.entries) = before ++ entry :: after →
      Section.Names entry.1.plain (.list name) →
      IsListOf IsItem entry.2 ∧
      ((∀ later ∈ after, ¬Section.Names later.1.plain (.list name)) →
        corpus.lists.get? name = some (rowTexts entry.2)) ∧
      ∀ later ∈ after, Section.Names later.1.plain (.list name) →
        SpelledApart name entry.1 later.1 ∧ corpus.lists.get? name = some (rowTexts later.2) := by
  intro before entry after name place named
  obtain ⟨apart, good, lists⟩ := lists_eq_of_load loaded made
  have distinct := distinct_of_apart loaded apart
  rw [place] at good lists distinct
  obtain ⟨-, own, -⟩ := List.pairwise_append.mp distinct
  obtain ⟨unlike, rest⟩ := List.pairwise_cons.mp own
  have member : entry ∈ before ++ entry :: after := by simp
  refine ⟨isListOf_of_inFormat good member (names_iff.mp named), ?_, ?_⟩
  · intro last
    rw [lists]
    exact get?_lastOfEach (names_iff.mp named) fun later among own =>
      last later among (names_iff.mpr own)
  · intro later among also
    have spelled := spelledApart_of_names (unlike later among) named also
    refine ⟨spelled, ?_⟩
    obtain ⟨middle, tail, rfl⟩ := List.append_of_mem among
    obtain ⟨-, final, -⟩ := List.pairwise_append.mp rest
    have last : ∀ third ∈ tail, Section.ofKey third.1.plain ≠ .list name := by
      intro third behind again
      have far := spelledApart_of_names (unlike third (by simp [behind])) named (names_iff.mpr again)
      have near := spelledApart_of_names ((List.pairwise_cons.mp final).1 third behind) also
        (names_iff.mpr again)
      exact not_spelledApart_thrice spelled far near
    rw [lists, ← List.cons_append, ← List.append_assoc]
    exact get?_lastOfEach (names_iff.mp also) last

/-- A directory with files that define a list in both spellings. -/
def twoSpellings : FileStore where
  working := [[.char 'w']]
  items :=
    [([[.char 'w'], "a.yml"], .file (Text.toUtf8 "list.city: [Madrid]\nlist.day: [1]\n")),
      ([[.char 'w'], "b.yml"], .file (Text.toUtf8 "list.$\x7bcity\x7d: [Burgos]\n"))]

def spelledFiles : List LoadedFile :=
  [⟨"a.yml", [(.text "list.city", .list [.text "Madrid"]), (.text "list.day", .list [.int 1])]⟩,
    ⟨"b.yml", [(.text "list.$\x7bcity\x7d", .list [.text "Burgos"])]⟩]

def spelledCorpus : Corpus :=
  { Corpus.empty with lists := [("city", ["Burgos"]), ("day", ["1"])] }

theorem loaded_spelledFiles : Loaded twoSpellings spelledFiles := by
  unfold Loaded
  decide +kernel

theorem load_twoSpellings :
    load twoSpellings .error (spelledFiles.map (·.source)) = .ok spelledCorpus := by decide +kernel

theorem lists_of_load_twoSpellings :
    Loaded twoSpellings spelledFiles ∧
      load twoSpellings .error (spelledFiles.map (·.source)) = .ok spelledCorpus ∧
      spelledCorpus.lists.get? "city" = some (rowTexts (.list [.text "Burgos"])) ∧
      spelledCorpus.lists.get? "day" = some (rowTexts (.list [.int 1])) := by
  have lists := lists_of_load loaded_spelledFiles load_twoSpellings
  have city := lists [] _ _ "city" rfl (.inr ⟨rfl, by simp [Placeholder.text]⟩)
  have day := lists [_] _ _ "day" rfl (.inr ⟨rfl, by simp [Placeholder.text]⟩)
  refine ⟨loaded_spelledFiles, load_twoSpellings, ?_, ?_⟩
  · exact (city.2.2 (.text "list.$\x7bcity\x7d", .list [.text "Burgos"]) (by simp) (.inl rfl)).2
  · apply day.2.1
    intro later member
    rw [names_iff]
    revert later
    decide

/-- A definition is replaced although no two files share a key. -/
theorem definition_replaced :
    ¬ ∀ (store : FileStore) (files : List LoadedFile) (corpus : Corpus), Loaded store files →
      load store .error (files.map (·.source)) = .ok corpus → ∀ file ∈ files,
      ∀ entry ∈ file.entries, ∀ name, Section.Names entry.1.plain (.list name) →
        corpus.lists.get? name = some (rowTexts entry.2) := by
  intro kept
  have city := kept twoSpellings spelledFiles spelledCorpus loaded_spelledFiles load_twoSpellings
    spelledFiles[0] (by simp [spelledFiles]) (.text "list.city", .list [.text "Madrid"])
    (by simp [spelledFiles]) "city" (.inr ⟨rfl, by simp [Placeholder.text]⟩)
  revert city
  decide

end IntentModel.Corpus
