import IntentModel.Corpus.Source
import IntentModel.Proofs.Value.Decidable
import IntentModel.Proofs.Yaml.Filling

/-! # Merging files

The files of a corpus are merged in their order. Under the policy `override` the merged mapping has every
key of every file, where it came first, with the value of the last file that has it. Under the policy
`error` the files have to be apart: no two of them share a key. Files that are apart are lined up
(`foldlM_mergeFile_of_apart`), and otherwise the first shared key is blamed on the one earlier file that
has it (`foldlM_mergeFile_of_shared`).
-/

namespace IntentModel.Corpus

deriving instance DecidableEq for SourceError

variable {store : FileStore}

/-- The entries of a file that can be loaded are regular. -/
theorem regular_of_loadFile {source : Text} {entries : Entries}
    (loaded : loadFile store source = .ok entries) : entries.Regular := by
  obtain ⟨found, -, loaded⟩ := bind_eq_ok_iff.mp loaded
  dsimp only at loaded
  split at loaded
  · cases loaded
  · split at loaded
    · split at loaded
      · cases loaded
      · cases loaded
      · cases loaded
      · next read =>
        split at loaded
        · cases loaded
          exact ⟨nofun, .nil⟩
        · next shape =>
          cases loaded
          exact Yaml.regular_of_load read shape
        · cases loaded
    · cases loaded

structure LoadedFile where
  source : Text
  entries : Entries

/-- The files hold what is said of them. -/
def Loaded (store : FileStore) (files : List LoadedFile) : Prop :=
  ∀ file ∈ files, loadFile store file.source = .ok file.entries

def LoadedFile.Has (file : LoadedFile) (key : Value) : Prop :=
  ∃ entry ∈ file.entries, entry.1.same key = true

instance (file : LoadedFile) (key : Value) : Decidable (file.Has key) :=
  inferInstanceAs (Decidable (∃ entry ∈ file.entries, entry.1.same key = true))

/-- No two files have a key in common. -/
def Apart (files : List LoadedFile) : Prop :=
  files.Pairwise fun earlier later => ∀ entry ∈ later.entries, ¬earlier.Has entry.1

/-- The value of a key in the last file that has it. -/
def lastValue? (files : List LoadedFile) (key : Value) : Option Value :=
  files.reverse.findSome? fun file => file.entries.get? key

/-- Each key of the files, in the order in which they come first, with its value in the last file that has
it. A key that is not even equal to itself is in no other file and has its own value. -/
def mergedMapping (files : List LoadedFile) : Entries :=
  (firsts Entries.alike (files.flatMap (·.entries))).map fun entry =>
    (entry.1, (lastValue? files entry.1).getD entry.2)

/-- The first key that files share: the files before `file` are apart, the key is the first one of `file`
that a file before it has, and `first` is the only file before it that does. -/
def FirstShared (files : List LoadedFile) (first file : LoadedFile) (key : Value) : Prop :=
  ∃ lead middle after clean item rest,
    files = lead ++ first :: middle ++ file :: after ∧
    Apart (lead ++ first :: middle) ∧
    file.entries = clean ++ (key, item) :: rest ∧
    (∀ entry ∈ clean, ∀ earlier ∈ lead ++ first :: middle, ¬earlier.Has entry.1) ∧
    first.Has key ∧
    ∀ earlier ∈ lead ++ middle, ¬earlier.Has key

def sharedError (key : Value) (first second : Text) : SourceError :=
  if key.isShowable then .duplicateKey key.plain first second else .tooManyDigits

/-! ## The later file wins -/

theorem mergeEntry_override (source : Text) (merged : List MergedEntry) (entry : Value × Value) :
    mergeEntry .override source merged entry = .ok (putMerged entry.1 entry.2 source merged) := by
  rw [mergeEntry]
  exact nofun

/-- An entry of the merged mapping without the file that it comes from. -/
def MergedEntry.pair (entry : MergedEntry) : Value × Value :=
  (entry.key, entry.value)

/-- Merging is putting, if it is not asked which file an entry comes from. -/
theorem map_putMerged (key value : Value) (origin : Text) (merged : List MergedEntry) :
    (putMerged key value origin merged).map MergedEntry.pair =
      Entries.put key value (merged.map MergedEntry.pair) := by
  induction merged with
  | nil => rfl
  | cons entry merged ih =>
    simp only [putMerged, List.map_cons, MergedEntry.pair, Entries.put]
    by_cases own : entry.key.same key = true
    · rw [if_pos own, if_pos own]
      rfl
    · rw [if_neg own, if_neg own, List.map_cons, ih]
      rfl

theorem foldlM_mergeEntry_override (source : Text) (entries : Entries) (merged : List MergedEntry) :
    ∃ final, entries.foldlM (mergeEntry .override source) merged = .ok final ∧
      final.map MergedEntry.pair = Entries.putAll (merged.map MergedEntry.pair) entries := by
  induction entries generalizing merged with
  | nil => exact ⟨merged, rfl, rfl⟩
  | cons entry entries ih =>
    obtain ⟨final, run, same⟩ := ih (putMerged entry.1 entry.2 source merged)
    refine ⟨final, ?_, ?_⟩
    · rw [List.foldlM_cons, mergeEntry_override]
      exact run
    · rw [same, map_putMerged]
      rfl

theorem foldlM_mergeFile_override {files : List LoadedFile} (loaded : Loaded store files)
    (merged : List MergedEntry) :
    ∃ final, (files.map (·.source)).foldlM (mergeFile store .override) merged = .ok final ∧
      final.map MergedEntry.pair =
        Entries.putAll (merged.map MergedEntry.pair) (files.flatMap (·.entries)) := by
  induction files generalizing merged with
  | nil => exact ⟨merged, rfl, rfl⟩
  | cons file files ih =>
    obtain ⟨own, others⟩ := List.forall_mem_cons.mp loaded
    obtain ⟨middle, first, put⟩ := foldlM_mergeEntry_override file.source file.entries merged
    obtain ⟨final, run, same⟩ := ih others middle
    refine ⟨final, ?_, ?_⟩
    · rw [List.map_cons, List.foldlM_cons, mergeFile, own]
      exact bind_eq_ok_iff.mpr ⟨middle, first, run⟩
    · rw [same, put, List.flatMap_cons, Entries.putAll, Entries.putAll, Entries.putAll,
        List.foldl_append]

theorem plain_of_loaded {files : List LoadedFile} (loaded : Loaded store files)
    {row : Value × Value} (member : row ∈ files.flatMap (·.entries)) : row.1.IsPlainKey := by
  obtain ⟨file, among, own⟩ := List.mem_flatMap.mp member
  exact (regular_of_loadFile (loaded file among)).plain row own

theorem lastLike_flatMap {files : List LoadedFile} (loaded : Loaded store files)
    {row : Value × Value} (plain : row.1.IsPlainKey) :
    (lastLike Entries.alike (files.flatMap (·.entries)) row).2 =
      (lastValue? files row.1).getD row.2 := by
  have last : lastValue? files row.1 =
      ((files.flatMap (·.entries)).reverse.find? (Entries.alike row)).map (·.2) := by
    rw [lastValue?, List.reverse_flatMap, List.find?_flatMap, List.map_findSome?,
      ← List.head?_filterMap, ← List.head?_filterMap]
    congr 1
    apply List.filterMap_congr
    intro file member
    have regular := regular_of_loadFile (loaded file (List.mem_reverse.mp member))
    exact (Entries.get?_eq_last regular plain).symm
  rw [lastLike, last]
  cases (files.flatMap (·.entries)).reverse.find? (Entries.alike row) with
  | none => rfl
  | some found => rfl

theorem mergeFiles_override {files : List LoadedFile} (loaded : Loaded store files) :
    mergeFiles store .override (files.map (·.source)) = .ok (mergedMapping files) := by
  obtain ⟨final, run, put⟩ := foldlM_mergeFile_override loaded []
  have whole : final.map MergedEntry.pair = Entries.merged (files.flatMap (·.entries)) :=
    put.trans (Entries.ofList_eq_merged fun row member => plain_of_loaded loaded member)
  rw [mergeFiles, run]
  apply congrArg Except.ok
  apply whole.trans
  apply List.map_congr_left
  intro row member
  rw [lastLike_flatMap loaded (plain_of_loaded loaded (mem_of_mem_firsts member))]

/-! ## No two files share a key -/

def LoadedFile.row (file : LoadedFile) (entry : Value × Value) : MergedEntry :=
  ⟨entry.1, entry.2, file.source⟩

def rows (files : List LoadedFile) : List MergedEntry :=
  files.flatMap fun file => file.entries.map file.row

theorem map_pair_rows (files : List LoadedFile) :
    (rows files).map MergedEntry.pair = files.flatMap (·.entries) := by
  rw [rows, List.map_flatMap]
  apply List.flatMap_congr
  intro file _
  rw [List.map_map]
  exact List.map_id _

theorem findMerged?_rows_eq_none_iff {files : List LoadedFile} {key : Value} :
    findMerged? key (rows files) = none ↔ ∀ file ∈ files, ¬file.Has key := by
  simp [findMerged?, rows, LoadedFile.Has, LoadedFile.row]

/-- A row with the key comes from a file that has the key. -/
theorem exists_of_findMerged?_rows {files : List LoadedFile} {key : Value} {row : MergedEntry}
    (found : findMerged? key (rows files) = some row) :
    ∃ file ∈ files, file.Has key ∧ row.origin = file.source := by
  rw [findMerged?] at found
  obtain ⟨file, among, own⟩ := List.mem_flatMap.mp (List.mem_of_find?_eq_some found)
  have same := List.find?_some found
  obtain ⟨entry, member, rfl⟩ := List.mem_map.mp own
  exact ⟨file, among, ⟨entry, member, same⟩, rfl⟩

theorem putMerged_of_new {key value : Value} {origin : Text} {merged : List MergedEntry}
    (new : findMerged? key merged = none) :
    putMerged key value origin merged = merged ++ [⟨key, value, origin⟩] := by
  induction merged with
  | nil => rfl
  | cons entry merged ih =>
    rw [findMerged?, List.find?_cons] at new
    cases own : entry.key.same key with
    | true =>
      rw [own] at new
      cases new
    | false =>
      rw [own] at new
      rw [putMerged, own, ih new]
      rfl

theorem mergeEntry_of_new {policy : ConflictPolicy} {source : Text} {merged : List MergedEntry}
    {entry : Value × Value} (new : findMerged? entry.1 merged = none) :
    mergeEntry policy source merged entry = .ok (putMerged entry.1 entry.2 source merged) := by
  unfold mergeEntry
  split
  · next found => cases new.symm.trans found
  · rfl

theorem mergeEntry_of_shared {source : Text} {merged : List MergedEntry} {entry : Value × Value}
    {earlier : MergedEntry} (shared : findMerged? entry.1 merged = some earlier) :
    mergeEntry .error source merged entry =
      .error (sharedError entry.1 earlier.origin source) := by
  simp only [mergeEntry, shared]
  rfl

/-- The entries of a mapping whose keys are all new come to the end. -/
theorem foldlM_mergeEntry_of_new (file : LoadedFile) {entries : Entries}
    (distinct : entries.Pairwise fun a b => Entries.alike a b = false) {merged : List MergedEntry}
    (new : ∀ entry ∈ entries, findMerged? entry.1 merged = none) :
    entries.foldlM (mergeEntry .error file.source) merged = .ok (merged ++ entries.map file.row) := by
  induction entries generalizing merged with
  | nil => simp [pure, Except.pure]
  | cons entry entries ih =>
    obtain ⟨own, others⟩ := List.forall_mem_cons.mp new
    obtain ⟨apart, rest⟩ := List.pairwise_cons.mp distinct
    have still : ∀ later ∈ entries, findMerged? later.1 (merged ++ [file.row entry]) = none := by
      intro later member
      have unlike : entry.1.same later.1 = false := apart later member
      rw [findMerged?, List.find?_append, ← findMerged?, others later member]
      simp [LoadedFile.row, unlike]
    rw [List.foldlM_cons, mergeEntry_of_new own, putMerged_of_new own]
    exact (ih rest still).trans (by simp)

/-- An entry whose key is there already stops the merging of its file. -/
theorem foldlM_mergeEntry_of_shared (file : LoadedFile) {clean rest : Entries} {entry : Value × Value}
    (distinct : clean.Pairwise fun a b => Entries.alike a b = false) {merged : List MergedEntry}
    (new : ∀ own ∈ clean, findMerged? own.1 merged = none) {earlier : MergedEntry}
    (shared : findMerged? entry.1 merged = some earlier) :
    (clean ++ entry :: rest).foldlM (mergeEntry .error file.source) merged =
      .error (sharedError entry.1 earlier.origin file.source) := by
  have there : findMerged? entry.1 (merged ++ clean.map file.row) = some earlier := by
    rw [findMerged?, List.find?_append, ← findMerged?, shared]
    rfl
  rw [List.foldlM_append, foldlM_mergeEntry_of_new file distinct new]
  refine bind_eq_error_iff.mpr (.inr ⟨_, rfl, ?_⟩)
  rw [List.foldlM_cons]
  exact bind_eq_error_iff.mpr (.inl (mergeEntry_of_shared there))

theorem apart_concat_iff {files : List LoadedFile} {last : LoadedFile} :
    Apart (files ++ [last]) ↔
      Apart files ∧ ∀ entry ∈ last.entries, ∀ file ∈ files, ¬file.Has entry.1 := by
  rw [Apart, List.pairwise_append]
  constructor
  · intro ⟨before, _, across⟩
    exact ⟨before, fun entry member file among => across file among last (by simp) entry member⟩
  · intro ⟨before, across⟩
    refine ⟨before, List.pairwise_singleton .., fun file among other same entry member => ?_⟩
    rw [List.mem_singleton.mp same] at member
    exact across entry member file among

/-- Files that are apart are lined up. -/
theorem foldlM_mergeFile_of_apart {files : List LoadedFile} (loaded : Loaded store files)
    (apart : Apart files) :
    (files.map (·.source)).foldlM (mergeFile store .error) [] = .ok (rows files) := by
  induction files using List.reverseRecOn with
  | nil => rfl
  | append_singleton files last ih =>
    obtain ⟨before, across⟩ := apart_concat_iff.mp apart
    have own := loaded last (by simp)
    rw [List.map_append, List.foldlM_append,
      ih (fun file member => loaded file (List.mem_append_left _ member)) before]
    have new : ∀ entry ∈ last.entries, findMerged? entry.1 (rows files) = none :=
      fun entry member => findMerged?_rows_eq_none_iff.mpr (across entry member)
    have added := foldlM_mergeEntry_of_new last (regular_of_loadFile own).distinct new
    have merge : mergeFile store .error (rows files) last.source = .ok (rows (files ++ [last])) := by
      rw [mergeFile, own]
      exact added.trans (by simp [rows])
    exact bind_eq_ok_iff.mpr ⟨_, rfl, bind_eq_ok_iff.mpr ⟨_, merge, rfl⟩⟩

/-- The first key that files share stops their merging, whatever comes after them. -/
theorem foldlM_mergeFile_of_shared {files : List LoadedFile} (loaded : Loaded store files)
    {first file : LoadedFile} {key : Value} (found : FirstShared files first file key)
    (more : List Text) :
    (files.map (·.source) ++ more).foldlM (mergeFile store .error) [] =
      .error (sharedError key first.source file.source) := by
  obtain ⟨lead, middle, after, clean, item, rest, rfl, apart, entries, fresh, shared, only⟩ := found
  have before : Loaded store (lead ++ first :: middle) := fun other member =>
    loaded other (List.mem_append_left _ member)
  have own := loaded file (by simp)
  have distinct := (regular_of_loadFile own).distinct
  rw [entries] at distinct
  have new : ∀ entry ∈ clean, findMerged? entry.1 (rows (lead ++ first :: middle)) = none :=
    fun entry member => findMerged?_rows_eq_none_iff.mpr (fresh entry member)
  obtain ⟨row, there⟩ : ∃ row, findMerged? key (rows (lead ++ first :: middle)) = some row := by
    apply Option.ne_none_iff_exists'.mp
    intro none
    exact findMerged?_rows_eq_none_iff.mp none first (by simp) shared
  have blamed : row.origin = first.source := by
    obtain ⟨other, member, has, origin⟩ := exists_of_findMerged?_rows there
    rcases List.mem_append.mp member with among | among
    · exact absurd has (only other (List.mem_append_left _ among))
    · rcases List.mem_cons.mp among with rfl | among
      · exact origin
      · exact absurd has (only other (List.mem_append_right _ among))
  have stopped : mergeFile store .error (rows (lead ++ first :: middle)) file.source =
      .error (sharedError key first.source file.source) := by
    rw [mergeFile, own, ← blamed]
    rw [entries]
    exact foldlM_mergeEntry_of_shared file (List.pairwise_append.mp distinct).1 new there
  rw [List.map_append, List.append_assoc, List.foldlM_append, foldlM_mergeFile_of_apart before apart]
  exact bind_eq_error_iff.mpr (.inr ⟨_, rfl, bind_eq_error_iff.mpr (.inl stopped)⟩)

/-- Two files that have one key have it in common. -/
theorem LoadedFile.Has.of_entry {file other : LoadedFile} {key : Value} (regular : file.entries.Regular)
    (fellow : other.entries.Regular) (has : file.Has key) {entry : Value × Value}
    (member : entry ∈ other.entries) (same : entry.1.same key = true) : file.Has entry.1 := by
  obtain ⟨own, among, equal⟩ := has
  have plain := fellow.plain entry member
  exact ⟨own, among, Value.same_trans (regular.plain own among) plain equal (Value.same_symm plain same)⟩

/-- Of files that are apart only one has a key. -/
theorem Apart.only {lead middle : List LoadedFile} {first : LoadedFile}
    (apart : Apart (lead ++ first :: middle)) (loaded : Loaded store (lead ++ first :: middle))
    {key : Value} (has : first.Has key) : ∀ earlier ∈ lead ++ middle, ¬earlier.Has key := by
  have regular : ∀ file ∈ lead ++ first :: middle, file.entries.Regular := fun file member =>
    regular_of_loadFile (loaded file member)
  have own := regular first (by simp)
  obtain ⟨-, inner, across⟩ := List.pairwise_append.mp apart
  obtain ⟨entry, member, same⟩ := id has
  intro earlier among other
  rcases List.mem_append.mp among with before | after
  · have fellow := regular earlier (List.mem_append_left _ before)
    exact across earlier before first (List.mem_cons_self ..) entry member
      (other.of_entry fellow own member same)
  · have fellow := regular earlier (by simp [after])
    obtain ⟨twin, place, equal⟩ := other
    exact (List.pairwise_cons.mp inner).1 earlier after twin place (has.of_entry own fellow place equal)

theorem FirstShared.append {files : List LoadedFile} {first file : LoadedFile} {key : Value}
    (found : FirstShared files first file key) (more : List LoadedFile) :
    FirstShared (files ++ more) first file key := by
  obtain ⟨lead, middle, after, clean, item, rest, rfl, conditions⟩ := found
  exact ⟨lead, middle, after ++ more, clean, item, rest, by simp, conditions⟩

/-- Files that are not apart have a first key that they share. -/
theorem exists_firstShared {files : List LoadedFile} (loaded : Loaded store files)
    (together : ¬Apart files) : ∃ first file key, FirstShared files first file key := by
  induction files using List.reverseRecOn with
  | nil => exact absurd .nil together
  | append_singleton files last ih =>
    have before : Loaded store files := fun file member =>
      loaded file (List.mem_append_left _ member)
    by_cases apart : Apart files
    · -- the last file has the first entry that is shared
      cases found : last.entries.find? fun entry => decide (∃ file ∈ files, file.Has entry.1) with
      | none =>
        refine absurd (apart_concat_iff.mpr ⟨apart, fun entry member file among has => ?_⟩) together
        exact List.find?_eq_none.mp found entry member (decide_eq_true ⟨file, among, has⟩)
      | some entry =>
        obtain ⟨shared, clean, rest, entries, fresh⟩ := List.find?_eq_some_iff_append.mp found
        obtain ⟨first, among, has⟩ := of_decide_eq_true shared
        obtain ⟨lead, middle, rfl⟩ := List.append_of_mem among
        refine ⟨first, last, entry.1, lead, middle, [], clean, entry.2, rest, rfl, apart, entries, ?_,
          has, apart.only before has⟩
        intro own member earlier inside other
        have none := fresh own member
        simp only [Bool.not_eq_true', decide_eq_false_iff_not] at none
        exact none ⟨earlier, inside, other⟩
    · obtain ⟨first, file, key, shared⟩ := ih before apart
      exact ⟨first, file, key, shared.append [last]⟩

/-! ## Both policies -/

/-- Where the policy `error` lets files be merged, the policy `override` does the same. -/
theorem mergeFiles_override_of_error {sources : List Text} {entries : Entries}
    (run : mergeFiles store .error sources = .ok entries) :
    mergeFiles store .override sources = .ok entries := by
  obtain ⟨merged, run, whole⟩ := bind_eq_ok_iff.mp run
  refine bind_eq_ok_iff.mpr ⟨merged, ?_, whole⟩
  refine foldlM_eq_ok_of_imp ?_ run
  intro merged source next step
  obtain ⟨entries, loaded, step⟩ := bind_eq_ok_iff.mp step
  refine bind_eq_ok_iff.mpr ⟨entries, loaded, ?_⟩
  refine foldlM_eq_ok_of_imp ?_ step
  intro merged entry next put
  cases found : findMerged? entry.1 merged with
  | none =>
    rw [mergeEntry_of_new found] at put ⊢
    exact put
  | some earlier =>
    rw [mergeEntry_of_shared found] at put
    cases put

/-- A file that cannot be loaded is not reported as a shared key. -/
theorem loadFile_ne_sharedError (source : Text) (key : Value) (first second : Text) :
    loadFile store source ≠ .error (sharedError key first second) := by
  intro failed
  generalize reported : sharedError key first second = error at failed
  have shape : ∀ name origin other, error ≠ .duplicateKey name origin other ∧
      error ≠ .tooManyDigits := by
    intro name origin other
    rcases bind_eq_error_iff.mp failed with unknown | ⟨found, -, failed⟩
    · obtain ⟨fault, -, rfl⟩ := mapError_eq_error_iff.mp unknown
      exact ⟨nofun, nofun⟩
    · dsimp only at failed
      split at failed
      · cases failed
        exact ⟨nofun, nofun⟩
      · split at failed
        · split at failed
          -- a file without a fault may still hold no mapping
          on_goal 4 => split at failed
          all_goals cases failed
          all_goals exact ⟨nofun, nofun⟩
        · cases failed
          exact ⟨nofun, nofun⟩
  unfold sharedError at reported
  split_ifs at reported
  · exact (shape _ _ _).1 reported.symm
  · exact (shape [] [] []).2 reported.symm

/-- A key that is equal to itself is shared when its file comes twice. -/
theorem not_apart_of_twice {files : List LoadedFile} (loaded : Loaded store files)
    {lead middle after : List LoadedFile} {file again : LoadedFile}
    (place : files = lead ++ file :: middle ++ again :: after) (same : again.source = file.source)
    {entry : Value × Value} (member : entry ∈ file.entries) (number : entry.1 ≠ .float (.nan false)) :
    ¬Apart files := by
  subst place
  intro apart
  have first := loaded file (by simp)
  have second := loaded again (by simp)
  rw [same, first] at second
  have twin : again.entries = file.entries := (Except.ok.inj second).symm
  have plain := (regular_of_loadFile first).plain entry member
  obtain ⟨-, -, across⟩ := List.pairwise_append.mp apart
  exact across file (by simp) again (by simp) entry (twin ▸ member)
    ⟨entry, member, Value.same_self plain number⟩

theorem mergeFiles_eq_error {policy : ConflictPolicy} {sources : List Text} {error : SourceError}
    (stopped : sources.foldlM (mergeFile store policy) [] = .error error) :
    mergeFiles store policy sources = .error error :=
  bind_eq_error_iff.mpr (.inl stopped)

/-- A file that cannot be loaded stops the merging that gets as far as this file. -/
theorem mergeFiles_of_unloaded {policy : ConflictPolicy} {before after : List Text} {source : Text}
    {error : SourceError} {merged : List MergedEntry}
    (run : before.foldlM (mergeFile store policy) [] = .ok merged)
    (failed : loadFile store source = .error error) :
    mergeFiles store policy (before ++ source :: after) = .error error := by
  have stopped : mergeFile store policy merged source = .error error :=
    bind_eq_error_iff.mpr (.inl failed)
  apply mergeFiles_eq_error
  rw [List.foldlM_append, run]
  exact bind_eq_error_iff.mpr (.inr ⟨merged, rfl, bind_eq_error_iff.mpr (.inl stopped)⟩)

theorem mergeFiles_of_shared {files : List LoadedFile} (loaded : Loaded store files)
    {first file : LoadedFile} {key : Value} (found : FirstShared files first file key)
    (more : List Text) :
    mergeFiles store .error (files.map (·.source) ++ more) =
      .error (sharedError key first.source file.source) :=
  mergeFiles_eq_error (foldlM_mergeFile_of_shared loaded found more)

/-- The entries of files that are apart are lined up. -/
theorem mergeFiles_of_apart {files : List LoadedFile} (loaded : Loaded store files)
    (apart : Apart files) :
    mergeFiles store .error (files.map (·.source)) = .ok (files.flatMap (·.entries)) := by
  rw [mergeFiles, foldlM_mergeFile_of_apart loaded apart, ← map_pair_rows]
  rfl

theorem flatMap_entries_of_apart {files : List LoadedFile} (loaded : Loaded store files)
    (apart : Apart files) : files.flatMap (·.entries) = mergedMapping files := by
  have lined := mergeFiles_override_of_error (mergeFiles_of_apart loaded apart)
  rw [mergeFiles_override loaded] at lined
  exact (Except.ok.inj lined).symm

/-- Files that can be merged under the policy `error` are apart. -/
theorem apart_of_mergeFiles {files : List LoadedFile} (loaded : Loaded store files) {entries : Entries}
    (run : mergeFiles store .error (files.map (·.source)) = .ok entries) : Apart files := by
  by_contra together
  obtain ⟨first, file, key, shared⟩ := exists_firstShared loaded together
  have stopped := mergeFiles_of_shared loaded shared []
  rw [List.append_nil, run] at stopped
  cases stopped

/-- Files that hold mappings are merged as the policy says. Under `override` every key has its value in the
last file that has it. Under `error` the result is the same, but the files have to be apart, and otherwise
the first key that they share is reported, whatever comes after them; a file that comes twice shares with
itself each key that is equal to itself. A file that cannot be loaded is reported, unless under `error` the
files before it share a key. -/
theorem merge_follows_policy {files : List LoadedFile} (loaded : Loaded store files) :
    mergeFiles store .override (files.map (·.source)) = .ok (mergedMapping files) ∧
    ((∃ entries, mergeFiles store .error (files.map (·.source)) = .ok entries) ↔ Apart files) ∧
    (Apart files →
      mergeFiles store .error (files.map (·.source)) = .ok (mergedMapping files)) ∧
    (¬Apart files → ∃ first file key, FirstShared files first file key ∧
      (key.isShowable = true → ∀ more, mergeFiles store .error (files.map (·.source) ++ more) =
        .error (.duplicateKey key.plain first.source file.source))) ∧
    (∀ lead file middle again after, files = lead ++ file :: middle ++ again :: after →
      again.source = file.source → (∃ entry ∈ file.entries, entry.1 ≠ .float (.nan false)) →
      ¬Apart files) ∧
    ∀ source error, loadFile store source = .error error → ∀ more,
      mergeFiles store .override (files.map (·.source) ++ source :: more) = .error error ∧
      (mergeFiles store .error (files.map (·.source) ++ source :: more) = .error error ↔
        Apart files) := by
  have merged : Apart files →
      mergeFiles store .error (files.map (·.source)) = .ok (mergedMapping files) := by
    intro apart
    rw [mergeFiles_of_apart loaded apart, flatMap_entries_of_apart loaded apart]
  refine ⟨mergeFiles_override loaded, ⟨?_, ?_⟩, merged, ?_, ?_, ?_⟩
  · rintro ⟨entries, run⟩
    exact apart_of_mergeFiles loaded run
  · intro apart
    exact ⟨_, merged apart⟩
  · intro together
    obtain ⟨first, file, key, shared⟩ := exists_firstShared loaded together
    refine ⟨first, file, key, shared, fun showable more => ?_⟩
    rw [mergeFiles_of_shared loaded shared more, sharedError, if_pos showable]
  · rintro lead file middle again after place same ⟨entry, member, number⟩
    exact not_apart_of_twice loaded place same member number
  · intro source error failed more
    obtain ⟨final, run, -⟩ := foldlM_mergeFile_override loaded []
    refine ⟨mergeFiles_of_unloaded run failed, ⟨?_, ?_⟩⟩
    · intro reported
      by_contra together
      obtain ⟨first, file, key, shared⟩ := exists_firstShared loaded together
      cases reported.symm.trans (mergeFiles_of_shared loaded shared (source :: more))
      exact loadFile_ne_sharedError source _ _ _ failed
    · intro apart
      exact mergeFiles_of_unloaded (foldlM_mergeFile_of_apart loaded apart) failed

/-- A directory with files of which the first two share a key and the third cannot be read. -/
def sharedKey : FileStore where
  working := [[.char 'w']]
  items :=
    [([[.char 'w'], "a.yml"], .file (Text.toUtf8 "hi: [a]\nbye: [b]\n")),
      ([[.char 'w'], "b.yml"], .file (Text.toUtf8 "yes: [d]\nbye: [c]\n")),
      ([[.char 'w'], "c.yml"], .file (Text.toUtf8 "[\n"))]

def sharedFiles : List LoadedFile :=
  [⟨"a.yml", [(.text "hi", .list [.text "a"]), (.text "bye", .list [.text "b"])]⟩,
    ⟨"b.yml", [(.bool true, .list [.text "d"]), (.text "bye", .list [.text "c"])]⟩]

/-- The later file wins or is refused, and the file that cannot be read is reported where the files before
it may be merged. -/
theorem merge_follows_policy_shared :
    Loaded sharedKey sharedFiles ∧ ¬Apart sharedFiles ∧
    loadFile sharedKey "c.yml" = .error (.unreadable "c.yml") ∧
    mergeFiles sharedKey .override ["a.yml", "b.yml"] =
      .ok [(.text "hi", .list [.text "a"]), (.text "bye", .list [.text "c"]),
        (.bool true, .list [.text "d"])] ∧
    (∀ entries, mergeFiles sharedKey .error ["a.yml", "b.yml"] ≠ .ok entries) ∧
    mergeFiles sharedKey .override ["a.yml", "b.yml", "c.yml"] = .error (.unreadable "c.yml") ∧
    mergeFiles sharedKey .error ["a.yml", "b.yml", "c.yml"] ≠ .error (.unreadable "c.yml") := by
  have loaded : Loaded sharedKey sharedFiles := by
    unfold Loaded
    decide +kernel
  have failed : loadFile sharedKey "c.yml" = .error (.unreadable "c.yml") := by decide +kernel
  have whole : mergedMapping sharedFiles = [(.text "hi", .list [.text "a"]),
      (.text "bye", .list [.text "c"]), (.bool true, .list [.text "d"])] := by decide +kernel
  have together : ¬Apart sharedFiles := by
    unfold Apart
    decide +kernel
  obtain ⟨override, succeeds, -, -, -, unloaded⟩ := merge_follows_policy loaded
  obtain ⟨first, second⟩ := unloaded "c.yml" _ failed []
  refine ⟨loaded, together, failed, override.trans (congrArg _ whole), ?_, first, ?_⟩
  · intro entries run
    exact together (succeeds.mp ⟨entries, run⟩)
  · intro reported
    exact together (second.mp reported)

/-- A directory with a file whose only key is not equal to itself. -/
def unequalKey : FileStore where
  working := [[.char 'w']]
  items := [([[.char 'w'], "a.yml"], .file (Text.toUtf8 "!!float nan: x\n"))]

/-- A file that is not empty can come twice without a conflict. -/
theorem merged_with_itself :
    ¬ ∀ (store : FileStore) (file : LoadedFile), loadFile store file.source = .ok file.entries →
      file.entries ≠ [] →
      ∀ entries, mergeFiles store .error [file.source, file.source] ≠ .ok entries := by
  intro refused
  have loaded : loadFile unequalKey "a.yml" = .ok [(.float (.nan false), .text "x")] := by decide +kernel
  apply refused unequalKey ⟨"a.yml", _⟩ loaded nofun
    [(.float (.nan false), .text "x"), (.float (.nan false), .text "x")]
  decide +kernel

end IntentModel.Corpus
