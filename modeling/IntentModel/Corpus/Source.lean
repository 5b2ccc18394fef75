import IntentModel.Corpus.Shape
import IntentModel.FileStore
import IntentModel.Settings
import IntentModel.Text.Utf8
import IntentModel.Yaml.Load

/-! # Corpora in files

A corpus may be written in several files, each of which holds a mapping. The mappings are merged in
the order of the files; a key keeps the place where it came first. When files share a key, the later
one wins or the merging fails, as the policy says.
-/

namespace IntentModel

/-- Why files do not give a mapping. -/
inductive SourceError
  /-- There is no file. -/
  | missing (path : Text)
  /-- The file cannot be read or is not well-formed. -/
  | unreadable (path : Text)
  /-- The file holds something else. -/
  | notMapping (path : Text) (found : Value)
  /-- Two files define one key. -/
  | duplicateKey (key first second : Text)
  /-- A scalar in the file has no value. -/
  | badScalar (fault : Yaml.Fault)
  /-- A path cannot be looked up. -/
  | badPath (fault : FileFault)
  /-- A key that two files define is an integer with too many digits to be named. -/
  | tooManyDigits
deriving Repr

namespace SourceError

/-- The text of the error, if it has one. Where a file is unreadable, what the system or the reader says about
it follows behind a colon and is left out here. -/
def message? : SourceError → Option Text
  | missing path => some ("Training file not found: " ++ path)
  | unreadable path => some ("Not able to parse language model " ++ path)
  | notMapping path found =>
    some ("Top level of " ++ path ++ (" must be a mapping, got " : Text) ++ found.kind)
  | duplicateKey key first second =>
    some ("Key '" ++ key ++ ("' defined in both " : Text) ++ first ++ (" and " : Text) ++ second)
  | badScalar _ => none
  | badPath _ => none
  | tooManyDigits => none

end SourceError

namespace Corpus

/-- The mapping in a file; an empty file holds the empty one. -/
def loadFile (store : FileStore) (source : Text) : Except SourceError Entries := do
  let path := Path.ofText source
  if !(← (store.has? path).mapError .badPath) then throw (.missing path.text)
  let .ok bytes := store.read path | throw (.unreadable path.text)
  match Yaml.load bytes with
  | .error .malformed => throw (.unreadable path.text)
  | .error .notText => throw (.unreadable path.text)
  | .error fault => throw (.badScalar fault)
  | .ok value =>
    match value.opened with
    | .null => return []
    | .map entries => return entries
    | _ => throw (.notMapping path.text value)

/-- An entry of the merged mapping and the file that gave it its value. -/
structure MergedEntry where
  key : Value
  value : Value
  origin : Text

def findMerged? (key : Value) (merged : List MergedEntry) : Option MergedEntry :=
  merged.find? (·.key.same key)

/-- Puts an entry; a key that is there keeps its place and its form. -/
def putMerged (key value : Value) (origin : Text) : List MergedEntry → List MergedEntry
  | [] => [⟨key, value, origin⟩]
  | entry :: merged =>
    if entry.key.same key then ⟨entry.key, value, origin⟩ :: merged
    else entry :: putMerged key value origin merged

def mergeEntry (policy : ConflictPolicy) (source : Text) (merged : List MergedEntry)
    (entry : Value × Value) : Except SourceError (List MergedEntry) :=
  match policy, findMerged? entry.1 merged with
  | .error, some earlier =>
    .error
      (if entry.1.isShowable then .duplicateKey entry.1.plain earlier.origin source
      else .tooManyDigits)
  | _, _ => .ok (putMerged entry.1 entry.2 source merged)

def mergeFile (store : FileStore) (policy : ConflictPolicy) (merged : List MergedEntry)
    (source : Text) : Except SourceError (List MergedEntry) := do
  (← loadFile store source).foldlM (mergeEntry policy source) merged

def mergeFiles (store : FileStore) (policy : ConflictPolicy) (sources : List Text) :
    Except SourceError Entries := do
  let merged ← sources.foldlM (mergeFile store policy) []
  return merged.map fun entry => (entry.key, entry.value)

inductive LoadError
  | source (error : SourceError)
  | corpus (error : CorpusError)
deriving Repr

def load (store : FileStore) (policy : ConflictPolicy) (sources : List Text) :
    Except LoadError Corpus := do
  let entries ← (mergeFiles store policy sources).mapError .source
  (ofValue (.map entries)).mapError .corpus

end Corpus

end IntentModel
