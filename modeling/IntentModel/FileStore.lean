import IntentModel.Text

/-! # Files and directories

A store of files as a value, and the paths that lead to its places. A path is kept as it is written
but for parts that say nothing; `..` stays, because it leads out of a directory only if that
directory is there. Each operation says which fault it meets where it cannot be carried out.
-/

namespace IntentModel

/-- A path: how it begins at the root, if it does, and its parts. -/
structure Path where
  root : Text
  parts : List Text
deriving DecidableEq, Repr

namespace Path

/-- Reads a path. Empty parts and single dots are dropped; exactly two slashes at the beginning are
kept apart from one. -/
def ofText (text : Text) : Path where
  root :=
    match text with
    | .char '/' :: .char '/' :: .char '/' :: _ => [.char '/']
    | .char '/' :: .char '/' :: _ => [.char '/', .char '/']
    | .char '/' :: _ => [.char '/']
    | _ => []
  parts := (text.splitOn (.char '/')).filter fun part => !part.isEmpty && part != [.char '.']

/-- The written form of a path; the path without parts is a dot. -/
def text (path : Path) : Text :=
  if path.root.isEmpty && path.parts.isEmpty then [.char '.']
  else path.root ++ Text.join [.char '/'] path.parts

def parent (path : Path) : Path :=
  { path with parts := path.parts.dropLast }

end Path

/-- A place in a store: the names on the way from the root. -/
abbrev Place := List Text

/-- The number of bytes that a name takes up. A surrogate stands for one byte that belongs to no character. -/
def byteCount : Text → Nat
  | [] => 0
  | c :: name => c.char?.elim 1 Char.utf8Size + byteCount name

/-- Whether a code point can stand in a path: neither the character that ends texts for the system nor a
surrogate that stands for no byte. -/
def CodePoint.isSpoken : CodePoint → Bool
  | .char c => c != '\x00'
  | .surrogate index => 0x480 ≤ index.val && index.val < 0x500

inductive Item
  | file (bytes : List UInt8)
  | directory
deriving DecidableEq, Repr

/-- Why an operation on files cannot be carried out. -/
inductive FileFault
  /-- Nothing is there. -/
  | missing
  /-- The way leads through a file. -/
  | notDirectory
  /-- A directory is where a file should be. -/
  | isDirectory
  /-- A file is where a directory should be. -/
  | alreadyThere
  /-- A name or the whole path takes up too many bytes. -/
  | tooLong
  /-- The path holds something that the system has no bytes for, or the character that ends its texts. -/
  | notPath
deriving DecidableEq, Repr

/-- A store of files. The working directory and the directories above it are always there. -/
structure FileStore where
  working : Place
  items : List (Place × Item)
deriving DecidableEq, Repr

/-- Where an operation of several steps could not go on: what kept it, and the store with the steps
that were done. -/
structure Halt where
  fault : FileFault
  store : FileStore
deriving DecidableEq, Repr

namespace FileStore

def item? (store : FileStore) (place : Place) : Option Item :=
  if place.isPrefixOf store.working then some .directory else store.items.lookup place

def put (store : FileStore) (place : Place) (item : Item) : FileStore :=
  let kept := store.items.filter (·.1 != place)
  { store with items := kept ++ [(place, item)] }

def longestName : Nat :=
  255

def longestPath : Nat :=
  4095

/-- Goes from a directory to a part of it, or out of it. -/
def step (store : FileStore) (place : Place) (part : Text) : Except FileFault Place :=
  match store.item? place with
  | some .directory =>
    if part = [.char '.', .char '.'] then .ok place.dropLast
    else if byteCount part > longestName then .error .tooLong
    else .ok (place ++ [part])
  | some (.file _) => .error .notDirectory
  | none => .error .missing

/-- The place to which a path leads; the directories on the way have to be there. -/
def locate (store : FileStore) (path : Path) : Except FileFault Place :=
  if !path.text.all CodePoint.isSpoken then .error .notPath
  else if byteCount path.text > longestPath then .error .tooLong
  else path.parts.foldlM store.step (if path.root.isEmpty then store.working else [])

/-- The places on the way of a path, from its first part to its end, as far as directories are found
where they are needed. -/
def placesOn (store : FileStore) (path : Path) : List Place :=
  let start := if path.root.isEmpty then store.working else []
  let advance (place : Place) (part : Text) : Place :=
    if part = [.char '.', .char '.'] then place.dropLast else place ++ [part]
  (path.parts.foldl (fun places part => advance (places.headD start) part :: places) []).reverse

def at? (store : FileStore) (path : Path) : Option Item :=
  match store.locate path with
  | .ok place => store.item? place
  | .error _ => none

/-- Whether a path leads to something. A path that is too long cannot be asked for. -/
def has? (store : FileStore) (path : Path) : Except FileFault Bool :=
  match store.locate path with
  | .ok place => .ok (store.item? place).isSome
  | .error .tooLong => .error .tooLong
  | .error _ => .ok false

def read (store : FileStore) (path : Path) : Except FileFault (List UInt8) := do
  match store.item? (← store.locate path) with
  | some (.file bytes) => return bytes
  | some .directory => throw .isDirectory
  | none => throw .missing

/-- Makes one directory, unless it is there. -/
def makeDirectory (store : FileStore) (path : Path) : Except FileFault FileStore := do
  let place ← store.locate path
  match store.item? place with
  | some .directory => return store
  | some (.file _) => throw .alreadyThere
  | none => return store.put place .directory

/-- Makes a directory and those above it that are missing. The first argument bounds the number of
parts. -/
def makeAbove : Nat → Path → FileStore → Except Halt FileStore
  | 0, path, store => (store.makeDirectory path).mapError (⟨·, store⟩)
  | parts + 1, path, store =>
    match store.makeDirectory path with
    | .error .missing => do
      let store ← makeAbove parts path.parent store
      (store.makeDirectory path).mapError (⟨·, store⟩)
    | made => made.mapError (⟨·, store⟩)

/-- Makes a directory and those above it that are missing. -/
def makeDirectories (store : FileStore) (path : Path) : Except Halt FileStore :=
  makeAbove path.parts.length path store

/-- Gives a file new content; the directory of the file has to be there. -/
def write (store : FileStore) (path : Path) (bytes : List UInt8) : Except FileFault FileStore := do
  let place ← store.locate path
  match store.item? place with
  | some .directory => throw .isDirectory
  | _ => return store.put place (.file bytes)

/-- What a store holds that an earlier one did not hold, in the order in which it was put. -/
def changesSince (store earlier : FileStore) : List (Place × Item) :=
  store.items.filter fun entry => !earlier.items.contains entry

end FileStore

end IntentModel
