import IntentModel.CommandLine.Build
import Std.Time.DateTime.PlainDateTime
import Std.Time.DateTime.Timestamp

/-! # The program

The outer layer of the command line. A call is a function of what it can look at, so this layer
decides nothing: it takes up the files on the way of the paths that the call names, the variables
that its settings and its file of variables mention, and the clock. When the function has answered,
it puts the changed files and the printed text where they belong.
-/

namespace IntentModel.Program

/-- A text as the system takes it here, where a byte that belongs to no character has no place. -/
def spoken (text : Text) : String :=
  String.ofList (text.map fun c => c.char?.getD '\uFFFD')

def placePath (place : Place) : String :=
  spoken (.char '/' :: Text.join [.char '/'] place)

/-- What stands at a place; nothing where it cannot be read. -/
def itemAt (place : Place) : IO (Option Item) := do
  try
    let real ← IO.FS.realPath (placePath place)
    if ← real.isDir then return some .directory
    return some (.file (← IO.FS.readBinFile real).toList)
  catch _ => return none

/-- The store of what stands on the way of some paths. -/
def observeStore (paths : List Path) : IO FileStore := do
  let working := Path.ofText (← IO.currentDir).toString
  let start : FileStore := ⟨working.parts, []⟩
  (paths.flatMap start.placesOn).eraseDups.foldlM (fun store place => do
    match ← itemAt place with
    | some item => return store.put place item
    | none => return store) start

/-- The variables that can matter: those that override settings, the one that leaves files of
variables alone, and those that the file of variables mentions. -/
def observeEnvironment (store : FileStore) : IO Environment := do
  let content := (store.read (.ofText Environment.defaultFile)).toOption.getD []
  let mentioned := Environment.mentioned ((Text.ofUtf8? content).getD []).withLineFeeds
  let names := (Environment.offSwitch :: Settings.overrides.map (·.1) ++ mentioned).eraseDups
  names.filterMapM fun name => do
    return (← IO.getEnv (spoken name)).map fun value => (name, value)

def observeClock : IO Moment := do
  let stamp ← Std.Time.Timestamp.now
  let time := Std.Time.PlainDateTime.ofWallTime (.ofDuration stamp.toDurationSinceUnixEpoch)
  return {
    date := ⟨time.year.toInt.toNat, time.month.toNat, time.day.toNat⟩
    hour := time.hour.toNat
    minute := time.minute.toNat
    second := time.second.toNat
    microsecond := time.nanosecond.toNat / 1000
    offset := some 0 }

def putItem (place : Place) : Item → IO Unit
  | .directory => IO.FS.createDir (placePath place)
  | .file bytes => IO.FS.writeBinFile (placePath place) ⟨bytes.toArray⟩

def usage : String :=
  "usage: intent-model [-h] [-c CULTURE] [-o OUTPUT] [--conflict-policy POLICY] [--timestamp] " ++
    "files [files ...]"

/-- What is said when a call ends without a reported error. -/
def remark : Outcome → Option String
  | .usage => some usage
  | .failed _ => some "The model could not be built."
  | _ => none

/-- Carries out a call; the result is the exit status. -/
def call (arguments : List Text) : IO UInt32 := do
  let store ← observeStore (Request.pathsOf arguments)
  let environment ← observeEnvironment store
  let run := Request.run arguments store environment (← observeClock)
  for (place, item) in run.store.changesSince store do
    putItem place item
  IO.print (spoken run.outcome.output)
  IO.eprint (spoken run.outcome.errors)
  if run.outcome matches .help then IO.println usage
  if let some text := remark run.outcome then IO.eprintln text
  return UInt32.ofNat run.outcome.exitStatus

end IntentModel.Program

def main (arguments : List String) : IO UInt32 :=
  IntentModel.Program.call (arguments.map fun argument : String => (argument : IntentModel.Text))
