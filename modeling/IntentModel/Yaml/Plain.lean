import IntentModel.Yaml.Cursor

/-! # Plain scalars

Scalars without quotes. They go on over line breaks as long as the lines are indented, and they end
at a comment or where a mark of the structure stands: a colon with a gap behind it and, inside
brackets, any mark of a collection.
-/

namespace IntentModel.Yaml

/-- The marks that collections between brackets are made of. -/
def isFlowMark (c : CodePoint) : Bool :=
  c == ',' || c == '[' || c == ']' || c == '\x7b' || c == '\x7d'

/-- Whether a plain scalar can begin at the cursor. -/
def startsPlain (inFlow : Bool) (cursor : Cursor) : Bool :=
  let c := cursor.char
  let special := ("-?:,[]\x7b\x7d#&*!|>\x27\x22%@\x60" : Text)
  !(isGap c || special.contains c) ||
    (!isGap (cursor.peek 1) && (c == '-' || (!inFlow && (c == '?' || c == ':'))))

/-- Whether a plain scalar ends before `c` with `following` behind it. -/
def endsPlain (inFlow : Bool) (c following : CodePoint) : Bool :=
  isGap c || (c == ':' && (isGap following || (inFlow && isFlowMark following))) ||
    (inFlow && (isFlowMark c || c == '?'))

def plainRun (inFlow : Bool) : Text → Text
  | [] => []
  | c :: rest =>
    if endsPlain inFlow c (rest.head?.getD '\x00') then [] else c :: plainRun inFlow rest

/-- What stands between two runs of a plain scalar. -/
structure PlainGap where
  text : Text
  cursor : Cursor
  /-- A line ended in the gap. -/
  brokeLine : Bool

/-- Reads further line breaks with the spaces before them; nothing if a document mark follows. The
first argument bounds the number of steps. -/
def readPlainBreaks : Nat → Cursor → Option Text × Cursor
  | 0, cursor => (some [], cursor)
  | steps + 1, cursor =>
    let cursor := cursor.skipSpaces
    if isBreak cursor.char then
      let (first, cursor) := cursor.readBreak
      if cursor.showsDocumentMark then (none, cursor)
      else
        let (more, cursor) := readPlainBreaks steps cursor
        (more.map (first ++ ·), cursor)
    else (some [], cursor)

/-- Reads the blanks behind a run; the text is empty where the scalar has to end. -/
def readPlainGap (cursor : Cursor) : PlainGap :=
  let spaces := cursor.run (· == .char ' ')
  let cursor := cursor.advance spaces.length
  if isBreak cursor.char then
    let (first, cursor) := cursor.readBreak
    if cursor.showsDocumentMark then ⟨[], cursor, true⟩
    else
      match readPlainBreaks (cursor.size + 1) cursor with
      | (none, cursor) => ⟨[], cursor, true⟩
      | (some more, cursor) =>
        let folded := if first != [.char '\n'] then first else if more.isEmpty then [.char ' '] else []
        ⟨folded ++ more, cursor, true⟩
  else ⟨spaces, cursor, false⟩

/-- A plain scalar that was read, and whether the reading ended at the beginning of a line. -/
structure PlainScalar where
  content : Text
  cursor : Cursor
  brokeLine : Bool

/-- Reads the runs of a plain scalar; `gap` is what stands before the next one. The first argument
bounds the number of runs. -/
def readPlainRuns (inFlow : Bool) (indent : Int) : Nat → PlainGap → PlainScalar
  | 0, gap => ⟨[], gap.cursor, gap.brokeLine⟩
  | runs + 1, gap =>
    let run := if gap.cursor.char == '#' then [] else plainRun inFlow gap.cursor.rest
    if run.isEmpty then ⟨[], gap.cursor, gap.brokeLine⟩
    else
      let read := gap.text ++ run
      let gap := readPlainGap (gap.cursor.advance run.length)
      if gap.text.isEmpty || gap.cursor.char == '#' || (!inFlow && gap.cursor.column < indent) then
        ⟨read, gap.cursor, gap.brokeLine⟩
      else
        let more := readPlainRuns inFlow indent runs gap
        { more with content := read ++ more.content }

/-- Reads a plain scalar whose further lines have to reach the column `indent`. -/
def readPlain (inFlow : Bool) (indent : Int) (cursor : Cursor) : PlainScalar :=
  readPlainRuns inFlow indent (cursor.size + 1) ⟨[], cursor, false⟩

end IntentModel.Yaml
