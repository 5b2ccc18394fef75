import IntentModel.Yaml.Cursor

/-! # Block scalars

Scalars that are written on indented lines of their own, behind a header. A literal scalar keeps its
line breaks; a folded one turns a single break between two lines that begin with a character into a
space. The header may say how far the lines are indented and what becomes of the breaks at the end.
-/

namespace IntentModel.Yaml

/-- What becomes of the line breaks at the end of a scalar: one is kept, none, or all. -/
inductive Chomping
  | clip
  | strip
  | keep
deriving DecidableEq, Repr

/-- The chomping that an indicator asks for. -/
def Chomping.ofIndicator? : CodePoint → Option Chomping
  | .char '+' => some .keep
  | .char '-' => some .strip
  | _ => none

/-- The header of a block scalar; the indentation is missing if the first line shows it. -/
structure BlockHeader where
  chomping : Chomping
  indentation : Option Nat
deriving DecidableEq, Repr

/-- Reads an indentation of one to nine. -/
def readIndentation (cursor : Cursor) : Except Fault (Option Nat × Cursor) :=
  let c := cursor.char
  if c == '0' then .error .malformed
  else if isDigit c then .ok (digitValue? c, cursor.next)
  else .ok (none, cursor)

def readChomping (cursor : Cursor) : Option Chomping × Cursor :=
  match Chomping.ofIndicator? cursor.char with
  | some chomping => (some chomping, cursor.next)
  | none => (none, cursor)

/-- Reads a header: the two indicators in either order. -/
def readBlockHeader (cursor : Cursor) : Except Fault (BlockHeader × Cursor) := do
  let (early, cursor) := readChomping cursor
  let (indentation, cursor) ← readIndentation cursor
  let (late, cursor) :=
    if early.isNone && indentation.isSome then readChomping cursor else (none, cursor)
  if isSpaceOrEnd cursor.char then
    return (⟨(early.or late).getD .clip, indentation⟩, ← cursor.endLine)
  else .error .malformed

/-- Reads the blank lines before the first line with text, and finds the widest indentation in
them. The first argument bounds the number of steps. -/
def readLeadingLines : Nat → Cursor → Text → Nat → Text × Nat × Cursor
  | 0, cursor, breaks, widest => (breaks, widest, cursor)
  | steps + 1, cursor, breaks, widest =>
    if cursor.char == ' ' then
      let cursor := cursor.next
      readLeadingLines steps cursor breaks (max widest cursor.column)
    else if isBreak cursor.char then
      let (first, cursor) := cursor.readBreak
      readLeadingLines steps cursor (breaks ++ first) widest
    else (breaks, widest, cursor)

/-- Moves over spaces up to a column. -/
def skipIndent (indent : Nat) (cursor : Cursor) : Cursor :=
  cursor.advance ((cursor.run (· == .char ' ')).take (indent - cursor.column)).length

/-- Reads blank lines, and the indentation of the line behind them. The first argument bounds their
number. -/
def readBlankLines (indent : Nat) : Nat → Cursor → Text × Cursor
  | 0, cursor => ([], cursor)
  | lines + 1, cursor =>
    let cursor := skipIndent indent cursor
    if isBreak cursor.char then
      let (first, cursor) := cursor.readBreak
      let (more, cursor) := readBlankLines indent lines cursor
      (first ++ more, cursor)
    else ([], cursor)

/-- Reads the lines with text. `breaks` are the line breaks that stand before the line at the
cursor. The result keeps the last break and the ones behind it apart. The first argument bounds the
number of lines. -/
def readBlockLines (folded : Bool) (indent : Nat) :
    Nat → Cursor → Text → Text × Text × Text × Cursor
  | 0, cursor, breaks => ([], [], breaks, cursor)
  | lines + 1, cursor, breaks =>
    let startsWithText := cursor.char != ' ' && cursor.char != '\t'
    let line := cursor.run (!isLineEnd ·)
    let read := breaks ++ line
    let (ending, cursor) := (cursor.advance line.length).readBreak
    let (breaks, cursor) := readBlankLines indent (cursor.size + 1) cursor
    if cursor.column == indent && !cursor.atEnd then
      let folds :=
        folded && ending == [.char '\n'] && startsWithText && cursor.char != ' ' && cursor.char != '\t'
      let between := if folds then (if breaks.isEmpty then [.char ' '] else []) else ending
      let (more, ending, breaks, cursor) := readBlockLines folded indent lines cursor breaks
      (read ++ between ++ more, ending, breaks, cursor)
    else (read, ending, breaks, cursor)

def readBlock (folded : Bool) (indent : Int) (cursor : Cursor) :
    Except Fault (Text × Cursor) := do
  let (header, cursor) ← readBlockHeader cursor.next
  let least := (max (indent + 1) 1).toNat
  let steps := cursor.size + 1
  let (breaks, indent, cursor) :=
    match header.indentation with
    | none =>
      let (breaks, widest, cursor) := readLeadingLines steps cursor [] 0
      (breaks, max least widest, cursor)
    | some indentation =>
      let indent := least + indentation - 1
      let (breaks, cursor) := readBlankLines indent steps cursor
      (breaks, indent, cursor)
  let (read, ending, breaks, cursor) :=
    if cursor.column == indent && !cursor.atEnd then
      readBlockLines folded indent steps cursor breaks
    else ([], [], breaks, cursor)
  let chomped := match header.chomping with
    | .strip => []
    | .clip => ending
    | .keep => ending ++ breaks
  return (read ++ chomped, cursor)

end IntentModel.Yaml
