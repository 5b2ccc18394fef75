import IntentModel.Number.Digits
import IntentModel.Yaml.Passage

/-! # Places in a YAML text

A cursor is the rest of a text together with the place where it begins. Columns matter, because the
layout of a text carries its structure. Behind the end every cursor shows the character NUL, which
no text may hold. A cursor also knows the size of the whole text, which bounds whatever is repeated
on the way to its end, and what stops the reading there.
-/

namespace IntentModel.Yaml

/-- Line feed, carriage return, next line, and the separators of lines and paragraphs. -/
def isBreak (c : CodePoint) : Bool :=
  c == '\n' || c == '\r' || c == '\x85' || c == '\u2028' || c == '\u2029'

/-- A line break or the end of the text. -/
def isLineEnd (c : CodePoint) : Bool :=
  c == '\x00' || isBreak c

/-- A space, a line break or the end of the text. -/
def isSpaceOrEnd (c : CodePoint) : Bool :=
  c == ' ' || isLineEnd c

/-- A space, a tab, a line break or the end of the text. -/
def isGap (c : CodePoint) : Bool :=
  c == '\t' || isSpaceOrEnd c

/-- Letters and digits of ASCII, the hyphen and the underscore: what names are made of. -/
def isNameChar (c : CodePoint) : Bool :=
  c.isAlphanum || c == '-' || c == '_'

/-- The rest of a text and the place where it begins. -/
structure Cursor where
  /-- The number of characters of the whole text. -/
  size : Nat
  rest : Text
  index : Nat
  line : Nat
  column : Nat
  /-- The fault behind the rest; nothing where the text ends there. -/
  stop : Option Fault

namespace Cursor

def start (passage : Passage) : Cursor :=
  ⟨passage.text.length, passage.text, 0, 0, 0, passage.stop⟩

def peek (cursor : Cursor) (ahead : Nat) : CodePoint :=
  (cursor.rest[ahead]?).getD '\x00'

def char (cursor : Cursor) : CodePoint :=
  cursor.peek 0

def atEnd (cursor : Cursor) : Bool :=
  cursor.rest.isEmpty

/-- The fault of a text in which the character `ahead` places further on cannot stand there. What
stops the reading before that place is the fault then. -/
def faultAt (cursor : Cursor) (ahead : Nat) : Fault :=
  if (cursor.rest[ahead]?).isSome then .malformed else cursor.stop.getD .malformed

/-- The fault of a text in which the character at the cursor cannot stand there. -/
def fault (cursor : Cursor) : Fault :=
  cursor.faultAt 0

def take (cursor : Cursor) (count : Nat) : Text :=
  cursor.rest.take count

/-- Moves over one character. A carriage return with a line feed behind it does not yet end the
line, and a byte order mark takes no column. -/
def next (cursor : Cursor) : Cursor :=
  match cursor.rest with
  | [] => cursor
  | c :: rest =>
    let endsLine := isBreak c && !(c == '\r' && rest.head? == some '\n')
    { size := cursor.size
      rest
      index := cursor.index + 1
      line := if endsLine then cursor.line + 1 else cursor.line
      column := if endsLine then 0 else if c == '\uFEFF' then cursor.column else cursor.column + 1
      stop := cursor.stop }

def advance (cursor : Cursor) : Nat → Cursor
  | 0 => cursor
  | count + 1 => cursor.next.advance count

def run (cursor : Cursor) (inClass : CodePoint → Bool) : Text :=
  cursor.rest.takeWhile inClass

def skip (cursor : Cursor) (inClass : CodePoint → Bool) : Cursor :=
  cursor.advance (cursor.run inClass).length

def skipSpaces (cursor : Cursor) : Cursor :=
  cursor.skip (· == .char ' ')

/-- Moves over a comment, if one begins here. -/
def skipComment (cursor : Cursor) : Cursor :=
  if cursor.char == '#' then cursor.skip (!isLineEnd ·) else cursor

/-- Reads a line break, as a line feed unless it is a separator; nothing where there is none. -/
def readBreak (cursor : Cursor) : Text × Cursor :=
  let c := cursor.char
  if c == '\r' && cursor.peek 1 == '\n' then ([.char '\n'], cursor.advance 2)
  else if c == '\n' || c == '\r' || c == '\x85' then ([.char '\n'], cursor.next)
  else if c == '\u2028' || c == '\u2029' then ([c], cursor.next)
  else ([], cursor)

/-- Whether `mark` stands here with a gap behind it. -/
def showsMark (cursor : Cursor) (mark : Text) : Bool :=
  cursor.take 3 == mark && isGap (cursor.peek 3)

/-- Whether a mark stands here that begins or ends a document. -/
def showsDocumentMark (cursor : Cursor) : Bool :=
  cursor.showsMark "---" || cursor.showsMark "..."

/-- Reads to the end of a line on which nothing but a comment may stand. -/
def endLine (cursor : Cursor) : Except Fault Cursor :=
  let cursor := cursor.skipSpaces.skipComment
  if isLineEnd cursor.char then .ok cursor.readBreak.2 else .error .malformed

end Cursor

end IntentModel.Yaml
