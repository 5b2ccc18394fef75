import IntentModel.Yaml.Cursor

/-! # Quoted scalars

Scalars between single or double quotes. Blanks around a line break are dropped and a single break
is a space; further breaks are kept. Between single quotes only the quote itself is escaped, by
writing it twice; between double quotes a backslash begins an escape.
-/

namespace IntentModel.Yaml

/-- The character that a one-letter escape stands for. -/
def simpleEscape? : CodePoint → Option CodePoint
  | .char '0' => some '\x00'
  | .char 'a' => some '\x07'
  | .char 'b' => some '\x08'
  | .char 't' => some '\t'
  | .char '\t' => some '\t'
  | .char 'n' => some '\n'
  | .char 'v' => some '\x0b'
  | .char 'f' => some '\x0c'
  | .char 'r' => some '\r'
  | .char 'e' => some '\x1b'
  | .char ' ' => some ' '
  | .char '\x22' => some '\x22'
  | .char '\\' => some '\\'
  | .char '/' => some '/'
  | .char 'N' => some '\x85'
  | .char '_' => some '\xA0'
  | .char 'L' => some '\u2028'
  | .char 'P' => some '\u2029'
  | _ => none

/-- The number of hexadecimal digits of an escape by number. -/
def hexEscape? : CodePoint → Option Nat
  | .char 'x' => some 2
  | .char 'u' => some 4
  | .char 'U' => some 8
  | _ => none

def charOfNumber (number : Nat) : Except Fault CodePoint :=
  if number < 0x110000 then .ok (CodePoint.ofNat number)
  else if number < 0x80000000 then .error .noSuchValue
  else .error .numberTooLarge

/-- Reads hexadecimal digits as the number of a character. -/
def readHexEscape (digits : Nat) (cursor : Cursor) : Except Fault (CodePoint × Cursor) :=
  let code := cursor.take digits
  if code.length == digits && code.all isHexDigit then do
    let c ← charOfNumber ((Text.toNat? 16 code).getD 0)
    return (c, cursor.advance digits)
  else .error (cursor.faultAt (code.takeWhile isHexDigit).length)

/-- Reads the line breaks behind a first one, with the blanks around them. A document mark may not
stand inside a scalar. The first argument bounds the number of lines. -/
def readMoreBreaks : Nat → Cursor → Except Fault (Text × Cursor)
  | 0, _ => .error .malformed
  | lines + 1, cursor =>
    if cursor.showsDocumentMark then .error .malformed
    else
      let cursor := cursor.skip fun c => c == ' ' || c == '\t'
      if isBreak cursor.char then do
        let (first, cursor) := cursor.readBreak
        let (more, cursor) ← readMoreBreaks lines cursor
        return (first ++ more, cursor)
      else .ok ([], cursor)

/-- Reads blanks inside a quoted scalar, and the line breaks among them. -/
def readQuotedBlanks (cursor : Cursor) : Except Fault (Text × Cursor) :=
  let blanks := cursor.run fun c => c == ' ' || c == '\t'
  let cursor := cursor.advance blanks.length
  if cursor.atEnd then .error cursor.fault
  else if isBreak cursor.char then do
    let (first, cursor) := cursor.readBreak
    let (more, cursor) ← readMoreBreaks (cursor.size + 1) cursor
    let folded := if first != [.char '\n'] then first else if more.isEmpty then [.char ' '] else []
    return (folded ++ more, cursor)
  else .ok (blanks, cursor)

/-- Reads an escape behind its backslash. -/
def readEscape (cursor : Cursor) : Except Fault (Text × Cursor) :=
  match simpleEscape? cursor.char, hexEscape? cursor.char with
  | some c, _ => .ok ([c], cursor.next)
  | none, some digits => do
    let (c, cursor) ← readHexEscape digits cursor.next
    return ([c], cursor)
  | none, none =>
    if isBreak cursor.char then
      let cursor := cursor.readBreak.2
      readMoreBreaks (cursor.size + 1) cursor
    else .error cursor.fault

/-- Whether a character ends a run of characters that stand for themselves. -/
def endsQuotedRun (c : CodePoint) : Bool :=
  c == '\x27' || c == '\x22' || c == '\\' || isGap c

/-- Reads a quoted scalar behind its opening quote, to behind the closing one. The first argument
bounds the number of pieces. -/
def readQuotedRest (double : Bool) : Nat → Cursor → Except Fault (Text × Cursor)
  | 0, _ => .error .malformed
  | pieces + 1, cursor =>
    let plain := cursor.run (!endsQuotedRun ·)
    let cursor := cursor.advance plain.length
    let c := cursor.char
    let goOn (piece : Text) (cursor : Cursor) : Except Fault (Text × Cursor) := do
      let (more, cursor) ← readQuotedRest double pieces cursor
      return (plain ++ piece ++ more, cursor)
    if cursor.atEnd then .error cursor.fault
    else if !double && c == '\x27' then
      if cursor.peek 1 == '\x27' then goOn [c] (cursor.advance 2) else .ok (plain, cursor.next)
    else if double && c == '\x22' then .ok (plain, cursor.next)
    else if double && c == '\\' then do
      let (escaped, cursor) ← readEscape cursor.next
      goOn escaped cursor
    else if isGap c then do
      let (blanks, cursor) ← readQuotedBlanks cursor
      goOn blanks cursor
    else goOn [c] cursor.next

def readQuoted (double : Bool) (cursor : Cursor) : Except Fault (Text × Cursor) :=
  readQuotedRest double (cursor.size + 1) cursor.next

end IntentModel.Yaml
