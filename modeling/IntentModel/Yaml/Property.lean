import IntentModel.Text.Utf8
import IntentModel.Yaml.Cursor

/-! # Tags, anchors and directives

The marks that are put before a node or before a document: anchors and aliases, which name nodes;
tags, which say what a node is; and directives, which introduce shorthands for tags.
-/

namespace IntentModel.Yaml

/-- A tag as it is written: a shorthand, unless the tag is written out, and what stands behind. -/
structure WrittenTag where
  handle : Option Text
  suffix : Text
deriving DecidableEq, Repr

/-- A directive: the version of the language, a shorthand for tags, or one that does not matter. -/
inductive Directive
  | version (major : Nat)
  | shorthand (handle expansion : Text)
  | other
deriving DecidableEq, Repr

def readName (cursor : Cursor) : Except Fault (Text × Cursor) :=
  let name := cursor.run isNameChar
  if name.isEmpty then .error cursor.fault else .ok (name, cursor.advance name.length)

/-- Reads the name of an anchor or an alias behind its mark. -/
def readAnchor (cursor : Cursor) : Except Fault (Text × Cursor) := do
  let (name, cursor) ← readName cursor.next
  let c := cursor.char
  if isGap c || ("?:,]\x7d%@\x60" : Text).contains c then return (name, cursor)
  else .error .malformed

/-- Reads bytes written as a percent sign and two digits each. The first argument bounds their
number. -/
def readEscapedBytes : Nat → Cursor → Except Fault (List UInt8 × Cursor)
  | 0, cursor => .ok ([], cursor)
  | count + 1, cursor =>
    if cursor.char == '%' then
      let code := cursor.next.take 2
      if code.length == 2 && code.all isHexDigit then do
        let (bytes, cursor) ← readEscapedBytes count (cursor.advance 3)
        return (UInt8.ofNat ((Text.toNat? 16 code).getD 0) :: bytes, cursor)
      else .error (cursor.next.faultAt (code.takeWhile isHexDigit).length)
    else .ok ([], cursor)

/-- The characters of the body of a tag. -/
def isTagChar (c : CodePoint) : Bool :=
  isNameChar c || (";/?:@&=+$,.!~*\x27()[]%" : Text).contains c

/-- Reads the body of a tag. The first argument bounds the number of pieces. -/
def readTagPieces : Nat → Cursor → Text → Except Fault (Text × Cursor)
  | 0, cursor, read => .ok (read, cursor)
  | pieces + 1, cursor, read =>
    if cursor.char == '%' then do
      let (bytes, cursor) ← readEscapedBytes (cursor.size + 1) cursor
      match Text.ofUtf8? bytes with
      | some text => readTagPieces pieces cursor (read ++ text)
      | none => .error cursor.fault
    else
      let piece := cursor.run fun c => isTagChar c && c != '%'
      if piece.isEmpty then .ok (read, cursor)
      else readTagPieces pieces (cursor.advance piece.length) (read ++ piece)

/-- Reads the body of a tag, which is not empty. -/
def readTagBody (cursor : Cursor) : Except Fault (Text × Cursor) :=
  if isTagChar cursor.char then readTagPieces (cursor.size + 1) cursor []
  else .error cursor.fault

/-- Reads a shorthand: an exclamation mark, or a name between two of them. -/
def readHandle (cursor : Cursor) : Except Fault (Text × Cursor) :=
  if cursor.char != '!' then .error cursor.fault
  else if cursor.peek 1 == ' ' then .ok ([.char '!'], cursor.next)
  else
    let name := cursor.next.run isNameChar
    if cursor.peek (name.length + 1) == '!' then
      .ok (.char '!' :: name ++ [.char '!'], cursor.advance (name.length + 2))
    else .error (cursor.faultAt (name.length + 1))

def readTag (cursor : Cursor) : Except Fault (WrittenTag × Cursor) := do
  let c := cursor.peek 1
  let (tag, cursor) ←
    if c == '<' then do
      let (body, cursor) ← readTagBody (cursor.advance 2)
      if cursor.char == '>' then pure ((⟨none, body⟩ : WrittenTag), cursor.next)
      else throw cursor.fault
    else if isGap c then pure ((⟨none, [.char '!']⟩ : WrittenTag), cursor.next)
    else do
      let named := (cursor.next.run (!isSpaceOrEnd ·)).contains '!'
      let (handle, cursor) ← if named then readHandle cursor else pure ([.char '!'], cursor.next)
      let (body, cursor) ← readTagBody cursor
      pure ((⟨some handle, body⟩ : WrittenTag), cursor)
  if isSpaceOrEnd cursor.char then return (tag, cursor) else throw .malformed

def readNumber (cursor : Cursor) : Except Fault (Nat × Cursor) :=
  let digits := cursor.run isDigit
  if digits.length > mostDigits then .error .noSuchValue
  else
    match Text.toNat? 10 digits with
    | some n => .ok (n, cursor.advance digits.length)
    | none => .error cursor.fault

def readVersion (cursor : Cursor) : Except Fault (Directive × Cursor) := do
  let (major, cursor) ← readNumber cursor.skipSpaces
  if cursor.char != '.' then throw cursor.fault
  let (_, cursor) ← readNumber cursor.next
  if isSpaceOrEnd cursor.char then return (.version major, cursor) else throw .malformed

/-- Reads a shorthand and its expansion in their directive. -/
def readShorthand (cursor : Cursor) : Except Fault (Directive × Cursor) := do
  let (handle, cursor) ← readHandle cursor.skipSpaces
  if cursor.char != ' ' then throw cursor.fault
  let (expansion, cursor) ← readTagBody cursor.skipSpaces
  if isSpaceOrEnd cursor.char then return (.shorthand handle expansion, cursor)
  else throw .malformed

def readDirective (cursor : Cursor) : Except Fault (Directive × Cursor) := do
  let (name, cursor) ← readName cursor.next
  if !isSpaceOrEnd cursor.char then throw .malformed
  let (directive, cursor) ←
    if name = ("YAML" : Text) then readVersion cursor
    else if name = ("TAG" : Text) then readShorthand cursor
    else pure (Directive.other, cursor.skip (!isLineEnd ·))
  return (directive, ← cursor.endLine)

end IntentModel.Yaml
