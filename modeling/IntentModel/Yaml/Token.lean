import IntentModel.Yaml.Block
import IntentModel.Yaml.Plain
import IntentModel.Yaml.Property
import IntentModel.Yaml.Quoted

/-! # Tokens of a YAML text

A text is first cut into tokens. Besides the marks and scalars that are written, there are tokens
for the beginning and the end of block collections, which the indentation shows, and for a key whose
colon comes later: when a colon is read behind something that can be a key, the key token, and the
beginning of its mapping if it is the first key, are put before it.

`Layout` is the state of this reading. It knows the columns of the open block collections, how many
brackets are open, and where on each bracket level a key may have begun. A key has to stand on one
line and within 1024 characters. A text at fault still has the tokens before the fault, because
something that is wrong among them counts first.
-/

namespace IntentModel.Yaml

inductive Token
  | directive (directive : Directive)
  | documentStart
  | documentEnd
  | streamEnd
  | blockSequenceStart
  | blockMappingStart
  | blockEnd
  | flowSequenceStart
  | flowSequenceEnd
  | flowMappingStart
  | flowMappingEnd
  | blockEntry
  | flowEntry
  | key
  | value
  | alias (name : Text)
  | anchor (name : Text)
  | tag (tag : WrittenTag)
  | scalar (content : Text) (plain : Bool)
deriving DecidableEq, Repr

/-- A place where a key may have begun. A key is required where nothing else can stand. -/
structure KeyCandidate where
  /-- The number of tokens before the key. -/
  place : Nat
  required : Bool
  index : Nat
  line : Nat
  column : Nat

/-- Whether a candidate is too far from a place to be a key there. -/
def KeyCandidate.isStale (candidate : KeyCandidate) (cursor : Cursor) : Bool :=
  candidate.line != cursor.line || cursor.index - candidate.index > 1024

/-- The tokens of a text. If a fault ends them, they are those that are settled before it. -/
structure Tokens where
  items : List Token
  /-- Why there are no further tokens; nothing at the end of the text. -/
  ending : Option Fault

/-- The state of cutting a text into tokens. -/
structure Layout where
  cursor : Cursor
  tokens : Array Token
  openBrackets : Nat
  /-- The column of the innermost block collection, or -1. -/
  indent : Int
  /-- The columns of the block collections around it. -/
  outerIndents : List Int
  /-- Whether a key may begin at the cursor. -/
  keyAllowed : Bool
  /-- Candidates by bracket level. -/
  candidates : List (Nat × KeyCandidate)
  finished : Bool

namespace Layout

def start (passage : Passage) : Layout where
  cursor := .start passage
  tokens := #[]
  openBrackets := 0
  indent := -1
  outerIndents := []
  keyAllowed := true
  candidates := []
  finished := false

def inFlow (layout : Layout) : Bool :=
  layout.openBrackets != 0

def push (layout : Layout) (token : Token) : Layout :=
  { layout with tokens := layout.tokens.push token }

/-- Puts a token that is `length` characters long at the end, and moves over it. -/
def pushMark (layout : Layout) (token : Token) (length : Nat) : Layout :=
  { layout with tokens := layout.tokens.push token, cursor := layout.cursor.advance length }

/-- Moves over spaces, comments and line ends to the next token. Behind a line end outside of
brackets a key may begin. The first argument bounds the number of lines. -/
def toNextToken : Nat → Layout → Layout
  | 0, layout => layout
  | lines + 1, layout =>
    let cursor := layout.cursor.skipSpaces.skipComment
    if isBreak cursor.char then
      toNextToken lines
        { layout with
          cursor := cursor.readBreak.2
          keyAllowed := layout.keyAllowed || !layout.inFlow }
    else { layout with cursor }

/-- Moves over a byte order mark at the beginning of the text, and to the next token. -/
def skipBlanks (layout : Layout) : Layout :=
  let cursor := layout.cursor
  let cursor := if cursor.index == 0 && cursor.char == '\uFEFF' then cursor.next else cursor
  toNextToken (cursor.size + 1) { layout with cursor }

/-- Gives up candidates that are too far away; a required one may not be given up. -/
def dropStale (layout : Layout) : Except Fault Layout :=
  let isStale (candidate : KeyCandidate) : Bool := candidate.isStale layout.cursor
  if layout.candidates.any fun (_, candidate) => isStale candidate && candidate.required then
    .error .malformed
  else
    .ok
      { layout with
        candidates := layout.candidates.filter fun (_, candidate) => !isStale candidate }

/-- Gives up the candidate of the present bracket level. -/
def dropCandidate (layout : Layout) : Except Fault Layout :=
  match layout.candidates.lookup layout.openBrackets with
  | none => .ok layout
  | some candidate =>
    if candidate.required then .error .malformed
    else
      .ok
        { layout with
          candidates := layout.candidates.filter (·.1 != layout.openBrackets) }

/-- Notes that a key may begin at the cursor. -/
def noteCandidate (layout : Layout) : Except Fault Layout := do
  if !layout.keyAllowed then return layout
  let layout ← layout.dropCandidate
  let candidate : KeyCandidate :=
    { place := layout.tokens.size
      required := !layout.inFlow && layout.indent == layout.cursor.column
      index := layout.cursor.index
      line := layout.cursor.line
      column := layout.cursor.column }
  return { layout with candidates := (layout.openBrackets, candidate) :: layout.candidates }

/-- Ends the block collections that are indented further than `column`. -/
def unwindTo (column : Int) : List Int → Layout → Layout
  | outer, layout =>
    if layout.indent ≤ column then { layout with outerIndents := outer }
    else
      match outer with
      | [] => { layout.push .blockEnd with indent := -1, outerIndents := [] }
      | indent :: outer => unwindTo column outer { layout.push .blockEnd with indent }

/-- Ends block collections by the column of the next token; inside brackets columns do not count. -/
def unwind (layout : Layout) (column : Int) : Layout :=
  if layout.inFlow then layout else unwindTo column layout.outerIndents layout

/-- Begins a block collection at a column, unless one is open there or further right. Its token goes
to the given place among the tokens. -/
def beginBlock (layout : Layout) (column : Nat) (token : Token) (place : Nat) : Layout :=
  if layout.indent < column then
    { layout with
      outerIndents := layout.indent :: layout.outerIndents
      indent := column
      tokens := layout.tokens.insertIdxIfInBounds place token }
  else layout

/-- Ends everything at the end of the text. -/
def finish (layout : Layout) : Except Fault Layout := do
  let layout ← (layout.unwind (-1)).dropCandidate
  return { layout.push .streamEnd with keyAllowed := false, candidates := [], finished := true }

def addDirective (layout : Layout) : Except Fault Layout := do
  let layout ← (layout.unwind (-1)).dropCandidate
  let (directive, cursor) ← readDirective layout.cursor
  return { layout.push (.directive directive) with cursor, keyAllowed := false }

/-- Reads the mark that begins or ends a document. -/
def addDocumentMark (layout : Layout) (token : Token) : Except Fault Layout := do
  let layout ← (layout.unwind (-1)).dropCandidate
  return { layout.pushMark token 3 with keyAllowed := false }

/-- Reads an opening bracket; a collection between brackets may be a key. -/
def openBracket (layout : Layout) (token : Token) : Except Fault Layout := do
  let layout ← layout.noteCandidate
  return { layout.pushMark token 1 with
    openBrackets := layout.openBrackets + 1, keyAllowed := true }

def closeBracket (layout : Layout) (token : Token) : Except Fault Layout := do
  let layout ← layout.dropCandidate
  return { layout.pushMark token 1 with
    openBrackets := layout.openBrackets - 1, keyAllowed := false }

def addFlowEntry (layout : Layout) : Except Fault Layout := do
  let layout ← layout.dropCandidate
  return { layout.pushMark .flowEntry 1 with keyAllowed := true }

/-- Begins a block collection at the cursor, where that is allowed. -/
def beginBlockHere (layout : Layout) (token : Token) : Except Fault Layout :=
  if layout.inFlow then .ok layout
  else if !layout.keyAllowed then .error .malformed
  else .ok (layout.beginBlock layout.cursor.column token layout.tokens.size)

def addBlockEntry (layout : Layout) : Except Fault Layout := do
  let layout ← layout.beginBlockHere .blockSequenceStart
  let layout ← layout.dropCandidate
  return { layout.pushMark .blockEntry 1 with keyAllowed := true }

def addKey (layout : Layout) : Except Fault Layout := do
  let layout ← layout.beginBlockHere .blockMappingStart
  let layout ← layout.dropCandidate
  return { layout.pushMark .key 1 with keyAllowed := !layout.inFlow }

/-- Reads the colon before a value. What the candidate of the level began is its key. -/
def addValue (layout : Layout) : Except Fault Layout := do
  match layout.candidates.lookup layout.openBrackets with
  | some candidate =>
    let layout := { layout with
      candidates := layout.candidates.filter (·.1 != layout.openBrackets)
      tokens := layout.tokens.insertIdxIfInBounds candidate.place .key }
    let layout :=
      if layout.inFlow then layout
      else layout.beginBlock candidate.column .blockMappingStart candidate.place
    return { layout.pushMark .value 1 with keyAllowed := false }
  | none =>
    let layout ← layout.beginBlockHere .blockMappingStart
    let layout ← layout.dropCandidate
    return { layout.pushMark .value 1 with keyAllowed := !layout.inFlow }

def addAnchor (layout : Layout) (token : Text → Token) : Except Fault Layout := do
  let layout ← layout.noteCandidate
  let (name, cursor) ← readAnchor layout.cursor
  return { layout.push (token name) with cursor, keyAllowed := false }

def addTag (layout : Layout) : Except Fault Layout := do
  let layout ← layout.noteCandidate
  let (tag, cursor) ← readTag layout.cursor
  return { layout.push (.tag tag) with cursor, keyAllowed := false }

def addBlock (layout : Layout) (folded : Bool) : Except Fault Layout := do
  let layout ← layout.dropCandidate
  let (content, cursor) ← readBlock folded layout.indent layout.cursor
  return { layout.push (.scalar content false) with cursor, keyAllowed := true }

def addQuoted (layout : Layout) (double : Bool) : Except Fault Layout := do
  let layout ← layout.noteCandidate
  let (content, cursor) ← readQuoted double layout.cursor
  return { layout.push (.scalar content false) with cursor, keyAllowed := false }

def addPlain (layout : Layout) : Except Fault Layout := do
  let layout ← layout.noteCandidate
  let scalar := readPlain layout.inFlow (layout.indent + 1) layout.cursor
  return { layout.push (.scalar scalar.content true) with
    cursor := scalar.cursor, keyAllowed := scalar.brokeLine }

def addToken (layout : Layout) : Except Fault Layout :=
  let cursor := layout.cursor
  let c := cursor.char
  let flow := layout.inFlow
  let gapFollows := isGap (cursor.peek 1)
  if cursor.atEnd then layout.finish
  else if c == '%' && cursor.column == 0 then layout.addDirective
  else if cursor.column == 0 && cursor.showsMark "---" then layout.addDocumentMark .documentStart
  else if cursor.column == 0 && cursor.showsMark "..." then layout.addDocumentMark .documentEnd
  else if c == '[' then layout.openBracket .flowSequenceStart
  else if c == '\x7b' then layout.openBracket .flowMappingStart
  else if c == ']' then layout.closeBracket .flowSequenceEnd
  else if c == '\x7d' then layout.closeBracket .flowMappingEnd
  else if c == ',' then layout.addFlowEntry
  else if c == '-' && gapFollows then layout.addBlockEntry
  else if c == '?' && (flow || gapFollows) then layout.addKey
  else if c == ':' && (flow || gapFollows) then layout.addValue
  else if c == '*' then layout.addAnchor .alias
  else if c == '&' then layout.addAnchor .anchor
  else if c == '!' then layout.addTag
  else if c == '|' && !flow then layout.addBlock false
  else if c == '>' && !flow then layout.addBlock true
  else if c == '\x27' then layout.addQuoted false
  else if c == '\x22' then layout.addQuoted true
  else if startsPlain flow cursor then layout.addPlain
  else .error .malformed

/-- Whether more than the rest of a text has to be known to tell its next token: a mark may be one
only if a gap stands behind it. -/
def needsMore : Text → Bool
  | [] => true
  | [c] => c == '-' || c == '?' || c == ':'
  | _ => false

/-- Fails where the next token cannot be told from what can be read. -/
def meetStop (layout : Layout) : Except Fault Layout :=
  match layout.cursor.stop with
  | none => .ok layout
  | some fault => if needsMore layout.cursor.rest then .error fault else .ok layout

/-- Reads the next token, with the ends of block collections before it. A token is complete only
when it is known what stands behind it. -/
def advance (layout : Layout) : Except Fault Layout := do
  let layout ← layout.dropStale
  let layout ← layout.skipBlanks.meetStop
  let layout ← layout.dropStale
  (← (layout.unwind layout.cursor.column).addToken).meetStop

/-- The tokens that nothing can be put before any more. A token from the first candidate on is not
settled, because a key may still begin there. -/
def settled (layout : Layout) : List Token :=
  let live := layout.candidates.filter fun entry => !entry.2.isStale layout.cursor
  layout.tokens.toList.take
    (live.foldl (fun place entry => min place entry.2.place) layout.tokens.size)

/-- Reads tokens to the end of the text. The first argument bounds their number: each uses up a
character, except the one that ends the text. -/
def run : Nat → Layout → Tokens
  | 0, layout => ⟨layout.settled, some .malformed⟩
  | count + 1, layout =>
    match layout.advance with
    | .error fault => ⟨layout.settled, some fault⟩
    | .ok next => if next.finished then ⟨next.tokens.toList, none⟩ else run count next

end Layout

def tokenize (passage : Passage) : Tokens :=
  Layout.run (passage.text.length + 1) (.start passage)

end IntentModel.Yaml
