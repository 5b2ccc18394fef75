import IntentModel.Yaml.Scalar
import IntentModel.Yaml.Token

/-! # Nodes of a YAML text

The tokens of a text describe one node: a scalar, a sequence or a mapping, each of some kind. The parts of a
node are given by their places among all nodes of the text. A node may be named by an anchor, and its place
stands again where an alias names it, also within the node itself; a name may be given only once.
`Document.ofTokens?` reads the tokens as one document. Where a node is missing but may be missing, it is the
empty plain scalar. If a fault ends the tokens, it comes up when the next token has to be looked at, and
what is wrong before that comes first.
-/

namespace IntentModel.Yaml

inductive Node
  | scalar (kind : Kind) (content : Text)
  | sequence (kind : Kind) (items : List Nat)
  | mapping (kind : Kind) (entries : List (Nat × Nat))
deriving Repr

/-- The nodes of a text, each at its place, and the place of the one that is the whole document. -/
structure Document where
  nodes : Array Node
  root : Nat
deriving Repr

namespace Node

/-- What is left of the tokens, and the nodes read so far. A collection that is still being read has no parts
yet. -/
structure Feed where
  tokens : List Token
  /-- The fault that comes up when there is no next token. -/
  ending : Fault
  /-- How many levels of nodes may still be entered. -/
  room : Nat
  nodes : Array Node
  /-- The places of the nodes that have a name. -/
  anchors : List (Text × Nat)

/-- How many levels a node may have. -/
def mostLevels : Nat :=
  489

def Feed.start (tokens : Tokens) : Feed :=
  ⟨tokens.items, tokens.ending.getD .malformed, mostLevels, #[], []⟩

def Feed.enter (feed : Feed) : Except Fault Feed :=
  match feed.room with
  | 0 => .error .tooDeep
  | room + 1 => .ok { feed with room }

def Feed.leave (feed : Feed) : Feed :=
  { feed with room := feed.room + 1 }

/-- The fault where the next token is none of those that may stand there. -/
def Feed.refusal (feed : Feed) : Fault :=
  if feed.tokens.isEmpty then feed.ending else .malformed

def Feed.inspect (feed : Feed) : Except Fault Unit :=
  if feed.tokens.isEmpty then .error feed.ending else .ok ()

/-- The shorthands for tags and what they stand for. -/
abbrev Shorthands := List (Text × Text)

def commonShorthands : Shorthands :=
  [("!", "!"), ("!!", "tag:yaml.org,2002:")]

/-- The tag that is written; the lone exclamation mark leaves the kind to the content. -/
def fullTag (shorthands : Shorthands) (tag : WrittenTag) : Except Fault Text :=
  match tag.handle with
  | none => .ok tag.suffix
  | some handle =>
    match shorthands.lookup handle with
    | some expansion => .ok (expansion ++ tag.suffix)
    | none => .error .malformed

/-- What stands before a node: its tag and its anchor. -/
structure Properties where
  tag : Option Text
  anchor : Option Text

/-- The kind of a node, which is `content` unless a tag says otherwise. -/
def Properties.kind (properties : Properties) (content : Kind) : Kind :=
  match properties.tag with
  | none => content
  | some tag => if tag = [.char '!'] then content else .ofTag tag

/-- The kind of a scalar. A quoted one without any tag is a text. -/
def Properties.scalarKind (properties : Properties) (content : Text) (plain : Bool) : Kind :=
  properties.kind (if plain || properties.tag.isSome then .ofContent content else .str)

/-- Reads the tag and the anchor before a node, in either order. The name of an anchor is looked up last, when
it is known that something stands behind it. -/
def readProperties (shorthands : Shorthands) (feed : Feed) :
    Except Fault (Properties × Feed) := do
  let (tag, anchor, tokens) := match feed.tokens with
    | .anchor name :: .tag tag :: tokens => (some tag, some name, tokens)
    | .tag tag :: .anchor name :: tokens => (some tag, some name, tokens)
    | .anchor name :: tokens => (none, some name, tokens)
    | .tag tag :: tokens => (some tag, none, tokens)
    | tokens => (none, none, tokens)
  let feed := { feed with tokens }
  if anchor.isNone then feed.inspect
  let tag ← tag.mapM (fullTag shorthands)
  feed.inspect
  if let some name := anchor then
    if (feed.anchors.lookup name).isSome then throw .malformed
  return (⟨tag, anchor⟩, feed)

/-- Gives a node the next place, and its name if it has one. -/
def Feed.put (feed : Feed) (anchor : Option Text) (node : Node) : Nat × Feed :=
  let place := feed.nodes.size
  let anchors := anchor.elim feed.anchors fun name => (name, place) :: feed.anchors
  (place, { feed with nodes := feed.nodes.push node, anchors })

/-- Puts the node where none is written. -/
def Feed.putMissing (feed : Feed) : Nat × Feed :=
  feed.put none (.scalar .null [])

/-- Gives a collection its parts, and leaves its level. -/
def Feed.close (feed : Feed) (place : Nat) (node : Node) : Nat × Feed :=
  (place, { feed.leave with nodes := feed.nodes.setIfInBounds place node })

def Feed.shows (feed : Feed) (marks : List Token) : Bool :=
  match feed.tokens with
  | token :: _ => marks.contains token
  | [] => false

def Feed.next (feed : Feed) : Feed :=
  { feed with tokens := feed.tokens.drop 1 }

/-- Reads a sequence whose items are read by `items`. -/
def readSequence (properties : Properties) (items : Feed → Except Fault (List Nat × Feed)) (feed : Feed) :
    Except Fault (Nat × Feed) := do
  let kind := properties.kind .seq
  let (place, feed) := feed.put properties.anchor (.sequence kind [])
  let (items, feed) ← items feed
  return feed.close place (.sequence kind items)

/-- Reads a mapping whose entries are read by `entries`. -/
def readMapping (properties : Properties) (entries : Feed → Except Fault (List (Nat × Nat) × Feed))
    (feed : Feed) : Except Fault (Nat × Feed) := do
  let kind := properties.kind .map
  let (place, feed) := feed.put properties.anchor (.mapping kind [])
  let (entries, feed) ← entries feed
  return feed.close place (.mapping kind entries)

mutual

/-- Reads a node. In a block, block collections may begin here; where `indentless` holds, so may a
sequence that is not indented further than the key before it. The first argument, here and below,
bounds the depth of the recursion. -/
def read (shorthands : Shorthands) (block indentless : Bool) :
    Nat → Feed → Except Fault (Nat × Feed)
  | 0, _ => .error .malformed
  | depth + 1, feed => do
    let feed ← feed.enter
    if let .alias name :: tokens := feed.tokens then
      match feed.anchors.lookup name with
      | some place => return (place, { feed.leave with tokens })
      | none => throw .malformed
    let (properties, feed) ← readProperties shorthands feed
    match feed.tokens with
    | .scalar content plain :: tokens =>
      let (place, feed) := feed.put properties.anchor
        (.scalar (properties.scalarKind content plain) content)
      return (place, { feed.leave with tokens })
    | .flowSequenceStart :: tokens =>
      readSequence properties (readFlowItems shorthands true depth) { feed with tokens }
    | .flowMappingStart :: tokens =>
      readMapping properties (readFlowEntries shorthands true depth) { feed with tokens }
    | token :: tokens =>
      if indentless && token == .blockEntry then
        readSequence properties (readIndentlessItems shorthands depth) feed
      else if block && token == .blockSequenceStart then
        readSequence properties (readBlockItems shorthands depth) { feed with tokens }
      else if block && token == .blockMappingStart then
        readMapping properties (readBlockEntries shorthands depth) { feed with tokens }
      else if properties.tag.isSome || properties.anchor.isSome then
        let (place, feed) := feed.put properties.anchor (.scalar (properties.kind .null) [])
        return (place, feed.leave)
      else throw feed.refusal
    | [] => throw feed.refusal

/-- Reads the items of a block sequence, with its end. -/
def readBlockItems (shorthands : Shorthands) : Nat → Feed → Except Fault (List Nat × Feed)
  | 0, _ => .error .malformed
  | depth + 1, feed => do
    if feed.shows [.blockEnd] then return ([], feed.next)
    if !feed.shows [.blockEntry] then throw feed.refusal
    let feed := feed.next
    let (item, feed) ←
      if feed.shows [.blockEntry, .blockEnd] then pure feed.putMissing
      else read shorthands true false depth feed
    let (items, feed) ← readBlockItems shorthands depth feed
    return (item :: items, feed)

/-- Reads the items of a sequence that ends with the entry of the mapping around it. -/
def readIndentlessItems (shorthands : Shorthands) : Nat → Feed → Except Fault (List Nat × Feed)
  | 0, _ => .error .malformed
  | depth + 1, feed => do
    if !feed.shows [.blockEntry] then return ([], feed)
    let feed := feed.next
    let (item, feed) ←
      if feed.shows [.blockEntry, .key, .value, .blockEnd] then pure feed.putMissing
      else read shorthands true false depth feed
    let (items, feed) ← readIndentlessItems shorthands depth feed
    return (item :: items, feed)

/-- Reads the entries of a block mapping, with its end. -/
def readBlockEntries (shorthands : Shorthands) :
    Nat → Feed → Except Fault (List (Nat × Nat) × Feed)
  | 0, _ => .error .malformed
  | depth + 1, feed => do
    if feed.shows [.blockEnd] then return ([], feed.next)
    if !feed.shows [.key] then throw feed.refusal
    let feed := feed.next
    let ends := [Token.key, .value, .blockEnd]
    let (key, feed) ←
      if feed.shows ends then pure feed.putMissing else read shorthands true true depth feed
    let (value, feed) ←
      if feed.shows [.value] then
        let feed := feed.next
        if feed.shows ends then pure feed.putMissing else read shorthands true true depth feed
      else pure feed.putMissing
    let (entries, feed) ← readBlockEntries shorthands depth feed
    return ((key, value) :: entries, feed)

/-- Reads a value inside brackets, which may be missing before one of the marks. -/
def readFlowValue (shorthands : Shorthands) (ends : List Token) :
    Nat → Feed → Except Fault (Nat × Feed)
  | 0, _ => .error .malformed
  | depth + 1, feed => do
    if feed.shows [.value] then
      let feed := feed.next
      if feed.shows ends then return feed.putMissing else read shorthands false false depth feed
    else return feed.putMissing

/-- Reads the items of a sequence between brackets, with its end. An item may be a single entry,
which makes a mapping of its own. -/
def readFlowItems (shorthands : Shorthands) (first : Bool) :
    Nat → Feed → Except Fault (List Nat × Feed)
  | 0, _ => .error .malformed
  | depth + 1, feed => do
    if feed.shows [.flowSequenceEnd] then return ([], feed.next)
    if !first && !feed.shows [.flowEntry] then throw feed.refusal
    let feed := if first then feed else feed.next
    if feed.shows [.flowSequenceEnd] then return ([], feed.next)
    let ends := [Token.flowEntry, .flowSequenceEnd]
    let (item, feed) ←
      if feed.shows [.key] then do
        let feed ← feed.next.enter
        let (place, feed) := feed.put none (.mapping .map [])
        let (key, feed) ←
          if feed.shows (.value :: ends) then pure feed.putMissing
          else read shorthands false false depth feed
        let (value, feed) ← readFlowValue shorthands ends depth feed
        pure (feed.close place (.mapping .map [(key, value)]))
      else read shorthands false false depth feed
    let (items, feed) ← readFlowItems shorthands false depth feed
    return (item :: items, feed)

/-- Reads the entries of a mapping between braces, with its end. A key may stand alone. -/
def readFlowEntries (shorthands : Shorthands) (first : Bool) :
    Nat → Feed → Except Fault (List (Nat × Nat) × Feed)
  | 0, _ => .error .malformed
  | depth + 1, feed => do
    if feed.shows [.flowMappingEnd] then return ([], feed.next)
    if !first && !feed.shows [.flowEntry] then throw feed.refusal
    let feed := if first then feed else feed.next
    if feed.shows [.flowMappingEnd] then return ([], feed.next)
    let ends := [Token.flowEntry, .flowMappingEnd]
    let (entry, feed) ←
      if feed.shows [.key] then do
        let feed := feed.next
        let (key, feed) ←
          if feed.shows (.value :: ends) then pure feed.putMissing
          else read shorthands false false depth feed
        let (value, feed) ← readFlowValue shorthands ends depth feed
        pure ((key, value), feed)
      else do
        let (key, feed) ← read shorthands false false depth feed
        let (value, feed) := feed.putMissing
        pure ((key, value), feed)
    let (entries, feed) ← readFlowEntries shorthands false depth feed
    return (entry :: entries, feed)

end

/-- Reads the directives before a document. The version may be said once, and so may each
shorthand. -/
def readDirectives (versioned : Bool) (shorthands : Shorthands) :
    List Token → Except Fault (Shorthands × List Token)
  | .directive (.version major) :: tokens =>
    if versioned || major != 1 then .error .malformed else readDirectives true shorthands tokens
  | .directive (.shorthand handle expansion) :: tokens =>
    if (shorthands.lookup handle).isSome then .error .malformed
    else readDirectives versioned ((handle, expansion) :: shorthands) tokens
  | .directive .other :: tokens => readDirectives versioned shorthands tokens
  | tokens => .ok (shorthands ++ commonShorthands, tokens)

/-- Reads the directives and the first mark of a document. -/
def readDocumentStart (feed : Feed) : Except Fault (Shorthands × Feed) := do
  let (shorthands, tokens) ← readDirectives false [] feed.tokens
  let feed := { feed with tokens }
  if feed.shows [.documentStart] then return (shorthands, feed.next) else throw feed.refusal

/-- Reads a document with its directives and its first mark, if they are written. -/
def readDocument (feed : Feed) : Except Fault (Nat × Feed) := do
  let read shorthands feed := read shorthands true false (4 * feed.tokens.length + 4) feed
  match feed.tokens with
  | .directive _ :: _ | .documentStart :: _ =>
    let (shorthands, feed) ← readDocumentStart feed
    match feed.tokens with
    | .directive _ :: _ | .documentStart :: _ | .documentEnd :: _ | .streamEnd :: _ =>
      return feed.putMissing
    | _ => read shorthands feed
  | _ => read commonShorthands feed

end Node

/-- The document that tokens describe, if they describe one. There may not be a second one. -/
def Document.ofTokens? (tokens : Tokens) : Except Fault (Option Document) := do
  let feed := Node.Feed.start tokens
  if feed.shows [.streamEnd] then return none
  let (root, feed) ← Node.readDocument feed
  let feed := { feed with tokens := feed.tokens.dropWhile (· == .documentEnd) }
  if feed.shows [.streamEnd] then return some ⟨feed.nodes, root⟩
  let _ ← Node.readDocumentStart feed
  throw .malformed

end IntentModel.Yaml
