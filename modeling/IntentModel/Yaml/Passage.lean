import IntentModel.Text.Utf8
import IntentModel.Yaml.Fault

/-! # The readable part of a text

A text is taken in by pieces, and a piece is looked at only when the ones before it are used up. So
a text that goes wrong somewhere has a part that can be read: the pieces before the first one that
holds a character no text may hold, or whose bytes are no text. Something that is wrong in that part
counts first; where it has been read without a fault, the text is at fault for what stops it.
-/

namespace IntentModel.Yaml

/-- Whether a text may hold the character at all. -/
def isAllowed (c : CodePoint) : Bool :=
  let n := c.toNat
  c == '\t' || c == '\n' || c == '\r' || (0x20 ≤ n && n ≤ 0x7E) || n == 0x85 ||
    (0xA0 ≤ n && n ≤ 0xD7FF) || (0xE000 ≤ n && n ≤ 0xFFFD) || 0x10000 ≤ n

/-- The part of a text that can be read. -/
structure Passage where
  text : Text
  /-- The fault behind the part; nothing where the text ends there. -/
  stop : Option Fault
deriving DecidableEq, Repr

namespace Passage

/-- The number of characters of a piece; the first piece is twice as long. -/
def pieceSize : Nat :=
  4096

/-- The number of bytes that are decoded at a time. -/
def portionSize : Nat :=
  8192

/-- The number of characters in the whole pieces among the first `count` characters. -/
def inWholePieces (count : Nat) : Nat :=
  if count < 2 * pieceSize then 0 else count / pieceSize * pieceSize

/-- The passage up to the piece with the first character that no text may hold; `stop` stands behind
the text. -/
def ofText (text : Text) (stop : Option Fault) : Passage :=
  match text.findIdx? (!isAllowed ·) with
  | none => ⟨text, stop⟩
  | some index => ⟨text.take (inWholePieces index), some .malformed⟩

/-- The number of bytes in the portions before the one that is no text. Bytes are decoded as they
come, so a character that a portion leaves unfinished is no fault of that portion. -/
def decodedSize (bytes : List UInt8) : Nat :=
  let rest := (Text.readUtf8 bytes.length bytes).2
  let read := bytes.length - rest.length
  let isDecoded (size : Nat) : Bool :=
    size ≤ read || Text.beginsCharacter ((bytes.take size).drop read)
  let last := (read + 3) / portionSize * portionSize
  if isDecoded bytes.length then bytes.length
  else if isDecoded last then last
  else last - portionSize

/-- The passage that bytes hold, with line feeds for line ends. A carriage return at the end of the
portions is not yet known to be a line end of its own. -/
def ofBytes (bytes : List UInt8) : Passage :=
  match Text.ofUtf8? bytes with
  | some text => ofText text.withLineFeeds none
  | none =>
    let portions := bytes.take (decodedSize bytes)
    let read := (Text.readUtf8 portions.length portions).1
    let known : Text := if read.getLast? == some '\r' then read.dropLast else read
    let text := known.withLineFeeds
    ofText (text.take (inWholePieces text.length)) (some .notText)

end Passage

end IntentModel.Yaml
