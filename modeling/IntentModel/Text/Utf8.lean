import IntentModel.Text

/-! # Texts as bytes

Texts are stored in UTF-8. Characters have bytes and surrogates have none; bytes have a text only if they are
well-formed.
-/

namespace IntentModel.Text

/-- The text of bytes in UTF-8. -/
def ofUtf8? (bytes : List UInt8) : Option Text :=
  (String.fromUTF8? ⟨bytes.toArray⟩).map fun content => content.toList.map .char

/-- The character that bytes begin with, and the bytes behind it. -/
def firstUtf8? (bytes : List UInt8) : Option (CodePoint × List UInt8) :=
  [1, 2, 3, 4].findSome? fun count =>
    match ofUtf8? (bytes.take count) with
    | some [c] => some (c, bytes.drop count)
    | _ => none

/-- The text that bytes begin with, and the bytes from the first that belongs to no character on.
The first argument bounds the number of characters. -/
def readUtf8 : Nat → List UInt8 → Text × List UInt8
  | 0, bytes => ([], bytes)
  | count + 1, bytes =>
    match firstUtf8? bytes with
    | none => ([], bytes)
    | some (c, bytes) =>
      let (text, rest) := readUtf8 count bytes
      (c :: text, rest)

/-- Whether bytes are the beginning of a character and not all of it. -/
def beginsCharacter (bytes : List UInt8) : Bool :=
  [1, 2, 3].any fun missing => [0x80, 0xBF].any fun filler =>
    (firstUtf8? (bytes ++ List.replicate missing filler)).any (·.2.isEmpty)

def toUtf8 (content : String) : List UInt8 :=
  content.toUTF8.data.toList

/-- The text with each line end written as a line feed. -/
def withLineFeeds : Text → Text
  | .char '\r' :: .char '\n' :: text => .char '\n' :: withLineFeeds text
  | .char '\r' :: text => .char '\n' :: withLineFeeds text
  | c :: text => c :: withLineFeeds text
  | [] => []

end IntentModel.Text
