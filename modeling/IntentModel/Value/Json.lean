import IntentModel.Number.Shortest
import IntentModel.Value.Tangle

/-! # Values as JSON

The written form of a value with an indentation of two spaces. Not every value has one: dates,
moments, bytes and sets cannot be written, and of keys only texts, numbers, truth values and null;
nor can an integer with very many digits, a text with a surrogate, or a collection that contains itself.

A writer hands out one piece after the other and breaks off where there is no next one, so the result holds
the pieces up to that place and says whether it is complete. An item of a sequence that is no collection makes
one piece with what stands between it and the item before.
-/

namespace IntentModel

inductive Unwritable
  /-- The value, or a key of it, is of a kind without a written form. -/
  | noForm
  | tooManyDigits
  /-- A text, or a key, holds a surrogate. -/
  | surrogate
  /-- A collection is within itself. -/
  | circular
deriving DecidableEq, Repr

/-- What a writer has put out, and why it broke off if it did. -/
structure Written where
  text : List Char
  fault : Option Unwritable
deriving DecidableEq, Repr

namespace Written

def done (text : List Char) : Written :=
  ⟨text, none⟩

/-- Goes on writing, unless the first part was broken off. -/
def andThen (first next : Written) : Written :=
  if first.fault.isNone then ⟨first.text ++ next.text, next.fault⟩ else first

def broken (fault : Unwritable) : Written :=
  ⟨[], some fault⟩

/-- A piece that consists of `lead` and a text, or a break where there is no such piece. -/
def piece (lead : List Char) : Except Unwritable Text → Written
  | .ok text => text.chars?.elim (broken .surrogate) fun chars => done (lead ++ chars)
  | .error fault => broken fault

end Written

namespace Json

/-- A code point as it stands in a JSON string; beyond ASCII it stands for itself. -/
def escapeChar (c : CodePoint) : Text :=
  if c == '\x22' || c == '\\' then [.char '\\', c]
  else if c == '\n' then "\\n"
  else if c == '\r' then "\\r"
  else if c == '\t' then "\\t"
  else if c == '\x08' then "\\b"
  else if c == '\x0c' then "\\f"
  else if c.toNat < 0x20 then "\\u" ++ Text.ofNatHex 4 c.toNat
  else [c]

def string (text : Text) : Text :=
  .char '\x22' :: text.flatMap escapeChar ++ [.char '\x22']

def integer (number : Int) : Except Unwritable Text :=
  if hasWritableDigits number then .ok (Text.ofInt number) else .error .tooManyDigits

/-- The text of a key, if it can be one. -/
def key : Value → Except Unwritable Text
  | .text content => .ok content
  | .null => .ok "null"
  | .bool truth => .ok (if truth then "true" else "false")
  | .int number => integer number
  | .float number => .ok (number.write Binary64.jsonLayout)
  | _ => .error .noForm

/-- A line end and the indentation of a depth. -/
def newline (depth : Nat) : List Char :=
  '\n' :: List.replicate (2 * depth) ' '

mutual

/-- Writes a value behind `lead`. Its inner lines are indented by one more than `depth`. -/
def write (depth : Nat) (lead : List Char) : Value → Written
  | .null => .piece lead (.ok "null")
  | .bool truth => .piece lead (.ok (if truth then "true" else "false"))
  | .int number => .piece lead (integer number)
  | .float number => .piece lead (.ok (number.write Binary64.jsonLayout))
  | .text content => .piece lead (.ok (string content))
  | .list items => (Written.done lead).andThen (writeSequence depth items)
  | .tuple items => (Written.done lead).andThen (writeSequence depth items)
  | .map [] => .done (lead ++ ['{', '}'])
  | .map (entry :: entries) =>
    ((Written.done (lead ++ '{' :: newline (depth + 1))).andThen
      (writeEntries (depth + 1) [] (entry :: entries))).andThen
      (.done (newline depth ++ ['}']))
  | .date _ => (Written.done lead).andThen (.broken .noForm)
  | .moment _ => (Written.done lead).andThen (.broken .noForm)
  | .bytes _ => (Written.done lead).andThen (.broken .noForm)
  | .set _ => (Written.done lead).andThen (.broken .noForm)
  | .tangle .. => (Written.done lead).andThen (.broken .circular)
  | .link .. => (Written.done lead).andThen (.broken .circular)

/-- Writes a sequence between brackets. -/
def writeSequence (depth : Nat) : List Value → Written
  | [] => .done ['[', ']']
  | item :: items =>
    ((write (depth + 1) ('[' :: newline (depth + 1)) item).andThen
      (writeItems (depth + 1) items)).andThen
      (.done (newline depth ++ [']']))

/-- Writes the items behind the first one of a sequence, each on a line of its own. -/
def writeItems (depth : Nat) : List Value → Written
  | [] => .done []
  | item :: items => (write depth (',' :: newline depth) item).andThen (writeItems depth items)

/-- Writes entries, each on a line of its own and the later ones behind the separator. -/
def writeEntries (depth : Nat) (separator : List Char) : List (Value × Value) → Written
  | [] => .done []
  | (name, value) :: entries =>
    match key name with
    | .error fault => .broken fault
    | .ok text =>
      ((((Written.done separator).andThen (.piece [] (.ok (string text)))).andThen
        (.done [':', ' '])).andThen (write depth [] value)).andThen
        (writeEntries depth (',' :: newline depth) entries)

end

end Json

/-- Writes a copy of a value. -/
def Value.toJson (value : Value) : Written :=
  Json.write 0 [] value.dumped

end IntentModel
