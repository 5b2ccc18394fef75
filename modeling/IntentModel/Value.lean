import IntentModel.Calendar
import IntentModel.Number.Binary64
import IntentModel.Text.Utf8

/-! # Values

The values that a training corpus or a settings file can hold before anything is known about their
shape. A mapping keeps its entries in the order in which their keys were first put; putting a key
again changes the value and keeps the place and the first form of the key. Keys are compared by
value, so the integer 1, the number 1.0 and the truth value true are one key. Where all keys are
texts, the entries are fields.

A collection can contain itself. `Value.tangle` and `Value.link` are for such values (`Value.Tangle`).
-/

namespace IntentModel

/-- The forms of a collection. -/
inductive Form
  | list
  | tuple
  | set
  | map
deriving DecidableEq, Repr

/-- A value of no fixed shape. -/
inductive Value
  | null
  | bool (truth : Bool)
  | int (number : Int)
  | float (number : Binary64)
  | text (content : Text)
  | date (day : Date)
  | moment (time : Moment)
  | bytes (content : List UInt8)
  | list (items : List Value)
  | tuple (items : List Value)
  | set (items : List Value)
  | map (entries : List (Value × Value))
  /-- A collection that leads into a cycle: the one at a place of some cells, which hold all collections
  that it leads to. -/
  | tangle (cells : List (Nat × Value)) (form : Form) (place : Nat)
  /-- Within a cell, the collection at a place. -/
  | link (form : Form) (place : Nat)
deriving Inhabited, Repr

namespace Value

/-- A number in one of its three forms. -/
inductive Numeric
  | whole (number : Int)
  | real (number : Binary64)

/-- The number that a value is; truth values count as one and zero. -/
def numeric? : Value → Option Numeric
  | bool truth => some (.whole (if truth then 1 else 0))
  | int number => some (.whole number)
  | float number => some (.real number)
  | _ => none

/-- Equality of numbers whatever their form. -/
def Numeric.same : Numeric → Numeric → Bool
  | .whole a, .whole b => a == b
  | .whole a, .real b => b.toInt? == some a
  | .real a, .whole b => a.toInt? == some b
  | .real a, .real b => a.same b

mutual

/-- Equality of values that can be keys; values that cannot be keys equal nothing. -/
def same : Value → Value → Bool
  | null, null => true
  | text a, text b => a == b
  | date a, date b => a == b
  | moment a, moment b => a.same b
  | bytes a, bytes b => a == b
  | tuple a, tuple b => sameItems a b
  | a, b =>
    match a.numeric?, b.numeric? with
    | some a, some b => a.same b
    | _, _ => false

def sameItems : List Value → List Value → Bool
  | [], [] => true
  | a :: items, b :: others => same a b && sameItems items others
  | _, _ => false

end

/-- Whether a value is empty, zero, false or null. -/
def isEmpty : Value → Bool
  | null => true
  | bool truth => !truth
  | int number => number == 0
  | float number => number.isZero
  | text t => t.isEmpty
  | bytes b => b.isEmpty
  | list items => items.isEmpty
  | tuple items => items.isEmpty
  | set items => items.isEmpty
  | map entries => entries.isEmpty
  | date _ => false
  | moment _ => false
  | tangle .. => false
  | link .. => false

/-- Whether a value is a text, a number or a truth value. -/
def isScalar : Value → Bool
  | bool _ => true
  | int _ => true
  | float _ => true
  | text _ => true
  | _ => false

def isText : Value → Bool
  | text _ => true
  | _ => false

/-- The text that a value is; bytes count as the text that they encode. -/
def asText? : Value → Option Text
  | text content => some content
  | bytes content => Text.ofUtf8? content
  | _ => none

end Value

/-- The entries of a mapping, in the order of their keys. -/
abbrev Entries := List (Value × Value)

namespace Entries

def get? (key : Value) : Entries → Option Value
  | [] => none
  | (k, v) :: entries => if k.same key then some v else get? key entries

/-- Gives a key its value; a key that is there already keeps its place and its form. A key that does not even
equal itself is never there already, also not where it stands for the same object (`Binary64.nan`). -/
def put (key value : Value) : Entries → Entries
  | [] => [(key, value)]
  | (k, v) :: entries =>
    if k.same key then (k, value) :: entries else (k, v) :: put key value entries

def putAll (entries added : Entries) : Entries :=
  added.foldl (fun entries (key, value) => put key value entries) entries

/-- The mapping that arises by putting the entries in order. -/
def ofList (entries : List (Value × Value)) : Entries :=
  putAll [] entries

/-- The value of a key that is a text. -/
def field? (name : Text) (entries : Entries) : Option Value :=
  get? (.text name) entries

end Entries

/-- The entries of a mapping whose keys are texts. -/
abbrev Fields := List (Text × Value)

namespace Fields

/-- Gives a name its value; a name that is there already keeps its place. -/
def put (name : Text) (value : Value) : Fields → Fields
  | [] => [(name, value)]
  | field :: fields =>
    if field.1 = name then (name, value) :: fields else field :: put name value fields

/-- The fields that entries are, or the first key that is no text. -/
def ofEntries (entries : Entries) : Except Value Fields :=
  entries.foldlM
    (fun fields (key, value) =>
      match key.asText? with
      | some name => .ok (put name value fields)
      | none => .error key)
    []

end Fields

/-- A mapping with the given fields. -/
def Value.record (fields : Fields) : Value :=
  .map (fields.map fun (name, value) => (.text name, value))

end IntentModel
