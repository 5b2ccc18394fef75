import IntentModel.Number.Shortest
import IntentModel.Text.Quoted
import IntentModel.Value.Tangle

/-! # Values in messages

How a value is shown inside the text of a message: `shown` with all its structure, texts in quotes,
and `plain` as a part of running text, where a text stands for itself. `kind` is the word that
messages use for the kind of a value. Where a collection comes again within itself, dots stand for it.
Integers with very many digits are not shown; `isShowable` says whether a value holds none.
-/

namespace IntentModel

def Form.kind : Form → Text
  | list => "list"
  | tuple => "tuple"
  | set => "set"
  | map => "dict"

/-- What stands for a collection within itself. -/
def Form.dots : Form → Text
  | list => "[...]"
  | tuple => "(...)"
  | set => "set(...)"
  | map => "\x7b...\x7d"

namespace Value

def kind : Value → Text
  | null => "NoneType"
  | bool _ => "bool"
  | int _ => "int"
  | float _ => "float"
  | text _ => "str"
  | date _ => "date"
  | moment _ => "datetime"
  | bytes _ => "bytes"
  | list _ => Form.list.kind
  | tuple _ => Form.tuple.kind
  | set _ => Form.set.kind
  | map _ => Form.map.kind
  | tangle _ form _ => form.kind
  | link form _ => form.kind

def commas (parts : List Text) : Text :=
  Text.join ", " parts

/-- A date as the numbers it is built from. -/
def shownDate (date : Date) : Text :=
  "datetime.date(" ++ commas [Text.ofNat date.year, Text.ofNat date.month, Text.ofNat date.day] ++
    ")"

/-- An offset as the time span it is built from; a span before zero is some days back and less than
a day forth. -/
def shownOffset (minutes : Int) : Text :=
  let span : Text :=
    if minutes < 0 then "days=-1, seconds=" ++ Text.ofInt (86400 + minutes * 60)
    else "seconds=" ++ Text.ofInt (minutes * 60)
  if minutes = 0 then "datetime.timezone.utc"
  else "datetime.timezone(datetime.timedelta(" ++ span ++ "))"

/-- A moment as the numbers it is built from; seconds and microseconds are left out from the end
when they are zero. -/
def shownMoment (moment : Moment) : Text :=
  let numbers := [moment.date.year, moment.date.month, moment.date.day, moment.hour, moment.minute]
  let rest :=
    if moment.microsecond = 0 then
      if moment.second = 0 then [] else [moment.second]
    else [moment.second, moment.microsecond]
  let zone := match moment.offset with
    | none => []
    | some minutes => ["tzinfo=" ++ shownOffset minutes]
  "datetime.datetime(" ++ commas ((numbers ++ rest).map Text.ofNat ++ zone) ++ ")"

/-- A byte as it is shown between quotes. -/
def shownByte (quote : CodePoint) (byte : UInt8) : Text :=
  let c := CodePoint.ofNat byte.toNat
  if c == quote || c == '\\' then ['\\', c]
  else if c == '\n' then "\\n"
  else if c == '\r' then "\\r"
  else if c == '\t' then "\\t"
  else if 0x20 ≤ byte && byte < 0x7F then [c]
  else "\\x" ++ Text.ofNatHex 2 byte.toNat

/-- Bytes between quotes, marked as bytes. -/
def shownBytes (bytes : List UInt8) : Text :=
  let quote := Text.quoteFor (bytes.map fun byte => CodePoint.ofNat byte.toNat)
  .char 'b' :: quote :: bytes.flatMap (shownByte quote) ++ [quote]

mutual

/-- A tree with its structure. -/
def shownTree : Value → Text
  | null => "None"
  | bool truth => if truth then "True" else "False"
  | int number => Text.ofInt number
  | float number => number.text
  | text content => content.quoted
  | date day => shownDate day
  | moment time => shownMoment time
  | bytes content => shownBytes content
  | list items => .char '[' :: commas (shownItems items) ++ [.char ']']
  | tuple items =>
    match shownItems items with
    | [item] => .char '(' :: item ++ [.char ',', .char ')']
    | items => .char '(' :: commas items ++ [.char ')']
  | set items =>
    match shownItems items with
    | [] => "set()"
    | items => .char '{' :: commas items ++ [.char '}']
  | map entries => .char '{' :: commas (shownEntries entries) ++ [.char '}']
  | tangle _ form _ => form.dots
  | link form _ => form.dots

def shownItems : List Value → List Text
  | [] => []
  | item :: items => shownTree item :: shownItems items

def shownEntries : List (Value × Value) → List Text
  | [] => []
  | (key, value) :: entries => (shownTree key ++ (": " : Text) ++ shownTree value) :: shownEntries entries

end

/-- A value with its structure. -/
def shown (value : Value) : Text :=
  value.spread.shownTree

mutual

/-- Whether a value can be shown: no integer in it has too many digits to be written. -/
def isShowable : Value → Bool
  | int number => hasWritableDigits number
  | list items => areShowable items
  | tuple items => areShowable items
  | set items => areShowable items
  | map entries => haveShowable entries
  | tangle cells _ _ => holdShowable cells
  | _ => true

def areShowable : List Value → Bool
  | [] => true
  | item :: items => isShowable item && areShowable items

def haveShowable : List (Value × Value) → Bool
  | [] => true
  | (key, value) :: entries => isShowable key && isShowable value && haveShowable entries

def holdShowable : List (Nat × Value) → Bool
  | [] => true
  | (_, cell) :: cells => isShowable cell && holdShowable cells

end

/-- A value as a part of running text. -/
def plain : Value → Text
  | text content => content
  | date day => day.iso
  | moment time => time.isoWith ' '
  | value => value.shown

end Value

end IntentModel
