import IntentModel.Text.Lowercase
import IntentModel.Value
import IntentModel.Yaml.Fault

/-! # Scalars and their kinds

A tag says of what kind a node is. A plain scalar without a tag has the kind that its content shows:
words for null and the truth values, integers in several bases and in base sixty, floating-point
numbers, dates and points in time; anything else is a text. `Kind.ofContent` decides this, and
`Kind.scalarValue` gives a scalar of a kind its value.
-/

namespace IntentModel.Yaml

/-- What a node is. -/
inductive Kind
  | null
  | bool
  | int
  | float
  | binary
  | time
  | pairs
  | set
  | str
  | seq
  | map
  /-- The key whose value is merged into the mapping that holds it. -/
  | merge
  /-- The key that stands for the default value. -/
  | default
  | unknown
deriving DecidableEq, Repr

/-- The kinds by the names of their tags; ordered mappings are read as sequences of pairs. -/
def Kind.names : List (Text × Kind) :=
  [("null", null), ("bool", bool), ("int", int), ("float", float), ("binary", binary), ("timestamp", time),
    ("omap", pairs), ("pairs", pairs), ("set", set), ("str", str), ("seq", seq), ("map", map),
    ("merge", merge), ("value", default)]

def Kind.ofTag (tag : Text) : Kind :=
  ((Text.after? "tag:yaml.org,2002:" tag).bind fun name => names.lookup name).getD unknown

/-- The form of the values of a kind, if they are collections. -/
def Kind.form? : Kind → Option Form
  | .seq => some .list
  | .pairs => some .list
  | .map => some .map
  | .set => some .set
  | _ => none

/-! ### The form of numbers -/

def unsigned : Text → Text
  | .char '-' :: text => text
  | .char '+' :: text => text
  | text => text

/-- A digit or an underscore. -/
def isGroupedDigit (c : CodePoint) : Bool :=
  isDigit c || c == '_'

/-- Digits and underscores behind a first digit other than zero, or a zero. -/
def isWholeNumber : Text → Bool
  | [.char '0'] => true
  | c :: text => '1' ≤ c && c ≤ '9' && text.all isGroupedDigit
  | [] => false

/-- A number below sixty of one or two digits. -/
def isSixtieth : Text → Bool
  | [c] => isDigit c
  | [c, d] => '0' ≤ c && c ≤ '5' && isDigit d
  | _ => false

/-- Several digits or underscores of a base behind a mark for the base. -/
def isInBase (inBase : CodePoint → Bool) (digits : Text) : Bool :=
  !digits.isEmpty && digits.all fun c => inBase c || c == '_'

def isInteger (text : Text) : Bool :=
  let text := unsigned text
  isWholeNumber text ||
    (match text with
      | .char '0' :: .char 'b' :: digits => isInBase (fun c => c == '0' || c == '1') digits
      | .char '0' :: .char 'x' :: digits => isInBase isHexDigit digits
      | .char '0' :: digits => isInBase (fun c => '0' ≤ c && c ≤ '7') digits
      | _ => false) ||
    (match text.splitOn (.char ':') with
      | first :: second :: more =>
        isWholeNumber first && first != [.char '0'] && (second :: more).all isSixtieth
      | _ => false)

/-- An exponent: `e`, a sign that may not be missing, and digits; or nothing. -/
def isExponent : Text → Bool
  | [] => true
  | [_, _] => false
  | e :: sign :: digits =>
    (e == 'e' || e == 'E') && (sign == '-' || sign == '+') && digits.all isDigit
  | _ => false

/-- A part that begins with a digit and goes on with digits and underscores. -/
def isGrouped : Text → Bool
  | c :: text => isDigit c && text.all isGroupedDigit
  | [] => false

/-- Whether a text is written like a floating-point number. -/
def isFloating (text : Text) : Bool :=
  let digits := unsigned text
  let beforePoint := digits.takeWhile (· != .char '.')
  let behindPoint := (digits.dropWhile (· != .char '.')).drop 1
  let fraction := behindPoint.takeWhile isGroupedDigit
  let exponent := behindPoint.dropWhile isGroupedDigit
  digits.contains '.' &&
    ((isGrouped beforePoint && isExponent exponent) ||
      (beforePoint.isEmpty && text == digits && isGrouped fraction && isExponent exponent) ||
      (match beforePoint.splitOn (.char ':') with
        | first :: second :: more =>
          isGrouped first && (second :: more).all isSixtieth && exponent.isEmpty
        | _ => false) ||
      ([".inf", ".Inf", ".INF"] : List Text).contains digits ||
      (text == digits && ([".nan", ".NaN", ".NAN"] : List Text).contains digits))

/-! ### The form of points in time -/

/-- The parts of a point in time as they are written. -/
structure TimeParts where
  year : Text
  month : Text
  day : Text
  /-- Hour, minute, second and fraction; missing for a date. -/
  clock : Option (Text × Text × Text × Text)
  /-- Sign, hours and minutes of the offset, or nothing in them for universal time. -/
  offset : Option (Option (CodePoint × Text × Text))

/-- Splits off digits, as many as can be up to a number. -/
def leadingDigits (most : Nat) (text : Text) : Text × Text :=
  let digits := (text.take most).takeWhile isDigit
  (digits, text.drop digits.length)

/-- Splits off an exact number of digits. -/
def exactDigits? (count : Nat) (text : Text) : Option (Text × Text) :=
  let (digits, rest) := leadingDigits count text
  if digits.length = count then some (digits, rest) else none

/-- Splits off one or two digits. -/
def fewDigits? (text : Text) : Option (Text × Text) :=
  let (digits, rest) := leadingDigits 2 text
  if digits.isEmpty then none else some (digits, rest)

def mark? (c : CodePoint) : Text → Option Text
  | d :: text => if d == c then some text else none
  | [] => none

def offsetPart? (text : Text) : Option (Option (Option (CodePoint × Text × Text))) :=
  if text.isEmpty then some none
  else
    match text.dropWhile fun c : CodePoint => c == ' ' || c == '\t' with
    | [.char 'Z'] => some (some none)
    | sign :: text =>
      if sign == '+' || sign == '-' then do
        let (hours, rest) ← fewDigits? text
        if rest.isEmpty then return some (some (sign, hours, []))
        let (minutes, rest) ← exactDigits? 2 (← mark? ':' rest)
        if rest.isEmpty then return some (some (sign, hours, minutes)) else none
      else none
    | [] => none

/-- Removes what stands between date and time: a letter T or blanks. -/
def timeSeparator? : Text → Option Text
  | c :: text =>
    if c == 'T' || c == 't' then some text
    else if c == ' ' || c == '\t' then some (text.dropWhile fun c : CodePoint => c == ' ' || c == '\t')
    else none
  | [] => none

/-- Reads a date, and a time behind it if there is one. -/
def timeParts? (text : Text) : Option TimeParts := do
  let (year, rest) ← exactDigits? 4 text
  let (month, rest) ← fewDigits? (← mark? '-' rest)
  let (day, rest) ← fewDigits? (← mark? '-' rest)
  if rest.isEmpty then return { year, month, day, clock := none, offset := none }
  let (hour, rest) ← fewDigits? (← timeSeparator? rest)
  let (minute, rest) ← exactDigits? 2 (← mark? ':' rest)
  let (second, rest) ← exactDigits? 2 (← mark? ':' rest)
  let (fraction, rest) := match rest with
    | .char '.' :: rest => (rest.takeWhile isDigit, rest.dropWhile isDigit)
    | rest => ([], rest)
  let offset ← offsetPart? rest
  return { year, month, day, clock := some (hour, minute, second, fraction), offset }

/-- Whether a text is written like a point in time. A date alone has two digits each for month and
day. -/
def isTime (text : Text) : Bool :=
  match timeParts? text with
  | none => false
  | some parts => parts.clock.isSome || (parts.month.length == 2 && parts.day.length == 2)

/-! ### Kinds by content -/

/-- The words for the truth values. -/
def truthWords : List Text :=
  ["yes", "Yes", "YES", "no", "No", "NO", "true", "True", "TRUE", "false", "False", "FALSE",
    "on", "On", "ON", "off", "Off", "OFF"]

/-- The text without a line feed at its end, which does not change what a scalar is. -/
def withoutFinalBreak (text : Text) : Text :=
  match text.reverse with
  | .char '\n' :: c :: rest => (c :: rest).reverse
  | _ => text

/-- The kind that the content of a scalar shows. -/
def Kind.ofContent (content : Text) : Kind :=
  let content := withoutFinalBreak content
  if truthWords.contains content then .bool
  else if isFloating content then .float
  else if isInteger content then .int
  else if content = ("<<" : Text) then .merge
  else if (["~", "null", "Null", "NULL", ""] : List Text).contains content then .null
  else if isTime content then .time
  else if content = ("=" : Text) then .default
  else if (["!", "&", "*"] : List Text).contains content then .unknown
  else .str

/-! ### Values -/

/-- The sign and the digits of a number, in small letters and without underscores. -/
def splitSign (content : Text) : Bool × Text :=
  match content.filter (· != .char '_') with
  | .char '-' :: digits => (true, digits)
  | .char '+' :: digits => (false, digits)
  | digits => (false, digits)

/-- Removes the mark that digits of a base may have in front: a zero and a letter. -/
def dropBaseMark (base : Nat) : Text → Text
  | .char '0' :: letter :: digits =>
    if (base == 2 && (letter == 'b' || letter == 'B')) ||
      (base == 8 && (letter == 'o' || letter == 'O')) ||
      (base == 16 && (letter == 'x' || letter == 'X')) then digits
    else .char '0' :: letter :: digits
  | digits => digits

/-- An integer of a base, with digits of any script. It may have a sign and a mark of its own, and
spaces around it. In base ten the number of digits is limited. -/
def integerInBase (base : Nat) (digits : Text) : Except Fault Int :=
  let (negative, digits) : Bool × Text := match digits.withAsciiDigits.trimWhile isAsciiSpace with
    | .char '-' :: rest => (true, rest)
    | .char '+' :: rest => (false, rest)
    | rest => (false, rest)
  if base = 10 && digits.length > mostDigits then .error .noSuchValue
  else
    match Text.toNat? base (dropBaseMark base digits) with
    | some n => .ok (if negative then -(n : Int) else n)
    | none => .error .noSuchValue

/-- An integer of the kind that its first characters show. -/
def integerValue (content : Text) : Except Fault Int := do
  if (content.filter (· != .char '_')).isEmpty then throw .noDigits
  let (negative, digits) := splitSign content
  let magnitude ← match digits with
    | [] => throw .noDigits
    | [.char '0'] => pure 0
    | .char '0' :: .char 'b' :: digits => integerInBase 2 digits
    | .char '0' :: .char 'x' :: digits => integerInBase 16 digits
    | .char '0' :: digits => integerInBase 8 (.char '0' :: digits)
    | digits =>
      (digits.splitOn (.char ':')).foldlM (fun sum part => return sum * 60 + (← integerInBase 10 part)) 0
  return if negative then -magnitude else magnitude

/-- Adds parts in base sixty, the last one first. The unit of every part has to be a finite
number. -/
def addSixtieths : List Binary64 → Nat → Binary64 → Except Fault Binary64
  | [], _, sum => .ok sum
  | part :: parts, unit, sum =>
    match Binary64.ofNat unit with
    | .infinite _ => .error .numberTooLarge
    | factor => addSixtieths parts (unit * 60) (sum.add (part.mul factor))

/-- A floating-point number, possibly in base sixty. -/
def floatingValue (content : Text) : Except Fault Binary64 := do
  let (negative, digits) := splitSign content
  let digits := Text.lower digits
  if (content.filter (· != .char '_')).isEmpty then throw .noDigits
  if digits = (".nan" : Text) then return .nan true
  let magnitude ←
    if digits = (".inf" : Text) then pure (Binary64.infinite false)
    else
      match (digits.splitOn (.char ':')).mapM Binary64.ofText? with
      | none => throw .noSuchValue
      | some [number] => pure number
      | some parts => addSixtieths parts.reverse 1 (.zero false)
  return if negative then magnitude.negate else magnitude

/-- The truth value of a word, whatever its capitals. -/
def truthValue (content : Text) : Except Fault Bool :=
  if (["yes", "true", "on"] : List Text).contains content.lower then .ok true
  else if (["no", "false", "off"] : List Text).contains content.lower then .ok false
  else .error .notTruth

/-- The number that digits write; none is zero. -/
def numberOf (digits : Text) : Nat :=
  (Text.toNat? 10 digits).getD 0

/-- A value that may not exist. -/
def existing {α : Type} : Option α → Except Fault α
  | some value => .ok value
  | none => .error .noSuchValue

/-- The microseconds of a decimal fraction; further digits are dropped. -/
def microseconds (fraction : Text) : Nat :=
  numberOf ((fraction ++ List.replicate 6 (CodePoint.char '0')).take 6)

def offsetMinutes : Option (CodePoint × Text × Text) → Int
  | none => 0
  | some (sign, hours, minutes) =>
    let total : Int := numberOf hours * 60 + numberOf minutes
    if sign == '-' then -total else total

/-- A date or a point in time. -/
def timeValue (content : Text) : Except Fault Value :=
  match timeParts? (withoutFinalBreak content) with
  | none => .error .notTime
  | some parts => do
    let date? := Date.of? (numberOf parts.year) (numberOf parts.month) (numberOf parts.day)
    match parts.clock with
    | none => return .date (← existing date?)
    | some (hour, minute, second, fraction) =>
      let moment ← existing (Moment.of? (← existing date?) (numberOf hour) (numberOf minute)
        (numberOf second) (microseconds fraction) (parts.offset.map offsetMinutes))
      return .moment moment

/-- The number that a character of base 64 stands for. -/
def sextet? (c : CodePoint) : Option Nat :=
  if 'A' ≤ c && c ≤ 'Z' then some (c.toNat - 'A'.toNat)
  else if 'a' ≤ c && c ≤ 'z' then some (c.toNat - 'a'.toNat + 26)
  else if isDigit c then some (c.toNat - '0'.toNat + 52)
  else if c == '+' then some 62
  else if c == '/' then some 63
  else none

/-- Reads bytes in base 64. Of the characters that carry six bits each, `read` belong to the group
at hand and left `bits` over; `pads` counts the equals signs behind them. Other characters are
passed over, and padding that completes a group ends the bytes. -/
def readBase64 : Nat → Nat → Nat → Text → Except Fault (List UInt8)
  | read, _, _, [] => if read = 0 then .ok [] else .error .malformed
  | read, bits, pads, c :: text =>
    if c == '=' then
      if 2 ≤ read && 4 ≤ read + pads + 1 then .ok [] else readBase64 read bits (pads + 1) text
    else
      match sextet? c with
      | none => readBase64 read bits pads text
      | some sextet =>
        match read with
        | 0 => readBase64 1 sextet 0 text
        | 1 => (readBase64 2 (sextet % 16) 0 text).map
            (UInt8.ofNat (bits * 4 + sextet / 16) :: ·)
        | 2 => (readBase64 3 (sextet % 4) 0 text).map
            (UInt8.ofNat (bits * 16 + sextet / 4) :: ·)
        | _ => (readBase64 0 0 0 text).map (UInt8.ofNat (bits * 64 + sextet) :: ·)

def binaryValue (content : Text) : Except Fault (List UInt8) :=
  if content.all (·.toNat < 0x80) then readBase64 0 0 0 content else .error .malformed

/-- The value of a scalar of a kind. -/
def Kind.scalarValue (kind : Kind) (content : Text) : Except Fault Value :=
  match kind with
  | .null => .ok .null
  | .bool => (truthValue content).map .bool
  | .int => (integerValue content).map .int
  | .float => (floatingValue content).map .float
  | .binary => (binaryValue content).map .bytes
  | .time => timeValue content
  | .str => .ok (.text content)
  | _ => .error .malformed

end IntentModel.Yaml
