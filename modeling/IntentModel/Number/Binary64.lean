import IntentModel.Number.Digits
import IntentModel.Text.DecimalDigit

/-! # Floating-point numbers

Numbers of the binary64 format, as exact values: a finite number is a sign, a mantissa below `2^53`
and a power of two. All arithmetic is on natural numbers and integers; `ofRatio` is the one place
where a result is rounded, to the nearest number and at a tie to the even mantissa.
-/

namespace IntentModel

/-- A binary64 number. The finite ones stand for `mantissa * 2 ^ exponent` with a sign; the mantissa
is below `2 ^ 53`, and below `2 ^ 52` only at the least exponent, -1074. -/
inductive Binary64
  /-- The outcome that is not a number. A constant is the same wherever it occurs; otherwise it equals nothing,
  not even itself. Occurrences of one such outcome are not told from different ones, so where an alias makes
  it a key of a mapping a second time, it counts as another key here. -/
  | nan (constant : Bool)
  | infinite (negative : Bool)
  | finite (negative : Bool) (mantissa : Nat) (exponent : Int)
deriving DecidableEq, Repr, Inhabited

namespace Binary64

/-- The least mantissa that fills the format: `2 ^ 52`. -/
def leastFull : Nat :=
  0x10000000000000

def zero (negative : Bool) : Binary64 :=
  .finite negative 0 (-1074)

/-- `num / (den * 2 ^ exponent)` as a fraction of natural numbers. -/
def scale (num den : Nat) : Int → Nat × Nat
  | .ofNat e => (num, den * Nat.pow 2 e)
  | .negSucc e => (num * Nat.pow 2 (e + 1), den)

/-- A fraction rounded to the nearest natural number, a tie to the even one. -/
def roundHalfEven (num den : Nat) : Nat :=
  let quotient := num / den
  let twice := 2 * (num % den)
  if twice > den || (twice == den && quotient % 2 == 1) then quotient + 1 else quotient

/-- The exponent at which the mantissa of `num / den` fills the format. -/
def exponentFor (num den : Nat) : Int :=
  let guess : Int := (num.log2 : Int) - (den.log2 : Int) - 52
  let (n, d) := scale num den guess
  let exponent := if n / d < leastFull then guess - 1 else guess
  max exponent (-1074)

/-- The number nearest to `num / den`. -/
def ofRatio (negative : Bool) (num den : Nat) : Binary64 :=
  if num = 0 then zero negative
  else
    let exponent := exponentFor num den
    let (n, d) := scale num den exponent
    let mantissa := roundHalfEven n d
    let (mantissa, exponent) :=
      if mantissa = 2 * leastFull then (leastFull, exponent + 1) else (mantissa, exponent)
    if exponent > 971 then .infinite negative else .finite negative mantissa exponent

/-- The number nearest to `coefficient * 10 ^ exponent`. Beyond four hundred digits from the point
the answer is known without looking. -/
def ofDecimal (negative : Bool) (coefficient : Nat) (exponent : Int) : Binary64 :=
  if coefficient = 0 then zero negative
  else if exponent > 400 then .infinite negative
  else if exponent + (Text.ofNat coefficient).length < -400 then zero negative
  else
    match exponent with
    | .ofNat e => ofRatio negative (coefficient * Nat.pow 10 e) 1
    | .negSucc e => ofRatio negative coefficient (Nat.pow 10 (e + 1))

def ofNat (n : Nat) : Binary64 :=
  ofRatio false n 1

/-- The magnitude of a finite number as a fraction. -/
def magnitude (mantissa : Nat) : Int → Nat × Nat
  | .ofNat e => (mantissa * Nat.pow 2 e, 1)
  | .negSucc e => (mantissa, Nat.pow 2 (e + 1))

def isNegative : Binary64 → Bool
  | .nan _ => false
  | .infinite negative => negative
  | .finite negative _ _ => negative

def negate : Binary64 → Binary64
  | .nan _ => .nan false
  | .infinite negative => .infinite !negative
  | .finite negative mantissa exponent => .finite (!negative) mantissa exponent

def isZero : Binary64 → Bool
  | .finite _ 0 _ => true
  | _ => false

def mul (a b : Binary64) : Binary64 :=
  let negative := a.isNegative != b.isNegative
  match a, b with
  | .finite _ m e, .finite _ n f =>
    let (num, den) := magnitude m e
    let (num', den') := magnitude n f
    ofRatio negative (num * num') (den * den')
  | .nan _, _ => .nan false
  | _, .nan _ => .nan false
  | a, b => if a.isZero || b.isZero then .nan false else .infinite negative

def add (a b : Binary64) : Binary64 :=
  match a, b with
  | .finite s m e, .finite t n f =>
    let (num, den) := magnitude m e
    let (num', den') := magnitude n f
    let left : Int := (num * den' : Nat)
    let right : Int := (num' * den : Nat)
    let sum := (if s then -left else left) + (if t then -right else right)
    ofRatio (if sum = 0 then s && t else sum < 0) sum.natAbs (den * den')
  | .nan _, _ => .nan false
  | _, .nan _ => .nan false
  | .infinite s, .infinite t => if s = t then .infinite s else .nan false
  | .infinite s, _ => .infinite s
  | _, .infinite t => .infinite t

/-- The integer that a number equals, if it is one. -/
def toInt? : Binary64 → Option Int
  | .finite negative mantissa exponent =>
    let (num, den) := magnitude mantissa exponent
    let whole : Int := (num / den : Nat)
    if num % den = 0 then some (if negative then -whole else whole) else none
  | _ => none

/-- Equality of values: the two zeros are equal, and of what is not a number only the constant is
equal to itself. -/
def same (a b : Binary64) : Bool :=
  (a == b && a != .nan false) || (a.isZero && b.isZero)

/-- Removes the underscores that stand between two digits; none may stand elsewhere. -/
def dropUnderscores? : Text → Option Text
  | c :: .char '_' :: d :: text =>
    if isDigit c && isDigit d then (dropUnderscores? (d :: text)).map (c :: ·) else none
  | .char '_' :: _ => none
  | c :: text => (dropUnderscores? text).map (c :: ·)
  | [] => some []

/-- The exponent part of a literal: nothing, or `e` with an integer. -/
def exponentPart? : Text → Option Int
  | [] => some 0
  | e :: text =>
    if e == 'e' || e == 'E' then
      match text with
      | .char '-' :: digits => (Text.toNat? 10 digits).map fun n => -(n : Int)
      | .char '+' :: digits => (Text.toNat? 10 digits).map fun n => (n : Int)
      | digits => (Text.toNat? 10 digits).map fun n => (n : Int)
    else none

/-- Reads digits with an optional point and an optional exponent. -/
def ofUnsigned? (negative : Bool) (text : Text) : Option Binary64 :=
  let whole := text.takeWhile isDigit
  let rest := text.dropWhile isDigit
  let (fraction, rest) :=
    match rest with
    | .char '.' :: rest => (rest.takeWhile isDigit, rest.dropWhile isDigit)
    | rest => ([], rest)
  match exponentPart? rest, Text.toNat? 10 (whole ++ fraction) with
  | some exponent, some coefficient =>
    some (ofDecimal negative coefficient (exponent - fraction.length))
  | _, _ => none

/-- Reads a number: a decimal literal with an optional sign, or a word for what is not finite. The
digits may be of any script. -/
def ofText? (text : Text) : Option Binary64 :=
  let (negative, digits) :=
    match text.withAsciiDigits.trimWhile isAsciiSpace with
    | .char '-' :: rest => (true, rest)
    | .char '+' :: rest => (false, rest)
    | rest => (false, rest)
  let word := digits.map CodePoint.toLower
  if word = ("inf" : Text) || word = ("infinity" : Text) then some (.infinite negative)
  else if word = ("nan" : Text) then some (.nan false)
  else (dropUnderscores? digits).bind (ofUnsigned? negative)

end Binary64

end IntentModel
