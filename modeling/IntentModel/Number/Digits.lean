import IntentModel.Text

/-! # Digits

Natural numbers and integers as digits, in the bases that the library reads and writes.
-/

namespace IntentModel

/-- The value of a digit below ten or of a letter counted on from ten. -/
def digitValue? (c : CodePoint) : Option Nat :=
  if '0' ≤ c && c ≤ '9' then some (c.toNat - '0'.toNat)
  else if 'a' ≤ c && c ≤ 'z' then some (c.toNat - 'a'.toNat + 10)
  else if 'A' ≤ c && c ≤ 'Z' then some (c.toNat - 'A'.toNat + 10)
  else none

/-- Whether a character is one of the ten ASCII digits. -/
def isDigit (c : CodePoint) : Bool :=
  '0' ≤ c && c ≤ '9'

def isHexDigit (c : CodePoint) : Bool :=
  isDigit c || ('a' ≤ c && c ≤ 'f') || ('A' ≤ c && c ≤ 'F')

/-- The number of decimal digits up to which integers are read and written. -/
def mostDigits : Nat :=
  4300

/-- Whether an integer has few enough decimal digits to be written. -/
def hasWritableDigits (n : Int) : Bool :=
  n.natAbs < Nat.pow 10 mostDigits

namespace Text

/-- Reads digits behind a number that was read already. -/
def digitsFrom? (base : Nat) (read : Nat) : Text → Option Nat
  | [] => some read
  | c :: text => do
    let digit ← digitValue? c
    if digit < base then digitsFrom? base (read * base + digit) text else none

/-- The number that a non-empty row of digits writes. -/
def toNat? (base : Nat) : Text → Option Nat
  | [] => none
  | c :: text => digitsFrom? base 0 (c :: text)

def ofNat (n : Nat) : Text :=
  (Nat.toDigits 10 n).map .char

/-- The decimal digits of an integer, with a sign if it is negative. -/
def ofInt (n : Int) : Text :=
  if n < 0 then .char '-' :: ofNat n.natAbs else ofNat n.natAbs

/-- The decimal digits of a number, with zeros in front up to a width. -/
def ofNatPadded (width n : Nat) : Text :=
  let digits := ofNat n
  List.replicate (width - digits.length) (.char '0') ++ digits

/-- The hexadecimal digits of a number in small letters, with zeros in front up to a width. -/
def ofNatHex (width n : Nat) : Text :=
  let digits := (Nat.toDigits 16 n).map CodePoint.char
  List.replicate (width - digits.length) (.char '0') ++ digits

end Text

end IntentModel
