import IntentModel.Number.Digits
import IntentModel.Text.Blank

/-! # Integers written in settings

A setting that is an integer may be given as a text. Spaces around it, a sign, zeros in front,
single underscores between digits and a fraction of zeros do no harm; what is left when they are
removed has to be an integer in its plain form. Zeros in front go together with all underscores
among them, and a minus sign may stand behind them.
-/

namespace IntentModel.Settings

/-- Removes zeros and underscores up to a digit or a minus sign. The character `last` was passed
over last; it stays where nothing else does, or where a point follows. -/
def afterZeros? (last : CodePoint) : Text → Option Text
  | [] => some [last]
  | c :: text =>
    if c == '0' || c == '_' then afterZeros? c text
    else if ('1' ≤ c && c ≤ '9') || c == '-' then some (c :: text)
    else if c == '.' then some (last :: c :: text)
    else none

/-- Removes zeros in front of an integer. Nothing but a digit or a minus sign may come first. -/
def dropZeros? : Text → Option Text
  | [] => none
  | c :: text =>
    if c == '0' then afterZeros? c text
    else if ('1' ≤ c && c ≤ '9') || c == '-' then some (c :: text)
    else none

/-- Removes a point and the zeros behind it, of which there has to be one. -/
def dropZeroFraction (text : Text) : Text :=
  match text.cutAt? [.char '.'] with
  | some (whole, fraction) =>
    if !fraction.isEmpty && fraction.all (· == .char '0') then whole else text
  | none => text

/-- Removes underscores, if none of them is first, last or next to another. -/
def dropSingleUnderscores (text : Text) : Text :=
  if text.head? == some '_' || text.getLast? == some '_' || (text.cutAt? "__").isSome then text
  else text.filter (· != .char '_')

/-- Reads a natural number of ASCII digits without zeros in front. -/
def plainNat? : Text → Option Nat
  | [.char '0'] => some 0
  | c :: digits =>
    if '1' ≤ c && c ≤ '9' && digits.all isDigit then Text.toNat? 10 (c :: digits) else none
  | [] => none

/-- The number of characters that an integer may have in its plain form. -/
def mostIntegerLength : Nat :=
  4300

/-- Reads an integer in its plain form: a minus sign or none, and a natural number. -/
def plainInteger? (text : Text) : Option Int :=
  if text.length > mostIntegerLength then none
  else
    match text with
    | .char '-' :: digits => (plainNat? digits).map fun n => -(n : Int)
    | digits => (plainNat? digits).map fun n => (n : Int)

def integerText? (text : Text) : Option Int := do
  let (sign, unsigned) : Text × Text ← match text.trimWhile isSpace with
    | .char '+' :: .char '-' :: _ => none
    | .char '+' :: rest => some ([], rest)
    | .char '-' :: rest => some ([.char '-'], rest)
    | rest => some ([], rest)
  let digits ← dropZeros? unsigned
  plainInteger? (sign ++ dropSingleUnderscores (dropZeroFraction digits))

end IntentModel.Settings
