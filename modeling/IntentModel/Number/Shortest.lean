import IntentModel.Number.Binary64

/-! # Shortest decimals

A finite number is written with the fewest decimal digits that read back as the same number, and
among those with the ones nearest to it. The reals that read back as a number form an interval
around it, to which the ends belong when the mantissa is even. For one digit, two digits and so on,
the two neighbours of the number on that decimal grid are tried; a point of the grid lies in the
interval only if one of the neighbours does.
-/

namespace IntentModel.Binary64

/-- Decimal digits and the power of ten that the last one counts. -/
structure Decimal where
  coefficient : Nat
  exponent : Int
deriving DecidableEq, Repr

/-- `10 ^ exponent` as a fraction. -/
def powerOfTen : Int → Nat × Nat
  | .ofNat e => (Nat.pow 10 e, 1)
  | .negSucc e => (1, Nat.pow 10 (e + 1))

/-- The reals that read back as one number: `lower / den` to `upper / den` around `mid / den`. -/
structure Interval where
  lower : Nat
  mid : Nat
  upper : Nat
  den : Nat
  closed : Bool

/-- The interval of a positive number. Below a power of two the numbers lie twice as close. -/
def Interval.around (mantissa : Nat) (exponent : Int) : Interval :=
  let (unit, den) := magnitude 1 (exponent - 2)
  let below := if mantissa = leastFull && exponent > -1074 then 1 else 2
  { lower := (4 * mantissa - below) * unit
    mid := 4 * mantissa * unit
    upper := (4 * mantissa + 2) * unit
    den := den
    closed := mantissa % 2 == 0 }

/-- Whether `coefficient * num / den` lies in the interval. -/
def Interval.covers (interval : Interval) (coefficient num den : Nat) : Bool :=
  let point := coefficient * num * interval.den
  let lower := interval.lower * den
  let upper := interval.upper * den
  if interval.closed then lower ≤ point && point ≤ upper else lower < point && point < upper

/-- The decimal exponent of the first digit of the middle of the interval. -/
def Interval.leadingExponent (interval : Interval) : Int :=
  ((Text.ofNat (interval.mid * Nat.pow 10 400 / interval.den)).length : Int) - 401

/-- The best decimal whose last digit counts `10 ^ exponent`, if one lies in the interval. -/
def Interval.onGrid? (interval : Interval) (exponent : Int) : Option Decimal :=
  let (num, den) := powerOfTen exponent
  let below := interval.mid * den / (interval.den * num)
  let twice := 2 * (interval.mid * den % (interval.den * num))
  let unit := interval.den * num
  let upperFirst := twice > unit || (twice == unit && below % 2 == 1)
  let (first, second) := if upperFirst then (below + 1, below) else (below, below + 1)
  if interval.covers first num den then some ⟨first, exponent⟩
  else if interval.covers second num den then some ⟨second, exponent⟩
  else none

/-- Tries ever finer grids, as many as the first argument says, and takes the last if none fits. -/
def Interval.shortest (interval : Interval) : Nat → Int → Decimal
  | 0, exponent => ⟨interval.mid / interval.den, exponent⟩
  | grids + 1, exponent =>
    match interval.onGrid? exponent with
    | some decimal => decimal
    | none => interval.shortest grids (exponent - 1)

/-- The shortest decimal that reads back as a positive number; seventeen digits always do. -/
def shortestDecimal (mantissa : Nat) (exponent : Int) : Decimal :=
  let interval := Interval.around mantissa exponent
  interval.shortest 17 interval.leadingExponent

/-- How numbers are laid out: within which decimal exponents positionally, and the words for what is
not finite. -/
structure Layout where
  leastPositional : Int
  firstScientific : Int
  nan : Text
  infinity : Text

def dropTrailingZeros (digits : Text) : Text :=
  (digits.reverse.dropWhile (· == .char '0')).reverse

/-- Digits with the point behind the first `place` of them; zeros are filled in on both sides, and a
whole number keeps one digit behind the point. -/
def positional (digits : Text) (place : Int) : Text :=
  match place with
  | .negSucc zeros => "0." ++ List.replicate (zeros + 1) (CodePoint.char '0') ++ digits
  | .ofNat 0 => "0." ++ digits
  | .ofNat place =>
    let whole := digits.take place ++ List.replicate (place - digits.length) (CodePoint.char '0')
    let fraction := digits.drop place
    whole ++ .char '.' :: (if fraction.isEmpty then [.char '0'] else fraction)

/-- Digits with one before the point and a decimal exponent of at least two digits. -/
def scientific (digits : Text) (exponent : Int) : Text :=
  let mantissa :=
    match digits with
    | [] => []
    | [d] => [d]
    | d :: rest => d :: .char '.' :: rest
  mantissa ++ .char 'e' :: (if exponent < 0 then .char '-' else .char '+') :: Text.ofNatPadded 2 exponent.natAbs

def write (layout : Layout) : Binary64 → Text
  | .nan _ => layout.nan
  | .infinite negative => if negative then .char '-' :: layout.infinity else layout.infinity
  | .finite negative mantissa exponent =>
    let sign : Text := if negative then "-" else []
    if mantissa = 0 then sign ++ "0.0"
    else
      let decimal := shortestDecimal mantissa exponent
      let written := Text.ofNat decimal.coefficient
      let digits := dropTrailingZeros written
      let leading := decimal.exponent + written.length - 1
      if layout.leastPositional ≤ leading && leading < layout.firstScientific then
        sign ++ positional digits (leading + 1)
      else sign ++ scientific digits leading

/-- Numbers from a ten-thousandth to below `10 ^ 16` are written positionally. -/
def plainLayout : Layout where
  leastPositional := -4
  firstScientific := 16
  nan := "nan"
  infinity := "inf"

/-- The plain layout with the words that the data format of the model has for numbers that are not
finite. -/
def jsonLayout : Layout :=
  { plainLayout with nan := "NaN", infinity := "Infinity" }

def text (number : Binary64) : Text :=
  number.write plainLayout

end IntentModel.Binary64
