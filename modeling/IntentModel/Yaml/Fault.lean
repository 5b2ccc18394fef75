/-! # Faults of a YAML text

Why a text has no value. Nearly always it breaks the rules of the language; the other faults are of
single scalars, whose tag promises a value that their content does not have.
-/

namespace IntentModel.Yaml

inductive Fault
  /-- The text is not well-formed, or holds something that has no value here. -/
  | malformed
  /-- The bytes of the text are no text. -/
  | notText
  /-- A scalar looks like a number, a day or a character and is none that exists. -/
  | noSuchValue
  /-- An escape gives a character number beyond 31 bits, or a number has more places in base sixty
  than the format of floating-point numbers has room for. -/
  | numberTooLarge
  /-- A scalar is said to be a truth value and is no word for one. -/
  | notTruth
  /-- A scalar is said to be a number and is empty. -/
  | noDigits
  /-- A scalar is said to be a point in time and has not the form of one. -/
  | notTime
  /-- Too many nodes lie within one another, or a mapping that stands for a scalar leads back to itself. -/
  | tooDeep
  /-- A mapping is said to be a point in time. -/
  | notScalar
deriving DecidableEq, Repr

end IntentModel.Yaml
