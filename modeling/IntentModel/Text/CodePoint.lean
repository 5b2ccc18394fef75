/-! # Code points

The units of texts. Nearly every code point is a character. The surrogates are not: other encodings use them in
pairs, and alone they stand for nothing. Still a text can hold one, through an escape or for a byte that the
system hands over and that belongs to no character. Such a text has no form in UTF-8.
-/

namespace IntentModel

/-- A character, or one of the surrogates U+D800 to U+DFFF. -/
inductive CodePoint
  | char (c : Char)
  | surrogate (index : Fin 0x800)
deriving DecidableEq, Repr, Inhabited

instance : Coe Char CodePoint := ⟨.char⟩

namespace CodePoint

def toNat : CodePoint → Nat
  | char c => c.toNat
  | surrogate index => 0xD800 + index

/-- The code point of a number below 0x110000. -/
def ofNat (n : Nat) : CodePoint :=
  if inside : 0xD800 ≤ n ∧ n < 0xE000 then surrogate ⟨n - 0xD800, by omega⟩ else char (Char.ofNat n)

instance : LE CodePoint := ⟨fun c d => c.toNat ≤ d.toNat⟩

instance : LT CodePoint := ⟨fun c d => c.toNat < d.toNat⟩

instance (c d : CodePoint) : Decidable (c ≤ d) := inferInstanceAs (Decidable (c.toNat ≤ d.toNat))

instance (c d : CodePoint) : Decidable (c < d) := inferInstanceAs (Decidable (c.toNat < d.toNat))

/-- The small letter for one of A to Z; every other code point is kept. -/
def toLower : CodePoint → CodePoint
  | char c => char c.toLower
  | surrogate index => surrogate index

/-- Letters and digits of ASCII. -/
def isAlphanum : CodePoint → Bool
  | char c => c.isAlphanum
  | surrogate _ => false

/-- The character that a code point is. -/
def char? : CodePoint → Option Char
  | char c => some c
  | surrogate _ => none

end CodePoint

end IntentModel
