import IntentModel.Text

/-! # Sets of characters

A class of characters, written down as the code points at which membership changes. A code point is
in the set when an odd number of those boundaries is not above it.
-/

namespace IntentModel

/-- A set of characters, given by the increasing code points at which membership changes. -/
structure CharSet where
  bounds : List Nat

/-- Membership: the number of boundaries up to the character is odd. -/
def CharSet.contains (set : CharSet) (c : CodePoint) : Bool :=
  (set.bounds.takeWhile (· ≤ c.toNat)).length % 2 == 1

end IntentModel
