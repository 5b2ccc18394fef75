import IntentModel.Value

/-! # The order of numbers in a set

A set has no order, but its members have to be shown in some order. Numbers are shown in the order
of their slots in a table: a number goes to the slot that its residue names, or to one that a fixed
sequence of probes finds behind it when that slot is taken. Equal numbers have equal residues,
whatever their form. Other members are shown as they were put.
-/

namespace IntentModel.Value

/-- The prime modulus of residues, `2 ^ 61 - 1`. A power of two has the residue of the power whose
exponent lies between 0 and 60. -/
def residueModulus : Nat :=
  0x1FFFFFFFFFFFFFFF

/-- The residue of `mantissa * 2 ^ exponent`. -/
def residueOf (mantissa : Nat) (exponent : Int) : Nat :=
  mantissa * Nat.pow 2 (exponent.emod 61).toNat % residueModulus

/-- A residue with the sign of its number; -1 gives way to -2. -/
def signedResidue (negative : Bool) (residue : Nat) : Int :=
  if !negative then residue else if residue = 1 then -2 else -(residue : Int)

/-- The signed residue of a number; other values and what is not a number have none. -/
def signedResidue? (value : Value) : Option Int :=
  match value.numeric? with
  | some (.whole number) => some (signedResidue (number < 0) (residueOf number.natAbs 0))
  | some (.real (.finite negative mantissa exponent)) =>
    some (signedResidue negative (residueOf mantissa exponent))
  | some (.real (.infinite negative)) => some (if negative then -314159 else 314159)
  | _ => none

def slotCount (members : Nat) : Nat :=
  if members < 5 then 8 else Nat.pow 2 ((2 * members).log2 + 1)

/-- Finds a free slot. From a slot that leaves room for it, the nine slots behind are tried as well;
then the sequence goes on, stirred by the rest of the residue. The first argument bounds the number
of rounds. -/
def findSlot (table : Array (Option Value)) : Nat → Nat → Nat → Nat
  | 0, slot, _ => slot
  | rounds + 1, slot, rest =>
    let reach := if slot + 9 < table.size then 10 else 1
    match (List.range reach).find? fun ahead => (table[slot + ahead]?).join.isNone with
    | some ahead => slot + ahead
    | none => findSlot table rounds ((5 * slot + 1 + rest / 32) % table.size) (rest / 32)

/-- Puts a member with its residue into a table. -/
def intoTable (table : Array (Option Value)) (member : Value × Int) : Array (Option Value) :=
  let rest := (member.2.emod 0x10000000000000000).toNat
  table.setIfInBounds (findSlot table (table.size + 16) (rest % table.size) rest) (some member.1)

/-- The members of a set in the order in which they are shown. -/
def inSetOrder (members : List Value) : List Value :=
  match members.mapM signedResidue? with
  | none => members
  | some residues =>
    let table := Array.replicate (slotCount members.length) none
    ((members.zip residues).foldl intoTable table).toList.filterMap id

def setOf (members : List Value) : Value :=
  .set (inSetOrder members)

end IntentModel.Value
