import IntentModel.Value

/-! # Equality of values can be computed

Whether two values are the same value, part by part, can be computed. This is not the comparison of keys:
an integer and a floating-point number are different values, and so are mappings whose entries stand in
different orders.
-/

namespace IntentModel.Value

mutual

def agrees : Value → Value → Bool
  | null, null => true
  | bool a, bool b => a == b
  | int a, int b => a == b
  | float a, float b => decide (a = b)
  | text a, text b => a == b
  | date a, date b => decide (a = b)
  | moment a, moment b => decide (a = b)
  | bytes a, bytes b => a == b
  | list items, list others => agreeItems items others
  | tuple items, tuple others => agreeItems items others
  | set items, set others => agreeItems items others
  | map entries, map others => agreeEntries entries others
  | tangle cells form place, tangle others shape spot =>
    agreeCells cells others && form == shape && place == spot
  | link form place, link shape spot => form == shape && place == spot
  | _, _ => false

def agreeItems : List Value → List Value → Bool
  | [], [] => true
  | a :: items, b :: others => agrees a b && agreeItems items others
  | _, _ => false

/-- Whether two mappings have the same entries in the same order. -/
def agreeEntries : List (Value × Value) → List (Value × Value) → Bool
  | [], [] => true
  | (key, item) :: entries, (other, found) :: others =>
    agrees key other && agrees item found && agreeEntries entries others
  | _, _ => false

/-- Whether the same values stand at the same places. -/
def agreeCells : List (Nat × Value) → List (Nat × Value) → Bool
  | [], [] => true
  | (place, cell) :: cells, (spot, other) :: others =>
    place == spot && agrees cell other && agreeCells cells others
  | _, _ => false

end

mutual

theorem agrees_iff : ∀ a b : Value, agrees a b = true ↔ a = b := by
  intro a b
  cases a with
  | list items =>
    cases b with
    | list others => simpa [agrees] using agreeItems_iff items others
    | _ => simp [agrees]
  | tuple items =>
    cases b with
    | tuple others => simpa [agrees] using agreeItems_iff items others
    | _ => simp [agrees]
  | set items =>
    cases b with
    | set others => simpa [agrees] using agreeItems_iff items others
    | _ => simp [agrees]
  | map entries =>
    cases b with
    | map others => simpa [agrees] using agreeEntries_iff entries others
    | _ => simp [agrees]
  | tangle cells form place =>
    cases b with
    | tangle others shape spot =>
      simpa [agrees, and_assoc] using fun _ _ => agreeCells_iff cells others
    | _ => simp [agrees]
  | _ => cases b <;> simp [agrees]

theorem agreeItems_iff : ∀ items others : List Value,
    agreeItems items others = true ↔ items = others
  | [], [] => by simp [agreeItems]
  | [], _ :: _ => by simp [agreeItems]
  | _ :: _, [] => by simp [agreeItems]
  | a :: items, b :: others => by
    simp [agreeItems, agrees_iff a b, agreeItems_iff items others]

theorem agreeEntries_iff : ∀ entries others : List (Value × Value),
    agreeEntries entries others = true ↔ entries = others
  | [], [] => by simp [agreeEntries]
  | [], _ :: _ => by simp [agreeEntries]
  | _ :: _, [] => by simp [agreeEntries]
  | (key, item) :: entries, (other, found) :: others => by
    simp [agreeEntries, agrees_iff key other, agrees_iff item found,
      agreeEntries_iff entries others, and_assoc]

theorem agreeCells_iff : ∀ cells others : List (Nat × Value),
    agreeCells cells others = true ↔ cells = others
  | [], [] => by simp [agreeCells]
  | [], _ :: _ => by simp [agreeCells]
  | _ :: _, [] => by simp [agreeCells]
  | (place, cell) :: cells, (spot, other) :: others => by
    simp [agreeCells, agrees_iff cell other, agreeCells_iff cells others, and_assoc]

end

instance : DecidableEq Value :=
  fun a b => decidable_of_iff _ (agrees_iff a b)

end IntentModel.Value
