import IntentModel.Corpus.Shape

/-! # Flags

A flag of a phrase list is written as a truth value, as one of the words for it or as the number one or zero,
and stands for one truth value at most (`flag?_eq_some_iff`).
-/

namespace IntentModel

namespace Value

/-- The words for a truth value. -/
def flagWords : Bool → List Text
  | true => ["1", "on", "t", "true", "y", "yes"]
  | false => ["0", "off", "f", "false", "n", "no"]

/-- Whether a value stands for a truth value: it is that value, the number one or zero, or one of the words
in letters of any case. -/
def standsFor (truth : Bool) : Value → Bool
  | .bool own => own == truth
  | .int number => number == if truth then 1 else 0
  | .float number => number.toInt? == some (if truth then 1 else 0)
  | .text word => (flagWords truth).contains (Text.lowerAscii word)
  | .bytes word =>
    (flagWords truth).contains (Text.lowerAscii (word.map fun byte => CodePoint.ofNat byte.toNat))
  | _ => false

/-- No word stands for both truth values. -/
theorem not_both_words {word : Text} (yes : word ∈ flagWords true) (no : word ∈ flagWords false) :
    False := by
  revert word
  decide

/-- The outcome of two tests of which at most one succeeds. -/
theorem tests_eq_some_iff {yes no : Bool} (apart : ¬(yes = true ∧ no = true)) (truth : Bool) :
    (if yes then some true else if no then some false else none) = some truth ↔
      (if truth then yes else no) = true := by
  revert yes no truth
  decide

theorem ofWord_eq_some_iff {word : Text} {truth : Bool} :
    flag?.ofWord word = some truth ↔ (flagWords truth).contains (Text.lowerAscii word) = true := by
  have apart : ¬((flagWords true).contains (Text.lowerAscii word) = true ∧
      (flagWords false).contains (Text.lowerAscii word) = true) := by
    intro ⟨yes, no⟩
    exact not_both_words (List.contains_iff_mem.mp yes) (List.contains_iff_mem.mp no)
  refine (tests_eq_some_iff apart truth).trans ?_
  cases truth <;> rfl

theorem flag?_eq_some_iff {value : Value} {truth : Bool} :
    value.flag? = some truth ↔ value.standsFor truth = true := by
  cases value with
  | bool own => cases own <;> cases truth <;> decide
  | text word => exact ofWord_eq_some_iff
  | bytes word => exact ofWord_eq_some_iff
  | int number =>
    have apart : ¬((number == 1) = true ∧ (number == 0) = true) := by
      intro ⟨one, zero⟩
      rw [beq_iff_eq] at one zero
      omega
    refine (tests_eq_some_iff apart truth).trans ?_
    cases truth <;> rfl
  | float number =>
    have apart : ¬((number.toInt? == some 1) = true ∧ (number.toInt? == some 0) = true) := by
      intro ⟨one, zero⟩
      rw [beq_iff_eq] at one zero
      cases one.symm.trans zero
    refine (tests_eq_some_iff apart truth).trans ?_
    cases truth <;> rfl
  | _ => cases truth <;> simp [flag?, standsFor, same, numeric?]

/-- A flag is read as the one truth value that it stands for. -/
theorem flag?_eq_some_standsFor {value : Value} {truth : Bool}
    (flag : value.standsFor truth = true) : value.flag? = some (value.standsFor true) := by
  cases truth with
  | true => rw [flag?_eq_some_iff.mpr flag, flag]
  | false =>
    have found := flag?_eq_some_iff.mpr flag
    cases other : value.standsFor true with
    | false => exact found
    | true => cases found.symm.trans (flag?_eq_some_iff.mpr other)

end Value

end IntentModel
