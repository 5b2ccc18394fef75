import IntentModel.Proofs.Number.Binary64
import IntentModel.Proofs.Upsert
import IntentModel.Value

/-! # Keys

Keys are compared by what they stand for, so that an integer, a floating-point number and a truth value
can be one key. Among keys whose numbers are reduced this is symmetric and transitive
(`coherent_keys`). It is reflexive but for the outcome that is not a number, which equals itself only where
it is the constant (`same_self`).
-/

namespace IntentModel

namespace Binary64

variable {a b c : Binary64}

theorem same_iff :
    a.same b = true ↔ (a = b ∧ a ≠ .nan false) ∨ (a.isZero = true ∧ b.isZero = true) := by
  simp [same]

theorem same_symm (equal : a.same b = true) : b.same a = true := by
  rw [same_iff] at equal ⊢
  rcases equal with ⟨rfl, number⟩ | ⟨left, right⟩
  · exact .inl ⟨rfl, number⟩
  · exact .inr ⟨right, left⟩

theorem same_trans (first : a.same b = true) (second : b.same c = true) : a.same c = true := by
  rw [same_iff] at first
  rcases first with ⟨rfl, -⟩ | ⟨left, middle⟩
  · exact second
  · rw [same_iff] at second ⊢
    rcases second with ⟨rfl, -⟩ | ⟨-, right⟩
    · exact .inr ⟨left, middle⟩
    · exact .inr ⟨left, right⟩

theorem toInt?_of_isZero (zero : a.isZero = true) : a.toInt? = some 0 := by
  cases a with
  | nan constant => cases zero
  | infinite negative => cases zero
  | finite negative mantissa exponent =>
    cases mantissa with
    | succ mantissa => cases zero
    | zero =>
      have empty : (magnitude 0 exponent).1 = 0 := by
        cases exponent with
        | ofNat e => exact Nat.zero_mul _
        | negSucc e => rfl
      simp [toInt?, empty]

theorem toInt?_congr (equal : a.same b = true) : a.toInt? = b.toInt? := by
  rw [same_iff] at equal
  rcases equal with ⟨rfl, -⟩ | ⟨left, right⟩
  · rfl
  · rw [toInt?_of_isZero left, toInt?_of_isZero right]

end Binary64

namespace Moment

variable {a b c : Moment}

theorem same_self (time : Moment) : time.same time = true := by
  unfold same
  cases time.offset <;> simp

theorem same_symm (equal : a.same b = true) : b.same a = true := by
  unfold same at equal ⊢
  cases first : a.offset <;> cases second : b.offset <;> simp_all

theorem same_trans (first : a.same b = true) (second : b.same c = true) : a.same c = true := by
  unfold same at first second ⊢
  cases left : a.offset <;> cases middle : b.offset <;> cases right : c.offset <;> simp_all

end Moment

namespace Value

def Numeric.IsReduced : Numeric → Prop
  | .whole _ => True
  | .real number => number.IsReduced

namespace Numeric

variable {a b c : Numeric}

theorem same_symm (equal : a.same b = true) : b.same a = true := by
  cases a with
  | whole n =>
    cases b with
    | whole m =>
      rw [Numeric.same, beq_iff_eq] at equal ⊢
      exact equal.symm
    | real y => exact equal
  | real x =>
    cases b with
    | whole m => exact equal
    | real y => exact Binary64.same_symm equal

theorem same_trans (left : a.IsReduced) (right : c.IsReduced) (first : a.same b = true)
    (second : b.same c = true) : a.same c = true := by
  cases a with
  | whole n =>
    cases b with
    | whole m =>
      obtain rfl : n = m := by simpa [Numeric.same] using first
      exact second
    | real y =>
      have value : y.toInt? = some n := by simpa [Numeric.same] using first
      cases c with
      | whole k =>
        have other : y.toInt? = some k := by simpa [Numeric.same] using second
        simpa [Numeric.same] using value.symm.trans other
      | real z =>
        have equal : y.toInt? = z.toInt? := Binary64.toInt?_congr second
        simpa [Numeric.same] using equal.symm.trans value
  | real x =>
    cases b with
    | whole m =>
      have value : x.toInt? = some m := by simpa [Numeric.same] using first
      cases c with
      | whole k =>
        obtain rfl : m = k := by simpa [Numeric.same] using second
        exact first
      | real z =>
        have other : z.toInt? = some m := by simpa [Numeric.same] using second
        exact Binary64.same_of_toInt? left right value other
    | real y =>
      have equal : x.toInt? = y.toInt? := Binary64.toInt?_congr first
      cases c with
      | whole k =>
        have other : y.toInt? = some k := by simpa [Numeric.same] using second
        simpa [Numeric.same] using equal.trans other
      | real z => exact Binary64.same_trans first second

end Numeric

/-- The key is no collection, and its number is reduced if it is one. -/
def IsPlainKey : Value → Prop
  | .float number => number.IsReduced
  | .list _ => False
  | .tuple _ => False
  | .set _ => False
  | .map _ => False
  | .tangle .. => False
  | .link .. => False
  | _ => True

variable {a b c : Value}

theorem same_of_numeric? {x : Numeric} (number : a.numeric? = some x) (b : Value) :
    a.same b = match b.numeric? with
      | some y => x.same y
      | none => false := by
  cases a <;> cases number <;> cases b <;> rfl

theorem IsPlainKey.isReduced {x : Numeric} (plain : a.IsPlainKey) (number : a.numeric? = some x) :
    x.IsReduced := by
  cases a <;> cases number <;> exact plain

theorem numeric_of_same {x : Numeric} (number : a.numeric? = some x) (equal : a.same b = true) :
    ∃ y, b.numeric? = some y ∧ x.same y = true := by
  rw [same_of_numeric? number] at equal
  cases other : b.numeric? with
  | none =>
    rw [other] at equal
    cases equal
  | some y =>
    rw [other] at equal
    exact ⟨y, rfl, equal⟩

/-- The key is equal to nothing but itself. -/
def IsExactKey : Value → Prop
  | .null => True
  | .text _ => True
  | .date _ => True
  | .bytes _ => True
  | _ => False

theorem IsExactKey.same_iff (exact : a.IsExactKey) : a.same b = true ↔ a = b := by
  cases a <;> cases exact <;> cases b <;> simp [same, numeric?]

theorem moment_of_same {time : Moment} (equal : (moment time).same b = true) :
    ∃ other, b = moment other ∧ time.same other = true := by
  cases b with
  | moment other => exact ⟨other, rfl, equal⟩
  | _ => cases equal

/-- A plain key is exact, a moment or a number. -/
theorem IsPlainKey.cases (plain : a.IsPlainKey) :
    a.IsExactKey ∨ (∃ time, a = moment time) ∨ ∃ x, a.numeric? = some x := by
  cases a with
  | bool truth => exact .inr (.inr ⟨_, rfl⟩)
  | int number => exact .inr (.inr ⟨_, rfl⟩)
  | float number => exact .inr (.inr ⟨_, rfl⟩)
  | moment time => exact .inr (.inl ⟨time, rfl⟩)
  | list items => cases plain
  | tuple items => cases plain
  | set items => cases plain
  | map entries => cases plain
  | tangle cells form place => cases plain
  | link form place => cases plain
  | _ => exact .inl trivial

theorem same_symm (plain : a.IsPlainKey) (equal : a.same b = true) : b.same a = true := by
  rcases plain.cases with exact | ⟨time, rfl⟩ | ⟨x, number⟩
  · obtain rfl := exact.same_iff.mp equal
    exact equal
  · obtain ⟨other, rfl, same⟩ := moment_of_same equal
    exact Moment.same_symm same
  · obtain ⟨y, other, same⟩ := numeric_of_same number equal
    rw [same_of_numeric? other, number]
    exact Numeric.same_symm same

theorem same_trans (left : a.IsPlainKey) (right : c.IsPlainKey) (first : a.same b = true)
    (second : b.same c = true) : a.same c = true := by
  rcases left.cases with exact | ⟨time, rfl⟩ | ⟨x, number⟩
  · obtain rfl := exact.same_iff.mp first
    exact second
  · obtain ⟨middle, rfl, before⟩ := moment_of_same first
    obtain ⟨last, rfl, after⟩ := moment_of_same second
    exact Moment.same_trans before after
  · obtain ⟨y, middle, before⟩ := numeric_of_same number first
    obtain ⟨z, last, after⟩ := numeric_of_same middle second
    rw [same_of_numeric? number, last]
    exact Numeric.same_trans (left.isReduced number) (right.isReduced last) before after

/-- Every plain key is equal to itself, but for an outcome that is not a number and no constant. -/
theorem same_self (plain : a.IsPlainKey) (number : a ≠ .float (.nan false)) : a.same a = true := by
  cases a with
  | null => rfl
  | bool truth => exact beq_self_eq_true _
  | int number => exact beq_self_eq_true _
  | float own => exact Binary64.same_iff.mpr (.inl ⟨rfl, fun same => number (congrArg float same)⟩)
  | text content => exact beq_self_eq_true _
  | date day => exact beq_self_eq_true _
  | moment time => exact Moment.same_self time
  | bytes content => exact beq_self_eq_true _
  | list items => cases plain
  | tuple items => cases plain
  | set items => cases plain
  | map entries => cases plain
  | tangle cells form place => cases plain
  | link form place => cases plain

/-- Rows with plain keys are compared coherently. -/
theorem coherent_keys {α : Type} {name : α → Value} {rows : List α}
    (plain : ∀ row ∈ rows, (name row).IsPlainKey) :
    Coherent (fun a b => (name a).same (name b)) rows where
  symm a first _ _ equal := same_symm (plain a first) equal
  trans a first _ _ c third before after := same_trans (plain a first) (plain c third) before after

end Value
end IntentModel
