import IntentModel.Number.Binary64
import Mathlib.Algebra.Order.Field.Power
import Mathlib.Data.Rat.Cast.Order
import Mathlib.Tactic.Linarith
import Mathlib.Tactic.NormNum
import Mathlib.Tactic.Positivity
import Mathlib.Tactic.Ring

/-! # The reduced form of numbers

A finite number has many forms as a mantissa and a power of two, and one of them is reduced: the mantissa
fills the format unless the exponent is the least one. Rounding gives reduced numbers only
(`isReduced_ofRatio`), and so does all arithmetic and reading, which ends in it. Between reduced numbers
equality of value is equality of form, up to the sign of zero (`same_of_toInt?`).
-/

namespace IntentModel.Binary64

/-- The mantissa of a finite number fills the format, or its exponent is the least one. -/
def IsReduced : Binary64 → Prop
  | .finite _ mantissa exponent =>
    mantissa < 2 * leastFull ∧ -1074 ≤ exponent ∧ (mantissa < leastFull → exponent = -1074)
  | _ => True

/-! ## Rounding -/

theorem scale_pos (num : Nat) {den : Nat} (exponent : Int) (pos : 0 < den) :
    0 < (scale num den exponent).2 := by
  cases exponent with
  | ofNat e => exact Nat.mul_pos pos (Nat.pow_pos (by omega))
  | negSucc e => exact pos

/-- Scaling divides by a power of two. -/
theorem scale_eq (num den : Nat) (exponent : Int) :
    ((scale num den exponent).1 : ℚ) / (scale num den exponent).2 =
      (num : ℚ) / den / 2 ^ exponent := by
  cases exponent with
  | ofNat e =>
    simp only [scale, Int.ofNat_eq_natCast, zpow_natCast]
    push_cast
    rw [div_div]
    norm_num
  | negSucc e =>
    simp only [scale, zpow_negSucc]
    push_cast
    rw [div_inv_eq_mul, div_mul_eq_mul_div]
    norm_num

/-- The whole part of a scaled fraction is below a bound when the fraction is. -/
theorem scale_div_lt_iff (num bound : Nat) {den : Nat} (exponent : Int) (pos : 0 < den) :
    (scale num den exponent).1 / (scale num den exponent).2 < bound ↔
      (num : ℚ) / den / 2 ^ exponent < bound := by
  have positive := scale_pos num exponent pos
  have real : (0 : ℚ) < (scale num den exponent).2 := by exact_mod_cast positive
  rw [← scale_eq, Nat.div_lt_iff_lt_mul positive, div_lt_iff₀ real]
  norm_cast

theorem guess_bounds {num den : Nat} (some : num ≠ 0) (pos : 0 < den) :
    (2 : ℚ) ^ (51 : Int) < (num : ℚ) / den / 2 ^ ((num.log2 : Int) - (den.log2 : Int) - 52) ∧
      (num : ℚ) / den / 2 ^ ((num.log2 : Int) - (den.log2 : Int) - 52) < (2 : ℚ) ^ (53 : Int) := by
  set a : Int := (num.log2 : Int) with aDef
  set b : Int := (den.log2 : Int) with bDef
  have two : (2 : ℚ) ≠ 0 := by norm_num
  have numLow : (2 : ℚ) ^ a ≤ num := by
    rw [aDef, zpow_natCast]
    exact_mod_cast Nat.log2_self_le some
  have numHigh : (num : ℚ) < 2 ^ (a + 1) := by
    rw [aDef, ← Nat.cast_succ, zpow_natCast]
    exact_mod_cast Nat.lt_log2_self
  have denLow : (2 : ℚ) ^ b ≤ den := by
    rw [bDef, zpow_natCast]
    exact_mod_cast Nat.log2_self_le (by omega)
  have denHigh : (den : ℚ) < 2 ^ (b + 1) := by
    rw [bDef, ← Nat.cast_succ, zpow_natCast]
    exact_mod_cast Nat.lt_log2_self
  have denPos : (0 : ℚ) < den := by exact_mod_cast pos
  have numPos : (0 : ℚ) < num := by exact_mod_cast Nat.pos_of_ne_zero some
  have unit : (0 : ℚ) < 2 ^ (a - b - 52) := by positivity
  constructor
  · calc (2 : ℚ) ^ (51 : Int) = 2 ^ a / 2 ^ (b + 1) / 2 ^ (a - b - 52) := by
          rw [← zpow_sub₀ two, ← zpow_sub₀ two]
          congr 1
          ring
      _ < num / den / 2 ^ (a - b - 52) :=
          div_lt_div_of_pos_right (div_lt_div₀' numLow denHigh numPos denPos) unit
  · calc (num : ℚ) / den / 2 ^ (a - b - 52) < 2 ^ (a + 1) / 2 ^ b / 2 ^ (a - b - 52) :=
          div_lt_div_of_pos_right (div_lt_div₀ numHigh denLow (by positivity) (by positivity)) unit
      _ = (2 : ℚ) ^ (53 : Int) := by
          rw [← zpow_sub₀ two, ← zpow_sub₀ two]
          congr 1
          ring

theorem leastFull_eq : (leastFull : ℚ) = 2 ^ (52 : Int) := by
  norm_num [leastFull]

/-- Before it is kept from falling below the least one, the exponent makes the mantissa fill the
format. -/
theorem exists_exponent {num den : Nat} (some : num ≠ 0) (pos : 0 < den) :
    ∃ exponent, exponentFor num den = max exponent (-1074) ∧
      (leastFull : ℚ) ≤ (num : ℚ) / den / 2 ^ exponent ∧
      (num : ℚ) / den / 2 ^ exponent < 2 * leastFull := by
  obtain ⟨lower, upper⟩ := guess_bounds some pos
  have small := scale_div_lt_iff num leastFull ((num.log2 : Int) - (den.log2 : Int) - 52) pos
  rw [exponentFor]
  set guess : Int := (num.log2 : Int) - (den.log2 : Int) - 52
  rw [leastFull_eq] at small ⊢
  by_cases below : (scale num den guess).1 / (scale num den guess).2 < leastFull
  · refine ⟨guess - 1, by simp only [below, if_true], ?_⟩
    have half : (num : ℚ) / den / 2 ^ (guess - 1) = 2 * ((num : ℚ) / den / 2 ^ guess) := by
      rw [zpow_sub_one₀ (by norm_num), ← div_div, div_inv_eq_mul]
      ring
    have bound := small.mp below
    rw [half]
    norm_num at lower bound ⊢
    constructor <;> linarith
  · refine ⟨guess, by simp only [below, if_false], ?_⟩
    have bound := mt small.mpr below
    norm_num at upper bound ⊢
    constructor <;> linarith

/-- At its exponent a fraction lies below twice the least full mantissa, and not below that mantissa
unless the exponent is the least one. -/
theorem exponentFor_spec {num den : Nat} (some : num ≠ 0) (pos : 0 < den) :
    -1074 ≤ exponentFor num den ∧
      (num : ℚ) / den / 2 ^ exponentFor num den < 2 * leastFull ∧
      (-1074 < exponentFor num den →
        (leastFull : ℚ) ≤ (num : ℚ) / den / 2 ^ exponentFor num den) := by
  obtain ⟨exponent, chosen, lower, upper⟩ := exists_exponent some pos
  rw [chosen]
  rcases le_or_gt (-1074) exponent with fits | falls
  · rw [max_eq_left fits]
    exact ⟨fits, upper, fun _ => lower⟩
  · rw [max_eq_right falls.le]
    refine ⟨le_rfl, lt_of_le_of_lt ?_ upper, fun above => absurd above (lt_irrefl _)⟩
    have powers : (2 : ℚ) ^ exponent ≤ 2 ^ (-1074 : Int) :=
      zpow_le_zpow_right₀ (by norm_num) falls.le
    apply div_le_div_of_nonneg_left (by positivity) (by positivity) powers

theorem roundHalfEven_bounds (num den : Nat) :
    num / den ≤ roundHalfEven num den ∧ roundHalfEven num den ≤ num / den + 1 := by
  simp only [roundHalfEven]
  split_ifs <;> omega

/-- What is rounded to the format is reduced. -/
theorem isReduced_ofRatio (negative : Bool) (num : Nat) {den : Nat} (pos : 0 < den) :
    (ofRatio negative num den).IsReduced := by
  rw [ofRatio]
  split_ifs with zero
  · exact ⟨by decide, by decide, fun _ => rfl⟩
  · obtain ⟨least, upper, lower⟩ := exponentFor_spec zero pos
    have fits : (scale num den (exponentFor num den)).1 /
        (scale num den (exponentFor num den)).2 < 2 * leastFull := by
      apply (scale_div_lt_iff num (2 * leastFull) _ pos).mpr
      exact_mod_cast upper
    have full : -1074 < exponentFor num den → leastFull ≤
        (scale num den (exponentFor num den)).1 / (scale num den (exponentFor num den)).2 := by
      intro above
      apply Nat.le_of_not_lt
      intro below
      have bound := (scale_div_lt_iff num leastFull _ pos).mp below
      have reached := lower above
      linarith
    obtain ⟨up, down⟩ := roundHalfEven_bounds (scale num den (exponentFor num den)).1
      (scale num den (exponentFor num den)).2
    dsimp only
    split_ifs with carried
    · trivial
    · have above : -1074 ≤ exponentFor num den + 1 := by omega
      exact ⟨(by decide : leastFull < 2 * leastFull), above,
        fun below => absurd below (Nat.lt_irrefl leastFull)⟩
    · trivial
    · refine ⟨by omega, least, fun below => ?_⟩
      by_contra other
      have reached := full (by omega)
      omega

/-! ## Arithmetic and reading -/

theorem isReduced_zero (negative : Bool) : (zero negative).IsReduced :=
  ⟨by decide, by decide, fun _ => rfl⟩

theorem magnitude_pos (mantissa : Nat) (exponent : Int) : 0 < (magnitude mantissa exponent).2 := by
  cases exponent with
  | ofNat e => exact Nat.zero_lt_one
  | negSucc e => exact Nat.pow_pos (by omega)

theorem IsReduced.negate {number : Binary64} (reduced : number.IsReduced) :
    number.negate.IsReduced := by
  cases number with
  | nan constant => trivial
  | infinite negative => trivial
  | finite negative mantissa exponent => exact reduced

theorem isReduced_add (a b : Binary64) : (a.add b).IsReduced := by
  cases a with
  | nan constant => trivial
  | infinite s =>
    cases b with
    | nan constant => trivial
    | infinite t =>
      simp only [add]
      split_ifs <;> trivial
    | finite t n f => trivial
  | finite s m e =>
    cases b with
    | nan constant => trivial
    | infinite t => trivial
    | finite t n f =>
      exact isReduced_ofRatio _ _ (Nat.mul_pos (magnitude_pos m e) (magnitude_pos n f))

theorem isReduced_ofDecimal (negative : Bool) (coefficient : Nat) (exponent : Int) :
    (ofDecimal negative coefficient exponent).IsReduced := by
  unfold ofDecimal
  split_ifs
  · exact isReduced_zero negative
  · trivial
  · exact isReduced_zero negative
  · cases exponent with
    | ofNat e => exact isReduced_ofRatio _ _ Nat.zero_lt_one
    | negSucc e => exact isReduced_ofRatio _ _ (Nat.pow_pos (by omega))

theorem isReduced_of_ofUnsigned? {negative : Bool} {text : Text} {number : Binary64}
    (read : ofUnsigned? negative text = some number) : number.IsReduced := by
  rw [ofUnsigned?] at read
  dsimp only at read
  split at read
  · cases read
    exact isReduced_ofDecimal _ _ _
  · cases read

theorem isReduced_of_ofText? {text : Text} {number : Binary64}
    (read : ofText? text = some number) : number.IsReduced := by
  rw [ofText?] at read
  dsimp only at read
  split_ifs at read
  · cases read
    trivial
  · cases read
    trivial
  · obtain ⟨digits, -, own⟩ := Option.bind_eq_some_iff.mp read
    exact isReduced_of_ofUnsigned? own

/-! ## Equality of values -/

theorem magnitude_eq (mantissa : Nat) (exponent : Int) :
    ((magnitude mantissa exponent).1 : ℚ) / (magnitude mantissa exponent).2 =
      mantissa * 2 ^ exponent := by
  cases exponent with
  | ofNat e => simp [magnitude]
  | negSucc e =>
    simp only [magnitude, zpow_negSucc]
    rw [div_eq_mul_inv]
    norm_num

/-- The integer that a finite number equals has the magnitude of the number, and its sign unless it is
zero. -/
theorem of_toInt? {negative : Bool} {mantissa : Nat} {exponent whole : Int}
    (found : (finite negative mantissa exponent).toInt? = some whole) :
    (mantissa : ℚ) * 2 ^ exponent = whole.natAbs ∧ (whole ≠ 0 → negative = decide (whole < 0)) := by
  have positive := magnitude_pos mantissa exponent
  rw [← magnitude_eq]
  simp only [toInt?] at found
  generalize magnitude mantissa exponent = fraction at found positive ⊢
  obtain ⟨num, den⟩ := fraction
  dsimp only at found positive ⊢
  by_cases exact : num % den = 0
  · rw [if_pos exact, Option.some.injEq] at found
    have whole_eq : num = num / den * den := (Nat.div_mul_cancel (Nat.dvd_of_mod_eq_zero exact)).symm
    generalize num / den = quotient at found whole_eq
    have size : whole.natAbs = quotient := by
      rw [← found]
      split_ifs <;> omega
    have ratio : (num : ℚ) / den = quotient := by
      rw [div_eq_iff (by exact_mod_cast positive.ne')]
      exact_mod_cast whole_eq
    refine ⟨by rw [ratio, size], fun some => ?_⟩
    cases negative with
    | true =>
      rw [if_pos rfl] at found
      exact (decide_eq_true (by omega)).symm
    | false =>
      rw [if_neg Bool.false_ne_true] at found
      exact (decide_eq_false (by omega)).symm
  · rw [if_neg exact] at found
    cases found

/-- Of two reduced forms of one value, neither has the lesser exponent. -/
theorem IsReduced.exponent_le {s t : Bool} {m n : Nat} {e f : Int}
    (first : (finite s m e).IsReduced) (second : (finite t n f).IsReduced)
    (equal : (m : ℚ) * 2 ^ e = n * 2 ^ f) : f ≤ e := by
  by_contra below
  have full : leastFull ≤ n := by
    by_contra small
    have least := second.2.2 (by omega)
    have other := first.2.1
    omega
  have twice : (2 : ℚ) * 2 ^ e ≤ 2 ^ f := by
    rw [mul_comm, ← zpow_add_one₀ (by norm_num)]
    exact zpow_le_zpow_right₀ (by norm_num) (by omega)
  have positive : (0 : ℚ) < 2 ^ e := by positivity
  have large : (2 * n : ℚ) * 2 ^ e ≤ m * 2 ^ e := by
    rw [equal]
    calc (2 * n : ℚ) * 2 ^ e = n * (2 * 2 ^ e) := by ring
      _ ≤ n * 2 ^ f := by gcongr
  have bound : 2 * n ≤ m := by exact_mod_cast le_of_mul_le_mul_right large positive
  have small := first.1
  omega

/-- Reduced numbers that equal one integer are the same. -/
theorem same_of_toInt? {a b : Binary64} {whole : Int} (first : a.IsReduced) (second : b.IsReduced)
    (left : a.toInt? = some whole) (right : b.toInt? = some whole) : a.same b = true := by
  cases a with
  | nan constant => cases left
  | infinite negative => cases left
  | finite s m e =>
    cases b with
    | nan constant => cases right
    | infinite negative => cases right
    | finite t n f =>
      obtain ⟨value, sign⟩ := of_toInt? left
      obtain ⟨other, otherSign⟩ := of_toInt? right
      have equal := value.trans other.symm
      by_cases zero : whole = 0
      · have unit : ∀ power : Int, (2 : ℚ) ^ power ≠ 0 := fun power => by positivity
        have emptyLeft : m = 0 := by simpa [zero, unit] using value
        have emptyRight : n = 0 := by simpa [zero, unit] using other
        simp [same, emptyLeft, emptyRight, isZero]
      · have exponents : e = f := le_antisymm (second.exponent_le first equal.symm)
          (first.exponent_le second equal)
        subst exponents
        have mantissas : m = n := by
          exact_mod_cast mul_right_cancel₀ (by positivity : (2 : ℚ) ^ e ≠ 0) equal
        rw [same, sign zero, otherSign zero, mantissas]
        simp

end IntentModel.Binary64
