import IntentModel.Text.CodePoint
import Mathlib.Tactic.SplitIfs

/-! # Code points and their numbers

Every number below 0x110000 is the number of one code point (`CodePoint.toNat_ofNat`,
`CodePoint.ofNat_toNat`).
-/

namespace IntentModel.CodePoint

@[simp]
theorem toNat_char (c : Char) : (char c).toNat = c.toNat :=
  rfl

/-- The numbers of the surrogates are left out by the characters. -/
theorem toNat_valid (c : Char) : c.toNat < 0xD800 ∨ 0xDFFF < c.toNat ∧ c.toNat < 0x110000 :=
  c.valid

theorem ofNat_toNat (c : CodePoint) : ofNat c.toNat = c := by
  cases c with
  | char c =>
    have valid := toNat_valid c
    rw [ofNat, toNat_char, dif_neg (by omega)]
    exact congrArg char (Char.ofNat_toNat c)
  | surrogate index =>
    have bound := index.isLt
    rw [ofNat, toNat, dif_pos (by omega)]
    simp

theorem toNat_ofNat {n : Nat} (bound : n < 0x110000) : (ofNat n).toNat = n := by
  rw [ofNat]
  split_ifs with inside
  · simp only [toNat]
    omega
  · have valid : n.isValidChar := by
      rw [Nat.isValidChar]
      omega
    rw [toNat, Char.ofNat, dif_pos valid]
    rfl

/-- Lowering changes the letters A to Z only. -/
theorem toLower_eq_self_or (c : CodePoint) : c.toLower = c ∨ 0x41 ≤ c.toNat ∧ c.toNat ≤ 0x5A := by
  cases c with
  | surrogate index => exact .inl rfl
  | char c =>
    by_cases capital : c.val ≥ 'A'.val ∧ c.val ≤ 'Z'.val
    · exact .inr capital
    · exact .inl (congrArg char (dif_neg capital))

end IntentModel.CodePoint
