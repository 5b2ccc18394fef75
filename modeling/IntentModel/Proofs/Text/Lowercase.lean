import IntentModel.Proofs.Text.CodePoint
import IntentModel.Text.Lowercase
import Mathlib.Tactic.SplitIfs

/-! # Lower case is final

A text in lower case has no capital left, so lower-casing it again changes nothing (`lower_lower`). What
the table of capitals says is looked up once for each two runs: the lower-case forms of a run lie
apart from the other run, or none of them is a capital of it (`staysClear_capitalRuns`).
-/

namespace IntentModel

namespace CapitalRun

/-- The lower-case form of a capital of the run. -/
def lowered (run : CapitalRun) (n : Nat) : Nat :=
  (n + run.shift).toNat

def capitals (run : CapitalRun) : List Nat :=
  (List.range ((run.last - run.first) / run.stride + 1)).map fun k => run.first + run.stride * k

/-- No lower-case form of the first run is a capital of the second. -/
def staysClear (run other : CapitalRun) : Bool :=
  Nat.blt (run.lowered run.last) other.first || Nat.blt other.last (run.lowered run.first) ||
    run.capitals.all fun n => !other.covers (run.lowered n)

/-- The lower-case forms of the run are code points, and the capital with two of them is not one. -/
def staysInside (run : CapitalRun) : Bool :=
  (Nat.blt (run.lowered run.last) 0x130 || Nat.blt 0x130 (run.lowered run.first)) &&
    Nat.blt (run.lowered run.last) 0x110000

variable {run : CapitalRun} {n : Nat}

theorem le_and_le (covered : run.covers n = true) : run.first ≤ n ∧ n ≤ run.last := by
  simp only [covers, Bool.and_eq_true, decide_eq_true_eq] at covered
  exact covered.1

theorem mem_capitals (covered : run.covers n = true) : n ∈ run.capitals := by
  simp only [covers, Bool.and_eq_true, decide_eq_true_eq, beq_iff_eq] at covered
  obtain ⟨⟨least, most⟩, onStride⟩ := covered
  have split := Nat.div_add_mod (n - run.first) run.stride
  have fits : (n - run.first) / run.stride ≤ (run.last - run.first) / run.stride :=
    Nat.div_le_div_right (by omega)
  refine List.mem_map.mpr ⟨(n - run.first) / run.stride, List.mem_range.mpr (by omega), ?_⟩
  omega

theorem lowered_between (covered : run.covers n = true) :
    run.lowered run.first ≤ run.lowered n ∧ run.lowered n ≤ run.lowered run.last := by
  obtain ⟨least, most⟩ := le_and_le covered
  simp only [lowered]
  omega

theorem covers_lowered {other : CapitalRun} (clear : run.staysClear other = true)
    (covered : run.covers n = true) : other.covers (run.lowered n) = false := by
  have between := lowered_between covered
  simp only [staysClear, Bool.or_eq_true, Nat.blt_eq, List.all_eq_true, Bool.not_eq_true'] at clear
  rcases clear with (below | above) | each
  · rw [Bool.eq_false_iff]
    intro inside
    have bounds := le_and_le inside
    omega
  · rw [Bool.eq_false_iff]
    intro inside
    have bounds := le_and_le inside
    omega
  · exact each n (mem_capitals covered)

end CapitalRun

theorem staysClear_capitalRuns :
    capitalRuns.all (fun run => capitalRuns.all fun other => run.staysClear other) = true := by
  decide +kernel

theorem staysInside_capitalRuns : capitalRuns.all CapitalRun.staysInside = true := by
  decide +kernel

/-- The character is its own lower case, wherever it stands. -/
def IsLowered (c : CodePoint) : Prop :=
  c ≠ 'Σ' ∧ lowerChar c = [c]

theorem toLower_ascii {c : CodePoint} (ascii : c.toNat < 0x80) :
    c.toLower.toLower = c.toLower ∧ c.toLower.toNat < 0x80 ∧
      (0x41 ≤ c.toNat ∧ c.toNat ≤ 0x5A ∨ c.toLower = c) := by
  have each : ∀ n < 0x80, (CodePoint.ofNat n).toLower.toLower = (CodePoint.ofNat n).toLower ∧
      (CodePoint.ofNat n).toLower.toNat < 0x80 ∧
        (0x41 ≤ n ∧ n ≤ 0x5A ∨ (CodePoint.ofNat n).toLower = CodePoint.ofNat n) := by decide
  simpa only [CodePoint.ofNat_toNat] using each c.toNat ascii

theorem isLowered_of_ascii {c : CodePoint} (ascii : c.toNat < 0x80) (kept : c.toLower = c) :
    IsLowered c := by
  refine ⟨?_, by rw [lowerChar, if_pos ascii, kept]⟩
  rintro rfl
  exact absurd ascii (by decide)

/-- A character that no run of capitals covers is its own lower case. -/
theorem isLowered_of_not_covered {c : CodePoint} (dotted : c ≠ '\u0130')
    (free : ∀ run ∈ capitalRuns, run.covers c.toNat = false) : IsLowered c := by
  by_cases ascii : c.toNat < 0x80
  · have latin := free ⟨0x41, 0x5A, 1, 32⟩ (List.mem_cons_self ..)
    simp [CapitalRun.covers, Nat.mod_one] at latin
    refine isLowered_of_ascii ascii ((toLower_ascii ascii).2.2.resolve_left ?_)
    omega
  · have nowhere : capitalRuns.find? (fun run => run.covers c.toNat) = none :=
      List.find?_eq_none.mpr fun run member => by simp [free run member]
    refine ⟨?_, by rw [lowerChar, if_neg ascii, if_neg (by simpa using dotted), nowhere]⟩
    rintro rfl
    have capital : capitalRuns.any (fun run => run.covers (CodePoint.char 'Σ').toNat) = true := by decide +kernel
    obtain ⟨run, member, covered⟩ := List.any_eq_true.mp capital
    rw [free run member] at covered
    cases covered

/-- What a capital of a run becomes is a code point. -/
theorem CapitalRun.toNat_lowered {run : CapitalRun} {n : Nat} (member : run ∈ capitalRuns)
    (covered : run.covers n = true) : (CodePoint.ofNat (run.lowered n)).toNat = run.lowered n := by
  have inside := List.all_eq_true.mp staysInside_capitalRuns run member
  have between := lowered_between covered
  simp only [staysInside, Bool.and_eq_true, Bool.or_eq_true, Nat.blt_eq] at inside
  exact CodePoint.toNat_ofNat (by omega)

/-- What a capital of a run becomes is its own lower case. -/
theorem CapitalRun.isLowered {run : CapitalRun} {n : Nat} (member : run ∈ capitalRuns)
    (covered : run.covers n = true) : IsLowered (CodePoint.ofNat (run.lowered n)) := by
  have inside := List.all_eq_true.mp staysInside_capitalRuns run member
  have clear := List.all_eq_true.mp staysClear_capitalRuns run member
  have between := lowered_between covered
  have point := toNat_lowered member covered
  simp only [staysInside, Bool.and_eq_true, Bool.or_eq_true, Nat.blt_eq] at inside
  apply isLowered_of_not_covered
  · intro dotted
    have same : run.lowered n = 0x130 := by
      rw [← point, dotted]
      rfl
    omega
  · intro other among
    rw [point]
    exact covers_lowered (List.all_eq_true.mp clear other among) covered

theorem isLowered_of_mem {c d : CodePoint} (small : c ≠ 'Σ') (member : d ∈ lowerChar c) :
    IsLowered d := by
  by_cases ascii : c.toNat < 0x80
  · rw [lowerChar, if_pos ascii, List.mem_singleton] at member
    subst member
    obtain ⟨kept, below, -⟩ := toLower_ascii ascii
    exact isLowered_of_ascii below kept
  · rw [lowerChar, if_neg ascii] at member
    split_ifs at member with dotted
    · rcases List.mem_cons.mp member with rfl | rest
      · exact ⟨by decide, rfl⟩
      · cases List.mem_singleton.mp rest
        exact ⟨by decide, rfl⟩
    · cases found : capitalRuns.find? (fun run => run.covers c.toNat) with
      | none =>
        have own : lowerChar c = [c] := by rw [lowerChar, if_neg ascii, if_neg dotted, found]
        rw [found, List.mem_singleton] at member
        subst member
        exact ⟨small, own⟩
      | some run =>
        rw [found, List.mem_singleton] at member
        subst member
        have covered := List.find?_some found
        exact CapitalRun.isLowered (List.mem_of_find?_eq_some found) covered

namespace Text

theorem isLowered_of_mem_lowerFrom {before text : Text} {d : CodePoint}
    (member : d ∈ lowerFrom before text) : IsLowered d := by
  induction text generalizing before with
  | nil => cases member
  | cons c text ih =>
    rw [lowerFrom] at member
    rcases List.mem_append.mp member with own | later
    · by_cases sigma : c = 'Σ'
      · subst sigma
        rw [if_pos (beq_self_eq_true _)] at own
        split_ifs at own
        · cases List.mem_singleton.mp own
          exact ⟨by decide, rfl⟩
        · cases List.mem_singleton.mp own
          exact ⟨by decide, rfl⟩
      · rw [if_neg (by simpa using sigma)] at own
        exact isLowered_of_mem sigma own
    · exact ih later

theorem lowerFrom_eq_self {before text : Text} (lowered : ∀ c ∈ text, IsLowered c) :
    lowerFrom before text = text := by
  induction text generalizing before with
  | nil => rfl
  | cons c text ih =>
    obtain ⟨⟨small, kept⟩, rest⟩ := List.forall_mem_cons.mp lowered
    rw [lowerFrom, ih rest, if_neg (by simpa using small), kept]
    rfl

/-- Lower-casing a text again changes nothing. -/
theorem lower_lower (text : Text) : text.lower.lower = text.lower :=
  lowerFrom_eq_self fun _ => isLowered_of_mem_lowerFrom

end Text
end IntentModel
