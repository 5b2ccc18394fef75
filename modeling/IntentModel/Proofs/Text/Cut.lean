import IntentModel.Text
import Mathlib.Data.List.Infix

/-! # Beginnings, ends and cuts

What a search in a text finds, as equations between texts: a text begins with an opening when the
opening and some rest make it up, and it is cut at the first place where the separator stands.
-/

namespace IntentModel.Text

variable {text opening ending separator before behind rest : Text}

theorem after?_eq_some_iff : opening.after? text = some rest ↔ text = opening ++ rest := by
  induction opening generalizing text with
  | nil => simp [after?]
  | cons o opening ih =>
    cases text with
    | nil => simp [after?]
    | cons c text =>
      by_cases same : o = c
      · simp [after?, same, ih]
      · simp [after?, same, Ne.symm same]

theorem beginsWith_iff : text.beginsWith opening = true ↔ opening <+: text := by
  rw [beginsWith, Option.isSome_iff_exists]
  constructor
  · rintro ⟨rest, found⟩
    exact ⟨rest, (after?_eq_some_iff.mp found).symm⟩
  · rintro ⟨rest, whole⟩
    exact ⟨rest, after?_eq_some_iff.mpr whole.symm⟩

theorem endsWith_iff : text.endsWith ending = true ↔ ending <:+ text := by
  rw [endsWith, beginsWith_iff, List.reverse_prefix]

/-- The separator stands between the two parts, and nowhere further left. -/
structure FirstCut (text separator before behind : Text) : Prop where
  whole : text = before ++ separator ++ behind
  least : ∀ other rest, text = other ++ separator ++ rest → before.length ≤ other.length

theorem firstCut_of_prefix (rest : Text) : FirstCut (separator ++ rest) separator [] rest :=
  ⟨rfl, fun _ _ _ => Nat.zero_le _⟩

/-- Where the separator does not begin a text, the cut lies behind its first character. -/
theorem firstCut_cons {c : CodePoint} (apart : ¬ separator <+: c :: text) :
    FirstCut (c :: text) separator before behind ↔
      ∃ start, before = c :: start ∧ FirstCut text separator start behind := by
  constructor
  · rintro ⟨whole, least⟩
    cases before with
    | nil => exact absurd ⟨behind, whole.symm⟩ apart
    | cons d start =>
      obtain ⟨rfl, kept⟩ := List.cons.inj whole
      refine ⟨start, rfl, kept, ?_⟩
      intro other rest split
      have bound := least (c :: other) rest (by rw [split]; rfl)
      simpa using bound
  · rintro ⟨start, rfl, whole, least⟩
    refine ⟨by rw [whole]; rfl, ?_⟩
    intro other rest split
    cases other with
    | nil => exact absurd ⟨rest, split.symm⟩ apart
    | cons d other =>
      have bound := least other rest (List.cons.inj split).2
      simpa using bound

theorem cutAt?_eq_some_iff :
    text.cutAt? separator = some (before, behind) ↔ FirstCut text separator before behind := by
  induction text generalizing before with
  | nil =>
    rw [cutAt?, Option.map_eq_some_iff]
    constructor
    · rintro ⟨rest, found, same⟩
      cases same
      exact ⟨after?_eq_some_iff.mp found, fun _ _ _ => Nat.zero_le _⟩
    · rintro ⟨whole, -⟩
      obtain ⟨start, rfl⟩ := List.append_eq_nil_iff.mp whole.symm
      obtain ⟨rfl, rfl⟩ := List.append_eq_nil_iff.mp start
      exact ⟨[], rfl, rfl⟩
  | cons c text ih =>
    rw [cutAt?]
    cases found : separator.after? (c :: text) with
    | some rest =>
      rw [after?_eq_some_iff] at found
      simp only [Option.some.injEq, Prod.mk.injEq]
      constructor
      · rintro ⟨rfl, rfl⟩
        rw [found]
        exact firstCut_of_prefix rest
      · rintro ⟨whole, least⟩
        have start : before.length ≤ 0 := least [] rest found
        obtain rfl : before = [] := List.length_eq_zero_iff.mp (by omega)
        rw [found] at whole
        exact ⟨rfl, List.append_cancel_left whole⟩
    | none =>
      have apart : ¬ separator <+: c :: text := by
        rintro ⟨rest, whole⟩
        rw [after?_eq_some_iff.mpr whole.symm] at found
        cases found
      rw [firstCut_cons apart]
      simp only [Option.map_eq_some_iff, Prod.mk.injEq, Prod.exists]
      constructor
      · rintro ⟨start, rest, cut, rfl, rfl⟩
        exact ⟨start, rfl, ih.mp cut⟩
      · rintro ⟨start, rfl, cut⟩
        exact ⟨start, behind, ih.mpr cut, rfl, rfl⟩

theorem cutAt?_eq_none_iff : text.cutAt? separator = none ↔ ¬ separator <:+: text := by
  induction text with
  | nil =>
    rw [cutAt?, Option.map_eq_none_iff, List.infix_nil]
    cases separator <;> simp [after?]
  | cons c text ih =>
    rw [cutAt?, List.infix_cons_iff]
    cases found : separator.after? (c :: text) with
    | some rest =>
      have begins : separator <+: c :: text := ⟨rest, (after?_eq_some_iff.mp found).symm⟩
      simp [begins]
    | none =>
      have apart : ¬ separator <+: c :: text := by
        rintro ⟨rest, whole⟩
        rw [after?_eq_some_iff.mpr whole.symm] at found
        cases found
      rw [Option.map_eq_none_iff, ih]
      simp [apart]

/-- A text is cut in one way. -/
theorem FirstCut.unique {other : Text} (cut : FirstCut text separator before behind)
    (again : FirstCut text separator other rest) : before = other ∧ behind = rest := by
  have same := (cutAt?_eq_some_iff.mpr cut).symm.trans (cutAt?_eq_some_iff.mpr again)
  cases same
  exact ⟨rfl, rfl⟩

/-- The separator does not stand in front of the cut. -/
theorem FirstCut.not_infix (cut : FirstCut text separator before behind) (written : separator ≠ []) :
    ¬ separator <:+: before := by
  rintro ⟨start, inner, rfl⟩
  have bound := cut.least start (inner ++ separator ++ behind) (by rw [cut.whole]; simp)
  have long := List.length_pos_iff.mpr written
  simp only [List.length_append] at bound
  omega

end IntentModel.Text
