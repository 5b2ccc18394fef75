import IntentModel.Text

/-! # Substitution from the left

Substitution reads a text once. What is not found is kept, what is found gives way to its
replacement, and neither the replacement nor the found characters are read again. Where nothing is
found across a seam, two texts are substituted each for itself (`substitute_append_seam`).
-/

namespace IntentModel.Text

variable {found? : Text → Option (Nat × Text)}

theorem substituteFrom_skip (found? : Text → Option (Nat × Text)) (gone rest : Text) :
    substituteFrom found? gone.length (gone ++ rest) = substitute found? rest := by
  induction gone with
  | nil => rfl
  | cons c gone ih => simpa only [List.cons_append, List.length_cons, substituteFrom] using ih

/-- What is found gives way to its replacement. -/
theorem substitute_found {gone rest replacement : Text} (present : gone ≠ [])
    (found : found? (gone ++ rest) = some (gone.length, replacement)) :
    substitute found? (gone ++ rest) = replacement ++ substitute found? rest := by
  obtain ⟨c, gone, rfl⟩ := List.exists_cons_of_ne_nil present
  rw [List.cons_append] at found ⊢
  rw [substitute, substituteFrom, found]
  exact congrArg (replacement ++ ·) (substituteFrom_skip found? gone rest)

theorem substitute_cons_kept {c : CodePoint} {text : Text} (nothing : found? (c :: text) = none) :
    substitute found? (c :: text) = c :: substitute found? text := by
  rw [substitute, substituteFrom, nothing]
  rfl

/-- A stretch in which nothing is found is kept. -/
theorem substitute_append_kept {kept rest : Text}
    (nothing : ∀ before c behind, kept = before ++ c :: behind →
      found? (c :: behind ++ rest) = none) :
    substitute found? (kept ++ rest) = kept ++ substitute found? rest := by
  induction kept with
  | nil => rfl
  | cons c kept ih =>
    have first : found? (c :: (kept ++ rest)) = none := nothing [] c kept rfl
    rw [List.cons_append, substitute_cons_kept first, List.cons_append, ih]
    intro before d behind split
    exact nothing (c :: before) d behind (by rw [split, List.cons_append])

/-- Where the second text is out of reach of what is found in the first, each is substituted for
itself. -/
theorem substitute_append_seam {rest : Text}
    (seam : ∀ c text, found? (c :: text ++ rest) = found? (c :: text))
    (inside : ∀ text length replacement, found? text = some (length, replacement) →
      length ≤ text.length)
    (text : Text) :
    substitute found? (text ++ rest) = substitute found? text ++ substitute found? rest := by
  suffices general : ∀ skip ≤ text.length,
      substituteFrom found? skip (text ++ rest) =
        substituteFrom found? skip text ++ substitute found? rest from general 0 (Nat.zero_le _)
  induction text with
  | nil =>
    intro skip bound
    obtain rfl : skip = 0 := by simpa using bound
    rfl
  | cons c text ih =>
    intro skip bound
    cases skip with
    | succ skip => exact ih skip (by simpa using bound)
    | zero =>
      have same := seam c text
      rw [List.cons_append] at same
      rw [List.cons_append, substituteFrom, substituteFrom, same]
      cases found : found? (c :: text) with
      | none => simp only [ih 0 (Nat.zero_le _), List.cons_append]
      | some result =>
        obtain ⟨length, replacement⟩ := result
        have fits := inside _ _ _ found
        rw [List.length_cons] at fits
        simp only [ih (length - 1) (by omega), List.append_assoc]

end IntentModel.Text
