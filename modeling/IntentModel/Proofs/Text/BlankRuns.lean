import IntentModel.Proofs.Text.Joining

/-! # Runs of blanks

A run of blanks parts the text before it from the text behind it, however long it is and whatever blanks it
consists of (`tokens_append_run`). Texts that differ in such runs only are `Interchangeable`: their tokens
are the same in any surroundings, and so are those of texts that are put together from them.

Where a text is cut at a visible character, a run of blanks lies wholly on one side of the cut
(`run_around_visible`).
-/

namespace IntentModel.Text

/-- The text consists of blanks, of one at least. -/
structure IsBlankRun (run : Text) : Prop where
  ne_nil : run ≠ []
  blank : ∀ c ∈ run, isBlank c = true

instance (run : Text) : Decidable (IsBlankRun run) :=
  decidable_of_iff (run ≠ [] ∧ run.all isBlank = true)
    ⟨fun holds => ⟨holds.1, List.all_eq_true.mp holds.2⟩,
      fun blanks => ⟨blanks.ne_nil, List.all_eq_true.mpr blanks.blank⟩⟩

/-- The two texts give the same tokens in any surroundings. -/
def Interchangeable (text other : Text) : Prop :=
  ∀ before behind : Text, tokens (before ++ text ++ behind) = tokens (before ++ other ++ behind)

variable {run other text : Text}

theorem IsBlankRun.length_pos (blanks : IsBlankRun run) : 0 < run.length :=
  List.length_pos_iff.mpr blanks.ne_nil

theorem tokens_append_run (blanks : IsBlankRun run) (before behind : Text) :
    tokens (before ++ run ++ behind) = before.tokens ++ behind.tokens := by
  obtain ⟨c, rest, rfl⟩ := List.exists_cons_of_ne_nil blanks.ne_nil
  obtain ⟨first, others⟩ := List.forall_mem_cons.mp blanks.blank
  rw [List.append_assoc, List.cons_append, tokens_append_blank first, tokens_blank_append others]

namespace Interchangeable

theorem refl (text : Text) : Interchangeable text text :=
  fun _ _ => rfl

theorem tokens_eq (same : Interchangeable text other) : text.tokens = other.tokens := by
  simpa using same [] []

theorem append {rest otherRest : Text} (same : Interchangeable text other)
    (sameRest : Interchangeable rest otherRest) :
    Interchangeable (text ++ rest) (other ++ otherRest) := by
  intro before behind
  have first := same before (rest ++ behind)
  have second := sameRest (before ++ other) behind
  simp only [List.append_assoc] at first second ⊢
  rw [first, second]

/-- It does not matter of which blanks a run consists. -/
theorem of_runs (blanks : IsBlankRun run) (otherBlanks : IsBlankRun other) :
    Interchangeable run other := by
  intro before behind
  rw [tokens_append_run blanks, tokens_append_run otherBlanks]

theorem replace (blanks : IsBlankRun run) (otherBlanks : IsBlankRun other) (first last : Text) :
    Interchangeable (first ++ run ++ last) (first ++ other ++ last) :=
  ((refl first).append (of_runs blanks otherBlanks)).append (refl last)

end Interchangeable

/-- A run of blanks in a text lies wholly before or wholly behind a visible character. -/
theorem run_around_visible {front rest before behind : Text} {d : CodePoint} (visible : isBlank d = false)
    (blanks : IsBlankRun run) (whole : front ++ d :: rest = before ++ run ++ behind) :
    (∃ more, front = before ++ run ++ more ∧ behind = more ++ d :: rest) ∨
      ∃ more, before = front ++ d :: more ∧ rest = more ++ run ++ behind := by
  have outside : d ∉ run := fun inside => by simp [blanks.blank d inside] at visible
  rw [List.append_assoc] at whole
  rcases List.append_eq_append_iff.mp whole with ⟨more, longer, cut⟩ | ⟨more, shorter, cut⟩
  · cases more with
    | nil =>
      obtain ⟨c, others, rfl⟩ := List.exists_cons_of_ne_nil blanks.ne_nil
      obtain ⟨rfl, -⟩ := List.cons.inj cut
      exact absurd (List.mem_cons_self ..) outside
    | cons c more =>
      obtain ⟨rfl, rest⟩ := List.cons.inj cut
      exact .inr ⟨more, longer, by simpa using rest⟩
  · rcases List.append_eq_append_iff.mp cut with ⟨part, reached, onward⟩ | ⟨part, inside, onward⟩
    · exact .inl ⟨part, by rw [shorter, reached, List.append_assoc], onward⟩
    · cases part with
      | nil => exact .inl ⟨[], by simpa [inside] using shorter, onward.symm⟩
      | cons c part =>
        obtain ⟨rfl, -⟩ := List.cons.inj onward
        simp [inside] at outside

end IntentModel.Text
