import IntentModel.Proofs.Text.Tokens

/-! # Where tokens stand

The tokens of a text are numbered from 0, and each covers a range of its characters. The ranges are
laid out from the left: a token begins at the first visible character behind the token before it.
`tokenRanges_slice` confirms that the ranges cut the tokens out of the text.

`exists_covers` finds the number of the token at a visible character: it is settled by the text up to
that character, whatever follows.
-/

namespace IntentModel

structure TokenRange where
  start : Nat
  stop : Nat
deriving DecidableEq, Repr

namespace Text

/-- Lays tokens out in a text whose first character has the given offset. -/
def placeFrom (offset : Nat) (text : Text) : List Text → List TokenRange
  | [] => []
  | token :: tokens =>
    let start := offset + (text.takeWhile isBlank).length
    ⟨start, start + token.length⟩ ::
      placeFrom (start + token.length) ((text.dropWhile isBlank).drop token.length) tokens

def tokenRanges (text : Text) : List TokenRange :=
  placeFrom 0 text text.tokens

/-- The token of the given number covers the character at an offset. -/
def Covers (text : Text) (number offset : Nat) : Prop :=
  ∃ range, text.tokenRanges[number]? = some range ∧ range.start ≤ offset ∧ offset < range.stop

variable {bond : Bond}

/-! ## The ranges of runs -/

theorem placeFrom_blank {c : CodePoint} (blank : isBlank c = true) (offset : Nat) (text : Text)
    (runs : List Text) : placeFrom offset (c :: text) runs = placeFrom (offset + 1) text runs := by
  cases runs with
  | nil => rfl
  | cons run runs => simp [placeFrom, blank, Nat.add_assoc, Nat.add_comm 1]

theorem placeFrom_visible {c : CodePoint} (visible : isBlank c = false) (offset : Nat)
    (text run : Text) (runs : List Text) :
    placeFrom offset (c :: text) ((c :: run) :: runs) =
      ⟨offset, offset + run.length + 1⟩ ::
        placeFrom (offset + run.length + 1) (text.drop run.length) runs := by
  simp [placeFrom, visible, Nat.add_assoc]

/-- A visible character that binds nothing is a run of its own. -/
theorem placeFrom_apart {c : CodePoint} {text : Text} (visible : isBlank c = false)
    (apart : continues bond c text = false) (offset : Nat) :
    placeFrom offset (c :: text) (divide bond (c :: text)) =
      ⟨offset, offset + 1⟩ :: placeFrom (offset + 1) text (divide bond text) := by
  rw [divide_cons_apart visible apart, placeFrom_visible visible]
  rfl

/-- Where a run grows at its front, its range begins one character earlier. -/
theorem placeFrom_bound {c : CodePoint} {text : Text} (goesOn : continues bond c text = true)
    (offset : Nat) : ∃ stop ranges,
      placeFrom (offset + 1) text (divide bond text) = ⟨offset + 1, stop⟩ :: ranges ∧
      placeFrom offset (c :: text) (divide bond (c :: text)) = ⟨offset, stop⟩ :: ranges ∧
      offset < stop := by
  obtain ⟨visible, d, rest, rfl, visibleNext⟩ := exists_of_continues goesOn
  obtain ⟨run, runs, divided⟩ := exists_divide_cons bond visibleNext rest
  refine ⟨offset + 1 + run.length + 1, placeFrom (offset + 1 + run.length + 1)
    (rest.drop run.length) runs, ?_, ?_, by omega⟩
  · rw [divided, placeFrom_visible visibleNext]
  · rw [divide_cons_bound goesOn, divided, extendFirst, placeFrom_visible visible]
    simp [Nat.add_assoc, Nat.add_comm 1]

theorem slice_cons_extend (before : Text) (c : CodePoint) (text : Text) {stop : Nat}
    (within : before.length < stop) :
    slice (before ++ c :: text) before.length stop =
      c :: slice (before ++ c :: text) (before.length + 1) stop := by
  obtain ⟨more, rfl⟩ := Nat.exists_eq_add_of_lt within
  simp [slice, Nat.add_assoc, List.take_append, List.drop_append]

/-- The ranges of the runs cut the runs out of the text. -/
theorem placeFrom_slice (bond : Bond) (before text : Text) :
    (placeFrom before.length text (divide bond text)).map
      (fun range => slice (before ++ text) range.start range.stop) = divide bond text := by
  induction text generalizing before with
  | nil => rfl
  | cons c text ih =>
    have rest := ih (before ++ [c])
    simp only [List.length_append, List.length_singleton, List.append_assoc,
      List.singleton_append] at rest
    by_cases blank : isBlank c = true
    · rw [divide_cons_blank blank, placeFrom_blank blank]
      exact rest
    have visible : isBlank c = false := by simpa using blank
    cases goesOn : continues bond c text with
    | true =>
      obtain ⟨stop, ranges, inner, outer, within⟩ := placeFrom_bound goesOn before.length
      rw [inner] at rest
      rw [outer, divide_cons_bound goesOn, ← rest]
      simp [slice_cons_extend before c text within, extendFirst]
    | false =>
      rw [placeFrom_apart visible goesOn, divide_cons_apart visible goesOn, List.map_cons, rest]
      simp [slice, List.take_append]

/-- The ranges of the tokens cut the tokens out of the text. -/
theorem tokenRanges_slice (text : Text) :
    text.tokenRanges.map (fun range => text.slice range.start range.stop) = text.tokens := by
  rw [tokenRanges, tokens_eq_divide]
  exact placeFrom_slice wordBond [] text

/-- No range begins before the range in front of it has ended. -/
theorem placeFrom_pairwise (offset : Nat) (text : Text) (runs : List Text) :
    (∀ range ∈ placeFrom offset text runs, offset ≤ range.start) ∧
      (placeFrom offset text runs).Pairwise fun range next => range.stop ≤ next.start := by
  induction runs generalizing offset text with
  | nil => simp [placeFrom]
  | cons run runs ih =>
    obtain ⟨behind, ordered⟩ := ih (offset + (text.takeWhile isBlank).length + run.length)
      ((text.dropWhile isBlank).drop run.length)
    refine ⟨?_, List.pairwise_cons.mpr ⟨behind, ordered⟩⟩
    intro range member
    rcases List.mem_cons.mp member with rfl | member
    · exact Nat.le_add_right ..
    · have := behind range member
      omega

/-- Characters further on are covered by tokens further on. -/
theorem Covers.le {text : Text} {number other place further : Nat}
    (covered : text.Covers number place) (again : text.Covers other further)
    (order : place ≤ further) : number ≤ other := by
  obtain ⟨range, found, starts, stops⟩ := covered
  obtain ⟨range', found', starts', stops'⟩ := again
  obtain ⟨bound, rfl⟩ := List.getElem?_eq_some_iff.mp found
  obtain ⟨bound', rfl⟩ := List.getElem?_eq_some_iff.mp found'
  apply Nat.le_of_not_lt
  intro behind
  have ordered := List.pairwise_iff_getElem.mp (placeFrom_pairwise 0 text text.tokens).2 other number
    bound' bound behind
  simp only [tokenRanges] at *
  omega

theorem mem_tokens_of_range {text : Text} {number : Nat} {range : TokenRange}
    (found : text.tokenRanges[number]? = some range) :
    text.slice range.start range.stop ∈ text.tokens := by
  rw [← tokenRanges_slice]
  exact List.mem_map_of_mem (List.mem_of_getElem? found)

/-- No token is empty. -/
theorem start_lt_stop_of_range {text : Text} {number : Nat} {range : TokenRange}
    (found : text.tokenRanges[number]? = some range) : range.start < range.stop := by
  have filled := List.length_pos_iff.mpr (visible_of_mem_tokens (mem_tokens_of_range found)).1
  rw [slice, List.length_drop, List.length_take] at filled
  omega

/-- No token covers a blank. -/
theorem Covers.isBlank_eq_false {text : Text} {number offset : Nat} (covered : text.Covers number offset)
    {c : CodePoint} (stands : text[offset]? = some c) : isBlank c = false := by
  obtain ⟨range, found, starts, stops⟩ := covered
  apply (visible_of_mem_tokens (mem_tokens_of_range found)).2
  apply List.mem_of_getElem? (i := offset - range.start)
  rw [slice, List.getElem?_drop, Nat.add_sub_cancel' starts, List.getElem?_take_of_lt stops, stands]

/-- A token between two others covers a character between theirs. -/
theorem Covers.exists_between {text : Text} {first last number place further : Nat}
    (covered : text.Covers first place) (again : text.Covers last further)
    (after : first < number) (before : number < last) :
    ∃ offset, place < offset ∧ offset < further ∧ text.Covers number offset := by
  obtain ⟨range, found, starts, stops⟩ := covered
  obtain ⟨range', found', starts', stops'⟩ := again
  obtain ⟨bound, rfl⟩ := List.getElem?_eq_some_iff.mp found
  obtain ⟨bound', rfl⟩ := List.getElem?_eq_some_iff.mp found'
  have within : number < text.tokenRanges.length := by omega
  have own := List.getElem?_eq_getElem within
  have filled := start_lt_stop_of_range own
  have ordered := List.pairwise_iff_getElem.mp (placeFrom_pairwise 0 text text.tokens).2
  have lower := ordered first number bound within after
  have upper := ordered number last within bound' before
  refine ⟨text.tokenRanges[number].start, ?_, ?_, _, own, Nat.le_refl _, filled⟩
  · simp only [tokenRanges] at *
    omega
  · simp only [tokenRanges] at *
    omega

/-- A visible character is covered by the last of the runs that the text up to it has. -/
theorem exists_range_of_visible (bond : Bond) {c : CodePoint} (visible : isBlank c = false)
    (before rest : Text) (offset : Nat) :
    ∃ number range, (divide bond (before ++ [c])).length = number + 1 ∧
      (placeFrom offset (before ++ c :: rest) (divide bond (before ++ c :: rest)))[number]? =
        some range ∧ range.start ≤ offset + before.length ∧ offset + before.length < range.stop := by
  induction before generalizing offset with
  | nil =>
    have single := @divide_singleton bond c visible
    refine ⟨0, ?_⟩
    cases goesOn : continues bond c rest with
    | true =>
      obtain ⟨stop, ranges, -, outer, within⟩ := placeFrom_bound goesOn offset
      exact ⟨⟨offset, stop⟩, by simp [single], by simp [outer], by simp, by simpa using within⟩
    | false =>
      exact ⟨⟨offset, offset + 1⟩, by simp [single], by simp [placeFrom_apart visible goesOn],
        by simp, by simp⟩
  | cons b before ih =>
    obtain ⟨number, range, counted, found, starts, stops⟩ := ih (offset + 1)
    have sameHead : continues bond b (before ++ c :: rest) = continues bond b (before ++ [c]) := by
      cases before <;> rfl
    simp only [List.cons_append, List.length_cons]
    by_cases blank : isBlank b = true
    · refine ⟨number, range, ?_, ?_, by omega, by omega⟩
      · rw [divide_cons_blank blank, counted]
      · rw [divide_cons_blank blank, placeFrom_blank blank, found]
    have visibleFirst : isBlank b = false := by simpa using blank
    cases goesOn : continues bond b (before ++ [c]) with
    | true =>
      obtain ⟨stop, ranges, inner, outer, -⟩ := placeFrom_bound (sameHead.trans goesOn) offset
      have sameLength : (divide bond (b :: (before ++ [c]))).length = number + 1 := by
        rw [divide_cons_bound goesOn]
        cases divided : divide bond (before ++ [c]) with
        | nil => simp [divided] at counted
        | cons run runs => simpa [divided, extendFirst] using counted
      rw [inner] at found
      rw [outer]
      cases number with
      | zero =>
        obtain rfl : ⟨offset + 1, stop⟩ = range := by simpa using found
        exact ⟨0, ⟨offset, stop⟩, sameLength, rfl, by simp, by simp only at stops ⊢; omega⟩
      | succ number => exact ⟨number + 1, range, sameLength, found, by omega, by omega⟩
    | false =>
      refine ⟨number + 1, range, ?_, ?_, by omega, by omega⟩
      · rw [divide_cons_apart visibleFirst goesOn, List.length_cons, counted]
      · rw [placeFrom_apart visibleFirst (sameHead.trans goesOn), List.getElem?_cons_succ, found]

/-- The number of the token at a visible character is settled by the text up to that character: it
is that of the last token there, whatever follows. -/
theorem exists_covers {c : CodePoint} (visible : isBlank c = false) (before : Text) :
    ∃ number, (Text.tokens (before ++ [c])).length = number + 1 ∧
      ∀ rest, Covers (before ++ c :: rest) number before.length := by
  obtain ⟨number, -, counted, -⟩ := exists_range_of_visible wordBond visible before [] 0
  refine ⟨number, by rw [tokens_eq_divide, counted], fun rest => ?_⟩
  obtain ⟨last, range, reached, found, starts, stops⟩ :=
    exists_range_of_visible wordBond visible before rest 0
  obtain rfl : last = number := by omega
  rw [← tokens_eq_divide] at found
  exact ⟨range, found, by omega, by omega⟩

end Text
end IntentModel
