import IntentModel.Proofs.Text.Caseless
import IntentModel.Proofs.Text.Joining

/-! # Collapsing blanks

Collapsing a text squeezes each run of blanks to one space and trims what is left at the ends. The result is
the text cut at its blanks and written anew, with single spaces between the pieces that are not empty
(`divide_eq_visibleRuns`). So a collapsed text has spaces between visible characters only
(`singlySpaced_join`), and all that is visible stays in its order.

Tokens and folding go run by run. That is why it makes no difference to the tokens whether blanks are
collapsed before a text is tokenized, or before it is folded.
-/

namespace IntentModel.Text

/-- The maximal runs of visible characters, in order: the text is cut at each blank, and what is empty between
two blanks is left out. -/
def visibleRuns (text : Text) : List Text :=
  (text.splitOnP isBlank).filter (!·.isEmpty)

/-- Every blank is a space between two visible characters. -/
def SinglySpaced (text : Text) : Prop :=
  ∀ before c behind, text = before ++ c :: behind → isBlank c = true →
    c = ' ' ∧ before.getLast?.any (!isBlank ·) = true ∧ behind.head?.any (!isBlank ·) = true

/-- The runs of visible characters are what stands between the blanks. -/
theorem divide_eq_visibleRuns (text : Text) : divide visibleBond text = text.visibleRuns := by
  induction text using induction_on_blanks with
  | visible text visible =>
    rw [visibleRuns, List.splitOnP_eq_singleton visible, divide_visibleBond_of_visible visible]
    cases text <;> rfl
  | parted first c second blank ihFirst ihSecond =>
    rw [divide_append_cons_blank blank, ihFirst, ihSecond, visibleRuns, visibleRuns, visibleRuns,
      List.splitOnP_append_cons first second blank, List.filter_append]

theorem singlySpaced_of_visible {text : Text} (visible : ∀ c ∈ text, isBlank c = false) :
    SinglySpaced text := by
  rintro before c behind rfl blank
  rw [visible c (by simp)] at blank
  cases blank

/-- A visible text may be put in front, with a space behind it. -/
theorem SinglySpaced.cons {text rest : Text} {d : CodePoint} (visible : ∀ c ∈ text, isBlank c = false)
    (filled : text ≠ []) (begins : isBlank d = false) (spaced : SinglySpaced (d :: rest)) :
    SinglySpaced (text ++ .char ' ' :: d :: rest) := by
  have ends : text.getLast?.any (!isBlank ·) = true := by
    rw [List.getLast?_eq_some_getLast filled, Option.any_some, visible _ (List.getLast_mem filled)]
    rfl
  intro before c behind whole blank
  rcases List.append_eq_append_iff.mp whole with ⟨more, rfl, cut⟩ | ⟨more, rfl, cut⟩
  · cases more with
    | nil =>
      obtain ⟨rfl, rfl⟩ := List.cons.inj cut
      rw [List.append_nil]
      exact ⟨rfl, ends, by simp [begins]⟩
    | cons space more =>
      obtain ⟨rfl, onward⟩ := List.cons.inj cut
      obtain ⟨same, left, right⟩ := spaced more c behind onward blank
      refine ⟨same, ?_, right⟩
      cases more with
      | nil => cases left
      | cons e more => simpa [List.getLast?_append, List.getLast?_cons] using left
  · cases more with
    | nil =>
      obtain ⟨rfl, rfl⟩ := List.cons.inj cut
      rw [List.append_nil] at ends
      exact ⟨rfl, ends, by simp [begins]⟩
    | cons e more =>
      obtain ⟨rfl, -⟩ := List.cons.inj cut
      rw [visible c (by simp)] at blank
      cases blank

/-- Visible texts with single spaces between them. -/
theorem singlySpaced_join {runs : List Text}
    (visible : ∀ run ∈ runs, run ≠ [] ∧ ∀ c ∈ run, isBlank c = false) :
    SinglySpaced (join [.char ' '] runs) := by
  induction runs with
  | nil => exact singlySpaced_of_visible (by simp [join, List.intercalate])
  | cons run runs ih =>
    obtain ⟨⟨filled, own⟩, others⟩ := List.forall_mem_cons.mp visible
    rw [join_cons]
    split_ifs with last
    · exact singlySpaced_of_visible own
    · obtain ⟨next, rest, rfl⟩ := List.exists_cons_of_ne_nil last
      obtain ⟨⟨filledNext, ownNext⟩, -⟩ := List.forall_mem_cons.mp others
      obtain ⟨d, behind, rfl⟩ := List.exists_cons_of_ne_nil filledNext
      have begins : ∃ tail, join [.char ' '] ((d :: behind) :: rest) = d :: tail := by
        rw [join_cons]
        split_ifs <;> exact ⟨_, rfl⟩
      obtain ⟨tail, written⟩ := begins
      have spaced := ih others
      rw [written] at spaced ⊢
      rw [List.append_assoc, List.singleton_append]
      exact spaced.cons own filled (ownNext d (List.mem_cons_self ..))

theorem collapse_collapse (text : Text) : text.collapse.collapse = text.collapse := by
  rw [collapse_eq_join text.collapse, divide_collapse, collapse_eq_join]

/-- Collapsing moves blanks only. -/
theorem filter_collapse (text : Text) :
    (text.collapse.filter fun c => !isBlank c) = text.filter fun c => !isBlank c := by
  rw [← flatten_divide visibleBond, divide_collapse, flatten_divide]

/-- It makes no difference to the tokens whether blanks are collapsed before a text is folded. -/
theorem tokens_fold_collapse (text culture : Text) :
    (text.collapse.fold culture).tokens = (text.fold culture).tokens := by
  rw [tokens_eq_divide, tokens_eq_divide, ← flatMap_divide_visibleBond wordBond, divide_fold,
    divide_collapse, ← divide_fold, flatMap_divide_visibleBond]

/-- Collapsing a text writes its runs of visible characters with single spaces between them; a blank text
becomes empty. Collapsing again changes nothing. Blanks are then spaces between two visible characters, and
the visible characters are those of the text. The tokens stay the same, also when the text is folded for a
culture after it is collapsed. -/
theorem collapse_joins_runs (text : Text) :
    text.collapse = join [.char ' '] text.visibleRuns ∧
    (text.collapse = [] ↔ ∀ c ∈ text, isBlank c = true) ∧
    text.collapse.collapse = text.collapse ∧
    SinglySpaced text.collapse ∧
    (text.collapse.filter fun c => !isBlank c) = (text.filter fun c => !isBlank c) ∧
    text.collapse.tokens = text.tokens ∧
    ∀ culture : Text, (text.normalize culture).tokens = (text.fold culture).tokens := by
  have runs : text.collapse = join [.char ' '] (divide visibleBond text) := collapse_eq_join text
  refine ⟨?_, ?_, collapse_collapse text, ?_, filter_collapse text, tokens_collapse text,
    tokens_fold_collapse text⟩
  · rw [runs, divide_eq_visibleRuns]
  · rw [runs, join_divide_eq_nil_iff, divide_eq_nil_iff]
  · rw [runs]
    exact singlySpaced_join fun run => visible_of_mem_divide

/-- Blanks of several kinds, at the ends and around an ordinal indicator. -/
example : collapse "\u001c a\u00a0\u2003º\tb\u0085" = ("a º b" : Text) ∧
    tokens "a º b" = [[.char 'a'], [.char 'º'], [.char 'b']] := by decide

end IntentModel.Text
