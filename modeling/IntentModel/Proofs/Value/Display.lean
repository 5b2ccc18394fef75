import IntentModel.Value.Display
import Mathlib.Data.List.Basic

/-! # What is shown like a name

Numbers, dates and moments are shown in digits and a few marks, and other values that are no texts begin
with a bracket, a capital or a quoted part. So a value that is shown with the name of a section of a corpus
in front is a text (`eq_text_of_plain`).
-/

namespace IntentModel

namespace Text

/-- The marks that go with digits in numbers and points in time, and the letters for what is not finite. -/
def numeralMarks : Text :=
  ['.', '-', '+', 'e', ':', ' ', 'n', 'a', 'i', 'f', 'N', 'I', 't', 'y']

/-- The text is written in digits and the marks that go with them. -/
def IsNumeral (text : Text) : Prop :=
  ∀ c ∈ text, isDigit c = true ∨ c ∈ numeralMarks

instance (text : Text) : Decidable text.IsNumeral :=
  List.decidableBAll _ text

section Numeral

variable {text other : Text} {c : CodePoint}

theorem isNumeral_append : IsNumeral (text ++ other) ↔ text.IsNumeral ∧ other.IsNumeral :=
  List.forall_mem_append

theorem isNumeral_cons : IsNumeral (c :: text) ↔
    (isDigit c = true ∨ c ∈ numeralMarks) ∧ text.IsNumeral :=
  List.forall_mem_cons

theorem IsNumeral.of_subset (numeral : text.IsNumeral) (part : other ⊆ text) : other.IsNumeral :=
  fun c member => numeral c (part member)

theorem isNumeral_replicate (n : Nat) : IsNumeral (List.replicate n (.char '0')) := by
  intro c member
  rw [List.eq_of_mem_replicate member]
  exact .inl rfl

theorem isDigit_char {c : Char} (digit : c.isDigit = true) : isDigit (.char c) = true := by
  simp only [Char.isDigit, Bool.and_eq_true, decide_eq_true_eq, UInt32.le_iff_toNat_le] at digit
  exact Bool.and_eq_true_iff.mpr ⟨decide_eq_true digit.1, decide_eq_true digit.2⟩

theorem isNumeral_ofNat (n : Nat) : IsNumeral (ofNat n) := by
  intro c member
  obtain ⟨digit, among, rfl⟩ := List.mem_map.mp member
  exact .inl (isDigit_char (Nat.isDigit_of_mem_toDigits (by omega) (by omega) among))

theorem isNumeral_ofInt (n : Int) : IsNumeral (ofInt n) := by
  unfold ofInt
  split
  · exact isNumeral_cons.mpr ⟨.inr (by decide), isNumeral_ofNat _⟩
  · exact isNumeral_ofNat _

theorem isNumeral_ofNatPadded (width n : Nat) : IsNumeral (ofNatPadded width n) :=
  isNumeral_append.mpr ⟨isNumeral_replicate _, isNumeral_ofNat n⟩

end Numeral

end Text

namespace Binary64

variable {digits : Text}

theorem isNumeral_dropTrailingZeros (numeral : digits.IsNumeral) :
    (dropTrailingZeros digits).IsNumeral := by
  apply numeral.of_subset
  intro c member
  have rest := (List.dropWhile_suffix _).mem (List.mem_reverse.mp member)
  exact List.mem_reverse.mp rest

theorem isNumeral_positional (numeral : digits.IsNumeral) (place : Int) :
    (positional digits place).IsNumeral := by
  have zero : Text.IsNumeral ("0." : Text) := by decide
  have start (n : Nat) : Text.IsNumeral (digits.take n) := numeral.of_subset (List.take_subset n digits)
  have rest (n : Nat) : Text.IsNumeral (digits.drop n) := numeral.of_subset (List.drop_subset n digits)
  unfold positional
  split
  · next zeros =>
    exact Text.isNumeral_append.mpr
      ⟨Text.isNumeral_append.mpr ⟨zero, Text.isNumeral_replicate _⟩, numeral⟩
  · exact Text.isNumeral_append.mpr ⟨zero, numeral⟩
  · next place _ =>
    refine Text.isNumeral_append.mpr ⟨Text.isNumeral_append.mpr ⟨start _, Text.isNumeral_replicate _⟩, ?_⟩
    refine Text.isNumeral_cons.mpr ⟨.inr (by decide), ?_⟩
    split
    · decide
    · exact rest _

theorem isNumeral_scientific (numeral : digits.IsNumeral) (exponent : Int) :
    (scientific digits exponent).IsNumeral := by
  have power := Text.isNumeral_ofNatPadded 2 exponent.natAbs
  unfold scientific
  refine Text.isNumeral_append.mpr ⟨?_, Text.isNumeral_cons.mpr ⟨.inr (by decide), ?_⟩⟩
  · split
    · exact numeral
    · exact numeral
    · next d rest =>
      obtain ⟨first, others⟩ := Text.isNumeral_cons.mp numeral
      exact Text.isNumeral_cons.mpr ⟨first, Text.isNumeral_cons.mpr ⟨.inr (by decide), others⟩⟩
  · split
    · exact Text.isNumeral_cons.mpr ⟨.inr (by decide), power⟩
    · exact Text.isNumeral_cons.mpr ⟨.inr (by decide), power⟩

theorem isNumeral_write {layout : Layout} (nan : layout.nan.IsNumeral)
    (infinity : layout.infinity.IsNumeral) (number : Binary64) : (number.write layout).IsNumeral := by
  have minus : isDigit (.char '-') = true ∨ .char '-' ∈ Text.numeralMarks := by decide
  have sign (negative : Bool) : Text.IsNumeral (if negative then "-" else []) := by
    revert negative
    decide
  unfold write
  split
  · exact nan
  · split
    · exact Text.isNumeral_cons.mpr ⟨minus, infinity⟩
    · exact infinity
  · next negative mantissa exponent =>
    have digits : Text.IsNumeral
        (dropTrailingZeros (Text.ofNat (shortestDecimal mantissa exponent).coefficient)) :=
      isNumeral_dropTrailingZeros (Text.isNumeral_ofNat _)
    dsimp only
    split
    · exact Text.isNumeral_append.mpr ⟨sign _, by decide⟩
    · split
      · exact Text.isNumeral_append.mpr ⟨sign _, isNumeral_positional digits _⟩
      · exact Text.isNumeral_append.mpr ⟨sign _, isNumeral_scientific digits _⟩

end Binary64

theorem Date.isNumeral_iso (day : Date) : day.iso.IsNumeral := by
  simp [iso, Text.numeralMarks, Text.isNumeral_append, Text.isNumeral_cons, Text.isNumeral_ofNatPadded]

theorem Moment.isNumeral_isoOffset (minutes : Int) : (isoOffset minutes).IsNumeral := by
  unfold isoOffset
  split
  all_goals simp [Text.numeralMarks, Text.isNumeral_append, Text.isNumeral_cons, Text.isNumeral_ofNatPadded]

theorem Moment.isNumeral_isoWith (time : Moment) : (time.isoWith ' ').IsNumeral := by
  have day := time.date.isNumeral_iso
  have empty : Text.IsNumeral [] := by decide
  unfold isoWith
  simp only [List.append_assoc, Text.isNumeral_append, Text.isNumeral_cons,
    Text.isNumeral_ofNatPadded]
  refine ⟨day, ?_⟩
  split <;> split <;>
    simp [Text.numeralMarks, Text.isNumeral_cons, Text.isNumeral_ofNatPadded, isNumeral_isoOffset, empty]

namespace Value

/-- The characters with which values are shown to begin that are neither numerals nor bytes. -/
def formMarks : Text :=
  ['N', 'T', 'F', 'd', 's', '[', '(', '{', '\x27', '\x22']

/-- How a value is shown: as a numeral, behind one of the marks, or as a letter and a quote. -/
def IsForm (shown : Text) : Prop :=
  shown.IsNumeral ∨ (∃ mark ∈ formMarks, shown.head? = some mark) ∨
    ∃ quote rest, shown = .char 'b' :: quote :: rest ∧ (quote = .char '\x27' ∨ quote = .char '\x22')

theorem isForm_of_head? {shown : Text} (mark : CodePoint) (first : shown.head? = some mark)
    (listed : mark ∈ formMarks) : IsForm shown :=
  .inr (.inl ⟨mark, listed, first⟩)

theorem quoteFor_eq_or (content : Text) :
    content.quoteFor = .char '\x27' ∨ content.quoteFor = .char '\x22' := by
  rw [Text.quoteFor]
  split
  · exact .inr rfl
  · exact .inl rfl

theorem isForm_bool (truth : Bool) : IsForm (shownTree (.bool truth)) := by
  cases truth with
  | false => exact isForm_of_head? 'F' rfl (by decide)
  | true => exact isForm_of_head? 'T' rfl (by decide)

theorem isForm_text (content : Text) : IsForm (shownTree (.text content)) := by
  refine isForm_of_head? content.quoteFor rfl ?_
  obtain single | double := quoteFor_eq_or content
  · rw [single]
    decide
  · rw [double]
    decide

theorem isForm_tuple (items : List Value) : IsForm (shownTree (.tuple items)) := by
  refine isForm_of_head? '(' ?_ (by decide)
  rw [shownTree]
  split <;> rfl

theorem isForm_set (items : List Value) : IsForm (shownTree (.set items)) := by
  cases parts : shownItems items with
  | nil =>
    refine isForm_of_head? 's' ?_ (by decide)
    simp only [shownTree, parts]
    rfl
  | cons part rest =>
    refine isForm_of_head? '{' ?_ (by decide)
    simp only [shownTree, parts]
    rfl

theorem isForm_dots (form : Form) : IsForm form.dots := by
  cases form with
  | list => exact isForm_of_head? '[' rfl (by decide)
  | tuple => exact isForm_of_head? '(' rfl (by decide)
  | set => exact isForm_of_head? 's' rfl (by decide)
  | map => exact isForm_of_head? '{' rfl (by decide)

theorem isForm_shownTree (tree : Value) : IsForm tree.shownTree := by
  cases tree with
  | null => exact isForm_of_head? 'N' rfl (by decide)
  | bool truth => exact isForm_bool truth
  | int number => exact .inl (Text.isNumeral_ofInt number)
  | float number => exact .inl (Binary64.isNumeral_write (by decide) (by decide) number)
  | text content => exact isForm_text content
  | date day => exact isForm_of_head? 'd' rfl (by decide)
  | moment time => exact isForm_of_head? 'd' rfl (by decide)
  | bytes content => exact .inr (.inr ⟨_, _, rfl, quoteFor_eq_or _⟩)
  | list items => exact isForm_of_head? '[' rfl (by decide)
  | tuple items => exact isForm_tuple items
  | set items => exact isForm_set items
  | map entries => exact isForm_of_head? '{' rfl (by decide)
  | tangle cells form place => exact isForm_dots form
  | link form place => exact isForm_dots form

/-- A value that is no text is not shown like one. -/
theorem eq_text_or_isForm (value : Value) : value = .text value.plain ∨ IsForm value.plain := by
  cases value with
  | text content => exact .inl rfl
  | date day => exact .inr (.inl day.isNumeral_iso)
  | moment time => exact .inr (.inl time.isNumeral_isoWith)
  | _ => exact .inr (isForm_shownTree _)

/-- The name of a section shows that what it begins is a text. -/
theorem not_isForm_of_special {name rest : Text}
    (special : name ∈ [("list." : Text), ("phraselist" : Text), ("builtin" : Text)]) :
    ¬IsForm (name ++ rest) := by
  have worded : ∀ name ∈ [("list." : Text), ("phraselist" : Text), ("builtin" : Text)],
      ¬Text.IsNumeral name := by decide
  have unmarked : ∀ name ∈ [("list." : Text), ("phraselist" : Text), ("builtin" : Text)],
      ∃ c d more, name = c :: d :: more ∧ c ∉ formMarks ∧ d ≠ .char '\x27' ∧ d ≠ .char '\x22' := by
    rintro name (_ | ⟨_, _ | ⟨_, _ | ⟨_, nowhere⟩⟩⟩)
    · exact ⟨_, _, _, rfl, by decide⟩
    · exact ⟨_, _, _, rfl, by decide⟩
    · exact ⟨_, _, _, rfl, by decide⟩
    · cases nowhere
  obtain ⟨c, d, more, rfl, unlisted, single, double⟩ := unmarked name special
  rintro (numeral | ⟨mark, listed, first⟩ | ⟨quote, _, same, quotes⟩)
  · exact worded _ special (Text.isNumeral_append.mp numeral).1
  · cases first
    exact unlisted listed
  · simp only [List.cons_append, List.cons.injEq] at same
    rw [← same.2.1] at quotes
    exact quotes.elim single double

/-- A value that is shown with the name of a section in front is a text. -/
theorem eq_text_of_plain {value : Value} {name rest : Text}
    (special : name ∈ [("list." : Text), ("phraselist" : Text), ("builtin" : Text)])
    (plain : value.plain = name ++ rest) : value = .text (name ++ rest) := by
  obtain text | form := eq_text_or_isForm value
  · rw [← plain]
    exact text
  · rw [plain] at form
    exact absurd form (not_isForm_of_special special)

end Value

end IntentModel
