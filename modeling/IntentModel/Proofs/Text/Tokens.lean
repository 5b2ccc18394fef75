import IntentModel.Proofs.Text.Division
import IntentModel.Text.Tokens

/-! # The tokens of a text

Tokens are the runs of a bond: a word character binds the word character or the ordinal indicator
behind it, and nothing else is bound. `tokens_eq_divide` shows that respacing a text and cutting it
at the spaces gives these runs. Of the two spaces around an ordinal indicator the one in front is
taken away again, so the indicator ends up with a word exactly when it stands right behind it.

`tokens_eq_scanTokens` states the same for the scan from the left.
-/

namespace IntentModel

theorem isBlank_of_isWordChar {c : CodePoint} (word : isWordChar c = true) : isBlank c = false := by
  have places : (65 ≤ c.toNat ∧ c.toNat ≤ 90) ∨ (97 ≤ c.toNat ∧ c.toNat ≤ 122) ∨
      (48 ≤ c.toNat ∧ c.toNat ≤ 57) ∨ (0xC0 ≤ c.toNat ∧ c.toNat ≤ 0x17F) := by
    simp only [isWordChar, Bool.or_eq_true, Bool.and_eq_true, decide_eq_true_eq] at word
    obtain ascii | latin := word
    · cases c with
      | char c =>
        delta CodePoint.isAlphanum Char.isAlphanum Char.isAlpha Char.isUpper Char.isLower
          Char.isDigit at ascii
        simp only [Bool.or_eq_true, Bool.and_eq_true, decide_eq_true_eq, UInt32.le_iff_toNat_le] at ascii
        exact (or_assoc.mp ascii).imp id (.imp id .inl)
      | surrogate index => cases ascii
    · exact .inr (.inr (.inr latin))
  simp only [isBlank, Bool.or_eq_false_iff, Bool.and_eq_false_iff, decide_eq_false_iff_not,
    beq_eq_false_iff_ne]
  omega

theorem eq_of_isOrdinal {c : CodePoint} (ordinal : isOrdinal c = true) : c = 'º' ∨ c = 'ª' := by
  simpa [isOrdinal] using ordinal

theorem isBlank_of_isOrdinal {c : CodePoint} (ordinal : isOrdinal c = true) : isBlank c = false := by
  rcases eq_of_isOrdinal ordinal with rfl | rfl <;> decide

theorem isWordChar_of_isOrdinal {c : CodePoint} (ordinal : isOrdinal c = true) :
    isWordChar c = false := by
  rcases eq_of_isOrdinal ordinal with rfl | rfl <;> decide

theorem isSymbol_of_isOrdinal {c : CodePoint} (ordinal : isOrdinal c = true) : isSymbol c = true := by
  rcases eq_of_isOrdinal ordinal with rfl | rfl <;> decide

/-- A word goes on with word characters and with an ordinal indicator, which ends it. -/
def wordBond : Bond where
  holds first second := isWordChar first && (isWordChar second || isOrdinal second)
  visible first second bound := by
    simp only [Bool.and_eq_true, Bool.or_eq_true] at bound
    exact ⟨isBlank_of_isWordChar bound.1, bound.2.elim isBlank_of_isWordChar isBlank_of_isOrdinal⟩

namespace Text

/-! ## Respacing -/

/-- A symbol or an underscore with spaces on both sides; other characters as they are. -/
def setOff (c : CodePoint) : Text :=
  if isSymbol c || c == '_' then [' ', c, ' '] else [c]

/-- A character as it stands in the respaced text: an ordinal indicator is cut off from what follows,
other symbols and underscores from both sides. -/
def spacing (c : CodePoint) : Text :=
  if isOrdinal c then [c, ' '] else setOff c

/-- The two rounds of setting characters apart do not get in each other's way. -/
theorem setApart_setApart (text : Text) :
    setApart (· == .char '_') (setApart isSymbol text) = text.flatMap setOff := by
  simp only [setApart, List.flatMap_assoc]
  congr 1
  funext c
  by_cases symbol : isSymbol c = true
  · have other : c ≠ '_' := by rintro rfl; simp [isSymbol] at symbol
    simp [setOff, symbol, other]
  · simp [setOff, symbol]

theorem attachOrdinals_mark {mark : CodePoint} (ordinal : isOrdinal mark = true) (text : Text) :
    attachOrdinals (.char ' ' :: mark :: .char ' ' :: text) = mark :: .char ' ' :: attachOrdinals text := by
  simp only [attachOrdinals, ordinal, ↓reduceIte]

/-- A character stays in its place unless it is a space before an ordinal indicator. -/
theorem attachOrdinals_kept {c : CodePoint} {text : Text}
    (kept : c = ' ' → text.head?.any isOrdinal = false) :
    attachOrdinals (c :: text) = c :: attachOrdinals text := by
  rw [attachOrdinals.eq_def]
  split
  · next mark rest equal =>
    cases equal
    simp_all
  · next equal => cases equal; rfl
  · next equal => cases equal

/-- An ordinal indicator that is set off has a space in front of it. -/
theorem head?_flatMap_setOff (text : Text) :
    (text.flatMap setOff).head?.any isOrdinal = false := by
  cases text with
  | nil => rfl
  | cons c text =>
    have space : isOrdinal ' ' = false := by decide
    rw [List.flatMap_cons, setOff]
    split_ifs with apart
    · simp [space]
    · simp only [Bool.or_eq_true, not_or, Bool.not_eq_true] at apart
      cases ordinal : isOrdinal c with
      | false => simp [ordinal]
      | true => simp [isSymbol_of_isOrdinal ordinal] at apart

theorem attachOrdinals_setOff (text : Text) :
    attachOrdinals (text.flatMap setOff) = text.flatMap spacing := by
  induction text with
  | nil => rfl
  | cons c text ih =>
    have behind := attachOrdinals_kept (c := ' ') fun _ => head?_flatMap_setOff text
    rw [List.flatMap_cons, List.flatMap_cons, spacing]
    by_cases ordinal : isOrdinal c = true
    · simp [setOff, isSymbol_of_isOrdinal ordinal, ordinal, attachOrdinals_mark, ih]
    · rw [setOff]
      split_ifs with apart
      · have own : c ≠ ' ' := by rintro rfl; exact absurd apart (by decide)
        simp only [List.cons_append, List.nil_append]
        rw [attachOrdinals_kept (by simpa using ordinal), attachOrdinals_kept (absurd · own),
          behind, ih]
      · simp only [List.cons_append, List.nil_append]
        rw [attachOrdinals_kept fun _ => head?_flatMap_setOff text, ih]

/-- Between single spaces, a respaced text has the runs of visible characters of its spaced form. -/
theorem respaced_eq_join (text : Text) :
    text.respaced = join [.char ' '] (divide visibleBond (text.flatMap spacing)) := by
  rw [respaced, setApart_setApart, attachOrdinals_setOff, collapse_eq_join]

/-! ## Tokens as runs -/

/-- In the spaced form a character is followed by a visible one exactly when it binds it. -/
theorem continues_spacing {c : CodePoint} (word : isWordChar c = true) (text : Text) :
    continues visibleBond c (text.flatMap spacing) = continues wordBond c text := by
  have visible := isBlank_of_isWordChar word
  cases text with
  | nil => rfl
  | cons d text =>
    have space : isBlank ' ' = true := by decide
    rw [continues_cons, List.flatMap_cons, spacing, setOff]
    split_ifs with ordinal apart
    · simp [continues, visibleBond, wordBond, visible, word, ordinal, isBlank_of_isOrdinal ordinal]
    · have own : isWordChar d = false := by
        rcases (by simpa using apart : isSymbol d = true ∨ d = '_') with symbol | rfl
        · simp_all [isSymbol]
        · decide
      simp [continues, visibleBond, wordBond, space, own, ordinal]
    · have kind : isBlank d = !isWordChar d := by
        cases wordNext : isWordChar d with
        | true => exact isBlank_of_isWordChar wordNext
        | false => simp_all [isSymbol]
      simp [continues, visibleBond, wordBond, visible, word, ordinal, kind]

/-- Only a word character binds what follows. -/
theorem apart_of_not_word {c : CodePoint} (other : isWordChar c = false) (text : Text) :
    continues wordBond c text = false := by
  cases text <;> simp [continues, wordBond, other]

theorem spacing_of_word {c : CodePoint} (word : isWordChar c = true) : spacing c = [c] := by
  have plain : isOrdinal c = false := by
    cases ordinal : isOrdinal c with
    | false => rfl
    | true => simp [isWordChar_of_isOrdinal ordinal] at word
  have own : c ≠ '_' := by rintro rfl; exact absurd word (by decide)
  simp [spacing, setOff, isSymbol, plain, word, own]

/-- The spaces of the spaced form part the text just where the tokens part. -/
theorem divide_spacing (text : Text) :
    divide visibleBond (text.flatMap spacing) = divide wordBond text := by
  induction text with
  | nil => rfl
  | cons c text ih =>
    by_cases word : isWordChar c = true
    · have visible := isBlank_of_isWordChar word
      have same := continues_spacing word text
      rw [List.flatMap_cons, spacing_of_word word, List.singleton_append]
      cases goesOn : continues wordBond c text with
      | true => rw [divide_cons_bound goesOn, divide_cons_bound (same.trans goesOn), ih]
      | false =>
        rw [divide_cons_apart visible goesOn, divide_cons_apart visible (same.trans goesOn), ih]
    · have apart := apart_of_not_word (by simpa using word) text
      have space : isBlank ' ' = true := by decide
      have cutOff (visible : isBlank c = false) (rest : Text) :
          divide visibleBond (c :: .char ' ' :: rest) = [c] :: divide visibleBond rest := by
        rw [divide_cons_apart visible (by simp [continues_cons, visibleBond, space]),
          divide_cons_blank space]
      rw [List.flatMap_cons, spacing, setOff]
      split_ifs with ordinal symbol
      · have visible := isBlank_of_isOrdinal ordinal
        rw [divide_cons_apart visible apart, ← ih]
        exact cutOff visible _
      · have visible : isBlank c = false := by
          rcases (by simpa using symbol : isSymbol c = true ∨ c = '_') with symbol | rfl
          · simp_all [isSymbol]
          · decide
        rw [divide_cons_apart visible apart, ← ih]
        exact (divide_cons_blank space _).trans (cutOff visible _)
      · have blank : isBlank c = true := by simp_all [isSymbol]
        rw [List.singleton_append, divide_cons_blank blank, divide_cons_blank blank, ih]

/-- The tokens of a text are its runs under the bond of words. -/
theorem tokens_eq_divide (text : Text) : text.tokens = divide wordBond text := by
  have spaceless : ∀ run ∈ divide wordBond text, .char ' ' ∉ run := by
    intro run member present
    exact absurd ((visible_of_mem_divide member).2 ' ' present) (by decide)
  have pieces : text.respaced = join [.char ' '] (divide wordBond text) := by
    rw [respaced_eq_join, divide_spacing]
  rw [tokens]
  split
  · next empty => exact ((join_divide_eq_nil_iff _ _).mp (pieces.symm.trans empty)).symm
  · next c spaced respacing =>
    have present : divide wordBond text ≠ [] := by
      intro empty
      simp [pieces, empty, join, List.intercalate] at respacing
    rw [← respacing, pieces]
    exact List.splitOn_intercalate (.char ' ') spaceless present

theorem tokens_singleton {c : CodePoint} (visible : isBlank c = false) : tokens [c] = [[c]] := by
  rw [tokens_eq_divide, divide_singleton visible]

/-- No token is empty or holds a blank. -/
theorem visible_of_mem_tokens {text token : Text} (member : token ∈ text.tokens) :
    token ≠ [] ∧ ∀ c ∈ token, isBlank c = false :=
  visible_of_mem_divide (tokens_eq_divide text ▸ member)

/-- Only blank texts have no tokens. -/
theorem tokens_eq_nil_iff {text : Text} : text.tokens = [] ↔ ∀ c ∈ text, isBlank c = true := by
  rw [tokens_eq_divide, divide_eq_nil_iff]

/-- Tokens leave out the blanks and nothing else. -/
theorem flatten_tokens (text : Text) :
    text.tokens.flatten = text.filter fun c => !isBlank c := by
  rw [tokens_eq_divide, flatten_divide]

/-! ## The scan from the left -/

theorem wordRest_cons (d : CodePoint) (text : Text) :
    wordRest (d :: text) =
      if isWordChar d then d :: wordRest text else if isOrdinal d then [d] else [] := by
  cases word : isWordChar d <;> cases ordinal : isOrdinal d <;> simp [wordRest, word, ordinal]

theorem scanTokens_blank {c : CodePoint} (blank : isBlank c = true) (text : Text) :
    scanTokens (c :: text) = scanTokens text := by
  rw [scanTokens, if_pos blank]

theorem scanTokens_word {c : CodePoint} (word : isWordChar c = true) (text : Text) :
    scanTokens (c :: text) =
      (c :: wordRest text) :: scanTokens (text.drop (wordRest text).length) := by
  rw [scanTokens, if_neg (by simp [isBlank_of_isWordChar word]), if_pos word]

theorem scanTokens_single {c : CodePoint} (visible : isBlank c = false) (other : isWordChar c = false)
    (text : Text) : scanTokens (c :: text) = [c] :: scanTokens text := by
  rw [scanTokens, if_neg (by simp [visible]), if_neg (by simp [other])]

/-- A bound character comes to stand in front of the token that the scan finds behind it. -/
theorem scanTokens_bound {c : CodePoint} {text : Text} (goesOn : continues wordBond c text = true) :
    scanTokens (c :: text) = extendFirst c (scanTokens text) := by
  cases text with
  | nil => simp [continues] at goesOn
  | cons d text =>
    obtain ⟨word, next⟩ : isWordChar c = true ∧ (isWordChar d = true ∨ isOrdinal d = true) := by
      simpa [continues, wordBond] using goesOn
    rw [scanTokens_word word, wordRest_cons]
    by_cases wordNext : isWordChar d = true
    · rw [if_pos wordNext, scanTokens_word wordNext]
      rfl
    · have ordinal : isOrdinal d = true := next.resolve_left wordNext
      rw [if_neg wordNext, if_pos ordinal,
        scanTokens_single (isBlank_of_isOrdinal ordinal) (isWordChar_of_isOrdinal ordinal)]
      rfl

/-- A word character that binds nothing is a token. -/
theorem wordRest_of_apart {c : CodePoint} {text : Text} (word : isWordChar c = true)
    (apart : continues wordBond c text = false) : wordRest text = [] := by
  cases text with
  | nil => rfl
  | cons d text =>
    have ends : isWordChar d = false ∧ isOrdinal d = false := by
      simpa [continues, wordBond, word] using apart
    simp [wordRest_cons, ends.1, ends.2]

/-- The scan finds the runs under the bond of words. -/
theorem scanTokens_eq_divide (text : Text) : scanTokens text = divide wordBond text := by
  induction text with
  | nil => rw [scanTokens, divide]
  | cons c text ih =>
    by_cases blank : isBlank c = true
    · rw [scanTokens_blank blank, divide_cons_blank blank, ih]
    have visible : isBlank c = false := by simpa using blank
    cases goesOn : continues wordBond c text with
    | true => rw [scanTokens_bound goesOn, divide_cons_bound goesOn, ih]
    | false =>
      rw [divide_cons_apart visible goesOn, ← ih]
      by_cases word : isWordChar c = true
      · rw [scanTokens_word word, wordRest_of_apart word goesOn]
        rfl
      · exact scanTokens_single visible (by simpa using word) text

/-- Respacing a text and cutting it at the spaces gives the tokens of a single scan from the left:
blanks are skipped, a word is taken as far as it reaches together with an ordinal indicator right
behind it, and any other character is a token of its own. -/
theorem tokens_eq_scanTokens (text : Text) : text.tokens = text.scanTokens :=
  (tokens_eq_divide text).trans (scanTokens_eq_divide text).symm

end Text
end IntentModel
