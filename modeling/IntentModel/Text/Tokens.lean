import IntentModel.Text.Blank

/-! # Tokens

How a text falls into tokens. Positions of entities count tokens, so the rule has to be the one of
the service that reads the model:

* a character that is neither a word character nor blank is a token of its own, and so is each
  underscore;
* an ordinal indicator stays with the token before it;
* blanks separate tokens and belong to none.

`tokens` respaces the text until blanks alone separate the tokens. `scanTokens` states the same
division as one pass from the left.
-/

namespace IntentModel

/-- Letters and digits of ASCII and the characters U+00C0 to U+017F make up words. -/
def isWordChar (c : CodePoint) : Bool :=
  c.isAlphanum || (0xC0 ≤ c.toNat && c.toNat ≤ 0x17F)

/-- The ordinal indicators, as in "5º" and "5ª". -/
def isOrdinal (c : CodePoint) : Bool :=
  c == 'º' || c == 'ª'

/-- Punctuation and symbols: whatever is neither a word character, an underscore nor blank. -/
def isSymbol (c : CodePoint) : Bool :=
  !(isWordChar c || c == '_' || isBlank c)

namespace Text

/-- Puts a space on both sides of each character in the class. -/
def setApart (inClass : CodePoint → Bool) (text : Text) : Text :=
  text.flatMap fun c => if inClass c then [' ', c, ' '] else [c]

/-- Removes the space before an ordinal indicator that stands between two spaces. -/
def attachOrdinals : Text → Text
  | .char ' ' :: mark :: .char ' ' :: text =>
    if isOrdinal mark then mark :: .char ' ' :: attachOrdinals text
    else .char ' ' :: attachOrdinals (mark :: .char ' ' :: text)
  | c :: text => c :: attachOrdinals text
  | [] => []

/-- The text with single spaces between its tokens and blanks nowhere else. -/
def respaced (text : Text) : Text :=
  (((text.setApart isSymbol).setApart (· == .char '_')).attachOrdinals).collapse

def tokens (text : Text) : List Text :=
  match text.respaced with
  | [] => []
  | c :: spaced => (c :: spaced).splitOn (.char ' ')

/-- The text with one space between its tokens. -/
def joinTokens (text : Text) : Text :=
  join " " text.tokens

/-- How a word goes on: the word characters that follow, and one ordinal indicator behind them. -/
def wordRest (text : Text) : Text :=
  text.takeWhile isWordChar ++ ((text.dropWhile isWordChar).take 1).filter isOrdinal

/-- One pass from the left: a blank is skipped, a word character begins a word that reaches as far
as it can, and every other character is a token of its own. -/
def scanTokens : Text → List Text
  | [] => []
  | c :: text =>
    if isBlank c then scanTokens text
    else if isWordChar c then
      (c :: wordRest text) :: scanTokens (text.drop (wordRest text).length)
    else [c] :: scanTokens text
termination_by text => text.length
decreasing_by all_goals simp only [List.length_drop, List.length_cons]; omega

end Text

end IntentModel
