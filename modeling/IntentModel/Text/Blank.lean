import IntentModel.Text

/-! # Blank characters

The characters that separate words: the blanks of ASCII together with the four information
separators U+001C to U+001F, and the space separators of the other scripts. `collapse` brings a
text into the form in which single spaces stand between words and nowhere else.
-/

namespace IntentModel

/-- The space characters, the line ends and the information separators. -/
def isBlank (c : CodePoint) : Bool :=
  let n := c.toNat
  (0x09 ≤ n && n ≤ 0x0D) || (0x1C ≤ n && n ≤ 0x20) || n == 0x85 || n == 0xA0 || n == 0x1680 ||
    (0x2000 ≤ n && n ≤ 0x200A) || n == 0x2028 || n == 0x2029 || n == 0x202F || n == 0x205F ||
    n == 0x3000

/-- The blanks without the information separators. -/
def isSpace (c : CodePoint) : Bool :=
  isBlank c && !(0x1C ≤ c.toNat && c.toNat ≤ 0x1F)

/-- The space characters and the line ends of ASCII. -/
def isAsciiSpace (c : CodePoint) : Bool :=
  isSpace c && c.toNat < 0x80

namespace Text

/-- Drops the characters of a class at the end of a text. -/
def dropEndWhile (inClass : CodePoint → Bool) (text : Text) : Text :=
  (text.reverse.dropWhile inClass).reverse

/-- Drops the blanks at the end of a text. -/
def trimEnd (text : Text) : Text :=
  dropEndWhile isBlank text

/-- Drops the characters of a class at both ends of a text. -/
def trimWhile (inClass : CodePoint → Bool) (text : Text) : Text :=
  dropEndWhile inClass (text.dropWhile inClass)

/-- Drops the blanks at both ends of a text. -/
def trim (text : Text) : Text :=
  trimWhile isBlank text

/-- Puts one space for each maximal run of blanks; `inRun` tells that a run has begun. -/
def squeezeFrom (inRun : Bool) : Text → Text
  | [] => []
  | c :: text =>
    if isBlank c then
      if inRun then squeezeFrom true text else .char ' ' :: squeezeFrom true text
    else c :: squeezeFrom false text

/-- Puts one space for each run of blanks and none at the ends. -/
def collapse (text : Text) : Text :=
  trim (squeezeFrom false text)

end Text

end IntentModel
