import IntentModel.Text.Lowercase
import IntentModel.Text.Blank

/-! # Folding by culture

A culture says how the service takes capitals and small letters for one another. For `en-us` only
the letters A to Z are lowered; for every other culture the whole text is.
-/

namespace IntentModel.Text

/-- Whether the culture folds the letters A to Z only. -/
def foldsAscii (culture : Text) : Bool :=
  culture.lower == ("en-us" : Text)

/-- The text as the service folds it for a culture. -/
def fold (text culture : Text) : Text :=
  if culture.foldsAscii then text.lowerAscii else text.lower

/-- The text with single spaces between its words, folded for a culture. -/
def normalize (text culture : Text) : Text :=
  text.collapse.fold culture

end IntentModel.Text
