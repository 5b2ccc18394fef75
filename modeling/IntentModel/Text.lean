import IntentModel.Text.CodePoint

/-! # Texts

A text is the sequence of its code points, so that every length and every offset counts code
points. This module holds the operations that all parts of the library share: searching, cutting
and replacing. Replacement walks the text once from the left; what it has put in is not read again.
-/

namespace IntentModel

/-- A text is the sequence of its code points. -/
abbrev Text := List CodePoint

instance : Coe String Text := ⟨fun text => text.toList.map .char⟩

namespace Text

/-- The rest of `text` behind `opening`, when the text begins with it. -/
def after? : (opening text : Text) → Option Text
  | [], text => some text
  | _ :: _, [] => none
  | o :: opening, c :: text => if o = c then after? opening text else none

/-- Whether `text` begins with `opening`. -/
def beginsWith (text opening : Text) : Bool :=
  (opening.after? text).isSome

/-- Whether `text` ends with `ending`. -/
def endsWith (text ending : Text) : Bool :=
  beginsWith text.reverse ending.reverse

/-- The parts of a text before and behind the first occurrence of `separator`. -/
def cutAt? (text separator : Text) : Option (Text × Text) :=
  match text with
  | [] => (separator.after? []).map fun rest => ([], rest)
  | c :: text =>
    match separator.after? (c :: text) with
    | some rest => some ([], rest)
    | none => (cutAt? text separator).map fun (before, rest) => (c :: before, rest)

/-- Writes a text anew from the left. Where `found?` gives a length and a replacement, that many
characters give way to the replacement; every other character is kept. The first argument counts
the characters that still belong to the last occurrence. -/
def substituteFrom (found? : Text → Option (Nat × Text)) : Nat → Text → Text
  | _, [] => []
  | skip + 1, _ :: text => substituteFrom found? skip text
  | 0, c :: text =>
    match found? (c :: text) with
    | some (length, replacement) => replacement ++ substituteFrom found? (length - 1) text
    | none => c :: substituteFrom found? 0 text

/-- Replaces what `found?` finds, from the left and without overlap. -/
def substitute (found? : Text → Option (Nat × Text)) (text : Text) : Text :=
  substituteFrom found? 0 text

/-- Replaces every occurrence of a non-empty pattern, from the left and without overlap. -/
def replaceAll (text pattern value : Text) : Text :=
  text.substitute fun rest => if rest.beginsWith pattern then some (pattern.length, value) else none

/-- The piece of a text from offset `start` to offset `stop`; empty when they are out of order. -/
def slice (text : Text) (start stop : Nat) : Text :=
  (text.take stop).drop start

/-- Joins texts with a separator between them. -/
def join (separator : Text) (pieces : List Text) : Text :=
  separator.intercalate pieces

/-- The characters of a text, unless a surrogate is among its code points. -/
def chars? (text : Text) : Option (List Char) :=
  text.mapM CodePoint.char?

end Text

end IntentModel
