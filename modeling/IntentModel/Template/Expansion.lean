import IntentModel.Template.References

/-! # Expansion of templates

A template expands to the sentences that arise when its leftmost placeholder is replaced, in all its
places at once, by each value of its list in turn, and the results are expanded further. Values come
in the order of their list, so the order of the sentences is fixed: the leftmost placeholder varies
slowest.

A placeholder without a list and a list that leads back to itself end the expansion with an error,
which names the whole template. Where dollar signs and braces stand in complete placeholders only,
nothing else can go wrong. Other texts can put new placeholders together without end; the number of
replacements that follow on one another is therefore limited, and reaching the limit is an error
of its own.
-/

namespace IntentModel

/-- Why a template has no expansion. -/
inductive ExpansionError
  | unknownList (name template : Text)
  | cyclicList (name template : Text)
  | tooDeep (template : Text)
deriving DecidableEq, Repr

namespace ExpansionError

/-- The text of the error. -/
def message : ExpansionError → Text
  | unknownList name template =>
    "Unknown list '" ++ name ++ ("' referenced in sentence: " : Text) ++ template
  | cyclicList name template =>
    "List '" ++ name ++ ("' references itself while expanding: " : Text) ++ template
  | tooDeep template => "Too many replacements follow on one another in sentence: " ++ template

end ExpansionError

/-- Expands a sentence that arose from `template`, with at most `limit` replacements in a row. -/
def expandWithin (lists : ValueLists) (template : Text) :
    Nat → Text → Except ExpansionError (List Text)
  | limit, sentence =>
    match sentence.leftmostPlaceholder? with
    | none => .ok [sentence]
    | some name =>
      match lists.get? name with
      | none => .error (.unknownList name template)
      | some values =>
        if lists.leadsBack name then .error (.cyclicList name template)
        else
          match limit with
          | 0 => .error (.tooDeep template)
          | limit + 1 => do
            let expansions ← values.mapM fun value =>
              expandWithin lists template limit (sentence.fill name value)
            return expansions.flatten

/-- How many replacements may follow on one another. In a text made of complete placeholders no
more than `(n + 1) ^ (n + 1)` do when `n` lists are free of cycles; a further thousand is allowed
to texts that put placeholders together from pieces. -/
def replacementLimit (lists : ValueLists) : Nat :=
  Nat.pow (lists.length + 1) (lists.length + 1) + 1000

/-- The sentences that a template stands for, in order. -/
def expand (template : Text) (lists : ValueLists) : Except ExpansionError (List Text) :=
  expandWithin lists template (replacementLimit lists) template

end IntentModel
