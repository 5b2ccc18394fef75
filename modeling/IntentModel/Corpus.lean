import IntentModel.Template
import IntentModel.Value

/-! # The training corpus

What the compiler works on: intents with the templates of their sentences, the lists that templates
refer to, phrase lists, and builtin entities, which are handed through to the model.
-/

namespace IntentModel

structure Intent where
  name : Text
  templates : List Text
deriving DecidableEq, Repr

/-- Words that belong together. The service may take them for one another if they are
interchangeable. -/
structure Phraselist where
  name : Text
  words : List Text
  activated : Bool
  interchangeable : Bool
deriving DecidableEq, Repr

/-- A training corpus, in the order in which its parts were written. -/
structure Corpus where
  intents : List Intent
  lists : ValueLists
  phraselists : List Phraselist
  builtin : List Fields
deriving Repr, Inhabited

def Corpus.empty : Corpus :=
  ⟨[], [], [], []⟩

end IntentModel
