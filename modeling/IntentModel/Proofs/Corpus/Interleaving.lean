import IntentModel.Compilation
import IntentModel.Proofs.Corpus.Sections
import IntentModel.Proofs.Value.Display
import IntentModel.Proofs.Value.Entries

/-! # Entries of different sections

What a section holds depends on its own entries only. A mapping has one entry at most for the phrase lists and
one for the builtin entities (`under_perm`), and intents and lists are taken from their entries in order, so
the entries of different sections may stand in any order (`ofValue_of_interleaved`).
-/

namespace IntentModel.Corpus

/-- The entries that define lists, in order. -/
def listEntries (entries : Entries) : Entries :=
  entries.filter fun entry => ("list." : Text) <+: entry.1.plain

/-- The entries of intents, in order: those of no other section. -/
def intentEntries (entries : Entries) : Entries :=
  entries.filter fun entry =>
    ¬("list." : Text) <+: entry.1.plain ∧ entry.1.plain ≠ ("phraselist" : Text) ∧
      entry.1.plain ≠ ("builtin" : Text)

/-- The same entries in two orders that agree on the entries of intents and on those that define lists. -/
structure Interleaved (entries others : Entries) : Prop where
  perm : entries.Perm others
  intents : intentEntries entries = intentEntries others
  lists : listEntries entries = listEntries others

instance (entries others : Entries) : Decidable (Interleaved entries others) :=
  decidable_of_iff (entries.Perm others ∧ intentEntries entries = intentEntries others ∧
      listEntries entries = listEntries others)
    ⟨fun ⟨perm, intents, lists⟩ => ⟨perm, intents, lists⟩,
      fun ⟨perm, intents, lists⟩ => ⟨perm, intents, lists⟩⟩

variable {entries others : Entries}

/-! ## Each section by itself -/

theorem prefix_list_iff {key : Text} :
    ("list." : Text) <+: key ↔ ∃ name, Section.ofKey key = .list name := by
  constructor
  · rintro ⟨written, rfl⟩
    exact ⟨listName written, ofKey_list written⟩
  · rintro ⟨name, own⟩
    rcases names_iff.mpr own with wrapped | ⟨plain, -⟩
    · exact ⟨_, wrapped.symm⟩
    · exact ⟨_, plain.symm⟩

/-- The definitions of lists come from their own entries. -/
theorem listRows_listEntries (entries : Entries) : listRows (listEntries entries) = listRows entries := by
  rw [listRows, listEntries, List.filterMap_filter, listRows]
  congr 1
  funext entry
  split_ifs with opening
  · rfl
  · cases own : Section.ofKey entry.1.plain with
    | list name => exact absurd (decide_eq_true (prefix_list_iff.mpr ⟨name, own⟩)) opening
    | _ => rfl

/-- The intents come from their own entries. -/
theorem intentsOf_intentEntries (entries : Entries) :
    intentsOf (intentEntries entries) = intentsOf entries := by
  rw [intentsOf, intentEntries, List.filterMap_filter, intentsOf]
  congr 1
  funext entry
  split_ifs with apart
  · rfl
  · cases own : Section.ofKey entry.1.plain with
    | intent =>
      have named : ¬("list." : Text) <+: entry.1.plain ∧ entry.1.plain ≠ ("phraselist" : Text) ∧
          entry.1.plain ≠ ("builtin" : Text) := names_iff.mpr own
      exact absurd (decide_eq_true named) apart
    | _ => rfl

/-- Different entries of a mapping have different keys, so a section of its own has one entry. -/
theorem subsingleton_of_section {name : Text} (own : name ∈ [("phraselist" : Text), ("builtin" : Text)])
    (distinct : entries.Pairwise fun a b => Entries.alike a b = false) :
    {entry | entry ∈ entries ∧ (entry.1.plain == name) = true}.Subsingleton := by
  have special : name ∈ [("list." : Text), ("phraselist" : Text), ("builtin" : Text)] :=
    List.mem_cons_of_mem _ own
  have written {entry : Value × Value} (named : (entry.1.plain == name) = true) :
      entry.1 = .text name := by
    have whole : entry.1.plain = name ++ [] := (eq_of_beq named).trans (List.append_nil name).symm
    rw [Value.eq_text_of_plain special whole, List.append_nil]
  have apart : entries.Pairwise fun a b => ¬(a.1 = .text name ∧ b.1 = .text name) := by
    apply distinct.imp
    rintro a b unlike ⟨first, second⟩
    rw [Entries.alike, first, second, Value.same, beq_self_eq_true] at unlike
    cases unlike
  rintro a ⟨first, one⟩ b ⟨second, other⟩
  exact eq_of_pairwise_not apart first second (written one) (written other)

/-- What stands under the name of a section does not depend on the order of a mapping. -/
theorem under_perm {name : Text} (own : name ∈ [("phraselist" : Text), ("builtin" : Text)])
    (perm : entries.Perm others)
    (distinct : entries.Pairwise fun a b => Entries.alike a b = false) :
    under name entries = under name others := by
  have turned : entries.reverse.Perm others.reverse :=
    (entries.reverse_perm.trans perm).trans others.reverse_perm.symm
  have single : {entry ∈ entries.reverse | (entry.1.plain == name) = true}.Subsingleton := by
    simpa using subsingleton_of_section own distinct
  rw [under, under, List.find?_eq_find?_of_perm turned single]

/-! ## All sections -/

theorem inFormat_iff_of_interleaved (interleaved : Interleaved entries others)
    (distinct : entries.Pairwise fun a b => Entries.alike a b = false) :
    InFormat (.map entries) ↔ InFormat (.map others) := by
  simp only [InFormat, Value.opened_map, interleaved.perm.mem_iff,
    under_perm (by simp : ("builtin" : Text) ∈ _) interleaved.perm distinct]

theorem reading_of_interleaved (interleaved : Interleaved entries others)
    (distinct : entries.Pairwise fun a b => Entries.alike a b = false) :
    reading (.map entries) = reading (.map others) := by
  simp only [reading, Value.opened_map, ← intentsOf_intentEntries entries, interleaved.intents,
    intentsOf_intentEntries, ← listRows_listEntries entries, interleaved.lists, listRows_listEntries,
    under_perm (by simp : ("builtin" : Text) ∈ _) interleaved.perm distinct,
    under_perm (by simp : ("phraselist" : Text) ∈ _) interleaved.perm distinct]

/-- Two mappings with the same entries, whose intents stand in the same order and whose lists do, describe the
same corpus if one of them describes any. It compiles to the same model, or fails in the same way, whichever
of them it is read from. -/
theorem ofValue_of_interleaved (interleaved : Interleaved entries others)
    (distinct : entries.Pairwise fun a b => Entries.alike a b = false) :
    (∀ corpus, ofValue (.map entries) = .ok corpus ↔ ofValue (.map others) = .ok corpus) ∧
    ∀ corpus other, ofValue (.map entries) = .ok corpus → ofValue (.map others) = .ok other →
      corpus = other ∧ ∀ settings culture generatedAt,
        corpus.compile settings culture generatedAt = other.compile settings culture generatedAt := by
  have same : ∀ corpus, ofValue (.map entries) = .ok corpus ↔ ofValue (.map others) = .ok corpus := by
    intro corpus
    rw [ofValue_eq_ok_iff, ofValue_eq_ok_iff, inFormat_iff_of_interleaved interleaved distinct,
      reading_of_interleaved interleaved distinct]
  refine ⟨same, ?_⟩
  intro corpus other made read
  cases ((same corpus).mp made).symm.trans read
  exact ⟨rfl, fun _ _ _ => rfl⟩

/-- A mapping in which the sections take turns, with a list that is defined in two spellings. -/
def takingTurns : Entries :=
  [(.text "list.a", .list [.text "x"]), (.text "hi", .list [.text "$\x7ba\x7d"]),
    (.text "builtin", .list [.text "n"]), (.text "list.$\x7ba\x7d", .list [.text "y"]), (.int 3, .null),
    (.text "phraselist", .list [.map [(.text "name", .text "p")]])]

def bySection : Entries :=
  [(.text "phraselist", .list [.map [(.text "name", .text "p")]]), (.text "builtin", .list [.text "n"]),
    (.text "hi", .list [.text "$\x7ba\x7d"]), (.int 3, .null), (.text "list.a", .list [.text "x"]),
    (.text "list.$\x7ba\x7d", .list [.text "y"])]

theorem ofValue_of_interleaved_takingTurns :
    Interleaved takingTurns bySection ∧
      (takingTurns.Pairwise fun a b => Entries.alike a b = false) ∧
      ofValue (.map bySection) = .ok {
        intents := [⟨"hi", ["$\x7ba\x7d"]⟩, ⟨"3", []⟩]
        lists := [("a", ["y"])]
        phraselists := [⟨"p", [], true, true⟩]
        builtin := [[("name", .text "n")]] } := by
  have interleaved : Interleaved takingTurns bySection := by decide +kernel
  have distinct : takingTurns.Pairwise fun a b => Entries.alike a b = false := by decide +kernel
  have made : ofValue (.map takingTurns) = .ok {
      intents := [⟨"hi", ["$\x7ba\x7d"]⟩, ⟨"3", []⟩]
      lists := [("a", ["y"])]
      phraselists := [⟨"p", [], true, true⟩]
      builtin := [[("name", .text "n")]] } := by decide +kernel
  exact ⟨interleaved, distinct, ((ofValue_of_interleaved interleaved distinct).1 _).mp made⟩

end IntentModel.Corpus
