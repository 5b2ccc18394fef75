import IntentModel.Proofs.Value.Keys
import Mathlib.Data.List.Find

/-! # Entries put in order

Entries that are put one after the other make a mapping with one entry for each of their keys: it stands
where the key came first, in the form that the key had there, and has the value that the key was given
last (`putAll_eq_merged`).
-/

namespace IntentModel.Entries

def alike (a b : Value × Value) : Bool :=
  a.1.same b.1

/-- The entries of a mapping as it can be written: plain keys, no two of them equal. -/
structure Regular (entries : Entries) : Prop where
  plain : ∀ entry ∈ entries, entry.1.IsPlainKey
  distinct : entries.Pairwise fun a b => alike a b = false

/-- Each key once, as it came first, with the value that it was given last. -/
def merged (rows : Entries) : Entries :=
  (firsts alike rows).map fun row => (row.1, (lastLike alike rows row).2)

theorem put_eq_upsert (key value : Value) (entries : Entries) :
    put key value entries =
      upsert (·.1.same key) (fun entry => (entry.1, value)) (key, value) entries := by
  induction entries with
  | nil => rfl
  | cons entry entries ih =>
    rw [put, upsert, ih]

theorem coherent {rows : Entries} (plain : ∀ row ∈ rows, row.1.IsPlainKey) : Coherent alike rows :=
  Value.coherent_keys plain

theorem ofList_eq_merged {rows : Entries} (plain : ∀ row ∈ rows, row.1.IsPlainKey) :
    ofList rows = merged rows := by
  rw [ofList, putAll, merged]
  simp only [put_eq_upsert]
  apply foldl_upsert_last fun (first last : Value × Value) => (first.1, last.2)
  · intro first last row
    rfl
  · intro first last row
    rfl
  · intro row
    rfl
  · exact coherent plain

/-- What is put in order is regular. -/
theorem regular_ofList {rows : Entries} (plain : ∀ row ∈ rows, row.1.IsPlainKey) :
    (ofList rows).Regular := by
  rw [ofList_eq_merged plain]
  constructor
  · intro entry member
    obtain ⟨row, among, rfl⟩ := List.mem_map.mp member
    exact plain row (mem_of_mem_firsts among)
  · exact List.pairwise_map.mpr (pairwise_firsts rows)

/-- Entries of a mapping that have the same key are one entry. -/
theorem Regular.eq_of_same {entries : Entries} (regular : entries.Regular) {key : Value}
    (plain : key.IsPlainKey) {a b : Value × Value} (first : a ∈ entries) (second : b ∈ entries)
    (one : key.same a.1 = true) (other : key.same b.1 = true) : a = b := by
  have apart : entries.Pairwise fun a b => ¬(key.same a.1 = true ∧ key.same b.1 = true) := by
    apply regular.distinct.imp_of_mem
    intro a b first second distinct both
    have back := Value.same_symm plain both.1
    have like := Value.same_trans (regular.plain a first) (regular.plain b second) back both.2
    rw [alike, like] at distinct
    cases distinct
  exact eq_of_pairwise_not apart first second one other

theorem get?_eq_find? (key : Value) (entries : Entries) :
    get? key entries = (entries.find? (·.1.same key)).map (·.2) := by
  induction entries with
  | nil => rfl
  | cons entry entries ih =>
    rw [get?, List.find?_cons]
    cases entry.1.same key with
    | true => rfl
    | false => exact ih

/-- In a mapping the last entry of a key is the only one. -/
theorem get?_eq_last {entries : Entries} (regular : entries.Regular) {row : Value × Value}
    (plain : row.1.IsPlainKey) :
    (entries.reverse.find? (alike row)).map (·.2) = get? row.1 entries := by
  have single : {entry ∈ entries.reverse | alike row entry}.Subsingleton := by
    rintro a ⟨first, one⟩ b ⟨second, other⟩
    rw [List.mem_reverse] at first second
    exact regular.eq_of_same plain first second one other
  rw [List.find?_eq_find?_of_perm entries.reverse_perm single, get?_eq_find?]
  congr 1
  apply List.find?_congr
  intro entry member
  rw [Bool.eq_iff_iff]
  exact ⟨Value.same_symm plain, Value.same_symm (regular.plain entry member)⟩

end IntentModel.Entries
