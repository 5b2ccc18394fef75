import IntentModel.Proofs.Outcome
import IntentModel.Proofs.Value.Tangle
import IntentModel.Yaml.Load

/-! # Keys of a written mapping

The keys of a mapping that is read from a text are scalars, and no two of them are equal: a collection
is refused as a key, and entries are put in order. So all cells are sound (`Filling.sound_finish`).
The numbers among the keys are reduced, however they are written (`isReduced_of_floatingValue`).
-/

namespace IntentModel.Yaml

theorem isReduced_addSixtieths {parts : List Binary64} {unit : Nat} {sum number : Binary64}
    (reduced : sum.IsReduced) (read : addSixtieths parts unit sum = .ok number) :
    number.IsReduced := by
  induction parts generalizing unit sum with
  | nil =>
    cases read
    exact reduced
  | cons part parts ih =>
    rw [addSixtieths] at read
    split at read
    · cases read
    · exact ih (Binary64.isReduced_add _ _) read

/-- A floating-point number without its sign, in small letters. -/
def floatingMagnitude (digits : Text) : Except Fault Binary64 :=
  if digits = (".inf" : Text) then .ok (.infinite false)
  else
    match (digits.splitOn (.char ':')).mapM Binary64.ofText? with
    | none => .error .noSuchValue
    | some [number] => .ok number
    | some parts => addSixtieths parts.reverse 1 (.zero false)

theorem floatingValue_eq (content : Text) :
    floatingValue content =
      if (content.filter (· != .char '_')).isEmpty then .error .noDigits
      else if (splitSign content).2.lower = (".nan" : Text) then .ok (.nan true)
      else floatingMagnitude (splitSign content).2.lower >>= fun magnitude =>
        .ok (if (splitSign content).1 then magnitude.negate else magnitude) := by
  unfold floatingValue floatingMagnitude
  dsimp only
  split_ifs
  all_goals first | rfl | skip
  all_goals
    cases ((splitSign content).2.lower.splitOn (.char ':')).mapM Binary64.ofText? with
    | none => rfl
    | some parts =>
      cases parts with
      | nil => rfl
      | cons first rest =>
        cases rest with
        | nil => rfl
        | cons second rest => rfl

theorem isReduced_of_floatingMagnitude {digits : Text} {number : Binary64}
    (read : floatingMagnitude digits = .ok number) : number.IsReduced := by
  rw [floatingMagnitude] at read
  split_ifs at read
  · cases read
    trivial
  · split at read
    · cases read
    · next single parts =>
      cases read
      cases written : digits.splitOn (.char ':') with
      | nil =>
        rw [written] at parts
        cases parts
      | cons part rest =>
        rw [written, List.mapM_cons] at parts
        obtain ⟨first, own, parts⟩ := Option.bind_eq_some_iff.mp parts
        obtain ⟨others, -, whole⟩ := Option.bind_eq_some_iff.mp parts
        cases whole
        exact Binary64.isReduced_of_ofText? own
    · exact isReduced_addSixtieths (Binary64.isReduced_zero false) read

theorem isReduced_of_floatingValue {content : Text} {number : Binary64}
    (read : floatingValue content = .ok number) : number.IsReduced := by
  rw [floatingValue_eq] at read
  by_cases empty : (content.filter (· != .char '_')).isEmpty = true
  · rw [if_pos empty] at read
    cases read
  · rw [if_neg empty] at read
    split at read
    · cases read
      trivial
    · obtain ⟨magnitude, found, final⟩ := bind_eq_ok_iff.mp read
      have reduced := isReduced_of_floatingMagnitude found
      cases final
      split
      · exact reduced.negate
      · exact reduced

theorem isPlainKey_of_timeValue {content : Text} {value : Value}
    (read : timeValue content = .ok value) : value.IsPlainKey := by
  rw [timeValue] at read
  split at read
  · cases read
  · next parts _ =>
    dsimp only at read
    split at read
    · obtain ⟨day, -, final⟩ := bind_eq_ok_iff.mp read
      cases final
      trivial
    · obtain ⟨day, -, read⟩ := bind_eq_ok_iff.mp read
      obtain ⟨time, -, final⟩ := bind_eq_ok_iff.mp read
      cases final
      trivial

/-- The value of a scalar is a plain key. -/
theorem isPlainKey_of_scalarValue {kind : Kind} {content : Text} {value : Value}
    (read : kind.scalarValue content = .ok value) : value.IsPlainKey := by
  cases kind with
  | null =>
    cases read
    trivial
  | bool =>
    obtain ⟨truth, -, rfl⟩ := map_eq_ok_iff.mp read
    trivial
  | int =>
    obtain ⟨number, -, rfl⟩ := map_eq_ok_iff.mp read
    trivial
  | float =>
    obtain ⟨number, found, rfl⟩ := map_eq_ok_iff.mp read
    exact isReduced_of_floatingValue found
  | binary =>
    obtain ⟨bytes, -, rfl⟩ := map_eq_ok_iff.mp read
    trivial
  | time => exact isPlainKey_of_timeValue read
  | str =>
    cases read
    trivial
  | _ => cases read

namespace Nodes

variable {nodes : Nodes} {place : Nat}

/-- The value of a node of a kind that scalars have is that of some scalar of the kind. -/
theorem isPlainKey_of_scalarValue {kind : Kind} {value : Value}
    (read : nodes.scalarValue kind place = .ok value) : value.IsPlainKey := by
  obtain ⟨content, -, read⟩ := bind_eq_ok_iff.mp read
  dsimp only at read
  split at read
  · cases read
  · exact Yaml.isPlainKey_of_scalarValue read

/-- A part of a collection is a link or the value of a scalar. -/
theorem part_eq_ok {value : Value} (read : nodes.part place = .ok value) :
    (∃ form, (nodes.kindAt place).form? = some form ∧ value = .link form place) ∨
      (nodes.kindAt place).form? = none ∧ value.IsPlainKey := by
  unfold part at read
  split at read
  · next form collection =>
    cases read
    exact .inl ⟨form, collection, rfl⟩
  · next single => exact .inr ⟨single, isPlainKey_of_scalarValue read⟩

/-- The key of an entry is a scalar. -/
theorem isPlainKey_of_row {entry : Nat × Nat} {made : Value × Value} (read : nodes.row entry = .ok made) :
    made.1.IsPlainKey := by
  unfold row at read
  split at read
  · cases read
  · next single =>
    obtain ⟨key, own, read⟩ := bind_eq_ok_iff.mp read
    obtain ⟨item, -, read⟩ := bind_eq_ok_iff.mp read
    cases read
    obtain ⟨form, collection, -⟩ | ⟨-, plain⟩ := part_eq_ok own
    · rw [collection] at single
      cases single rfl
    · exact plain

end Nodes

namespace Filling

variable {filling next : Filling} {place : Nat}

@[simp]
theorem cells_meet (filling : Filling) (parts : List Value) : (filling.meet parts).cells = filling.cells := by
  unfold meet
  generalize parts.flatMap Value.links = places
  induction places generalizing filling with
  | nil => rfl
  | cons place places ih =>
    rw [List.foldl_cons, ih, meetAt]
    split <;> rfl

theorem sound_put (sound : filling.cells.Sound) {cell : Value} (own : cell.IsCell) :
    (filling.put place cell).cells.Sound :=
  List.forall_mem_cons.mpr ⟨own, sound⟩

theorem sound_putPairs (sound : filling.cells.Sound) (pairs : List (Value × Value)) :
    (filling.putPairs place pairs).cells.Sound := by
  refine List.forall_mem_cons.mpr ⟨trivial, List.forall_mem_append.mpr ⟨?_, sound⟩⟩
  intro cell member
  obtain ⟨numbered, -, rfl⟩ := List.mem_map.mp member
  trivial

/-- Rows have plain keys, and no cell is filled where they are made. -/
theorem rows_eq_ok {rows : List (Value × Value)} (read : filling.rows place = .ok (rows, next)) :
    (∀ row ∈ rows, row.1.IsPlainKey) ∧ next.cells = filling.cells := by
  obtain ⟨nodes, -, read⟩ := bind_eq_ok_iff.mp read
  obtain ⟨own, made, read⟩ := bind_eq_ok_iff.mp read
  cases read
  refine ⟨?_, cells_meet _ _⟩
  obtain ⟨result, each, rfl⟩ := exists_of_mapM_eq_ok made
  exact List.forall_mem_map.mpr fun entry member => Nodes.isPlainKey_of_row (each entry member)

/-- Filling a collection adds sound cells. -/
theorem sound_fill (sound : filling.cells.Sound) (read : filling.fill place = .ok next) :
    next.cells.Sound := by
  unfold fill at read
  split at read
  · obtain ⟨parts, -, read⟩ := bind_eq_ok_iff.mp read
    cases read
    exact sound_put (by rwa [cells_meet]) trivial
  · obtain ⟨pairs, -, read⟩ := bind_eq_ok_iff.mp read
    cases read
    exact sound_putPairs (by rwa [cells_meet]) pairs
  · obtain ⟨⟨rows, later⟩, made, read⟩ := bind_eq_ok_iff.mp read
    obtain ⟨plain, same⟩ := rows_eq_ok made
    cases read
    exact sound_put (same ▸ sound) (Entries.regular_ofList plain)
  · obtain ⟨⟨rows, later⟩, made, read⟩ := bind_eq_ok_iff.mp read
    obtain ⟨-, same⟩ := rows_eq_ok made
    cases read
    exact sound_put (same ▸ sound) trivial
  · cases read

theorem sound_finish {steps : Nat} (sound : filling.cells.Sound) (read : filling.finish steps = .ok next) :
    next.cells.Sound := by
  induction steps generalizing filling with
  | zero =>
    cases read
    exact sound
  | succ steps ih =>
    unfold finish at read
    split at read
    · cases read
      exact sound
    · obtain ⟨later, filled, read⟩ := bind_eq_ok_iff.mp read
      exact ih (sound_fill (by exact sound) filled) read

end Filling

end IntentModel.Yaml
