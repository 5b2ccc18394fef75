import IntentModel.Proofs.Value.Entries
import IntentModel.Value.Display
import IntentModel.Value.Tangle
import Mathlib.Data.List.Basic
import Mathlib.Tactic.SplitIfs

/-! # Values that contain themselves

A value is filled in part by part, so a mapping keeps its keys. The parts of a value that can be shown can be
shown, also where they stand in its cells (`Value.isShowable_opened`). Cells are closed if no link leads out
of them. Then the cells that are reached from one of them are closed as well (`Cells.Closed.within`), and what
is found by way of them is a collection with the keys of its cell (`Cells.Closed.isCell_settle`).
-/

namespace IntentModel

namespace Value

@[simp]
theorem opened_map (entries : List (Value × Value)) : (map entries).opened = map entries :=
  rfl

section

variable {link : Form → Nat → Value} {tangle : Cells → Form → Nat → Value}

theorem fillItems_eq_map (items : List Value) :
    fillItems link tangle items = items.map (fill link tangle) := by
  induction items with
  | nil => rfl
  | cons item items ih => rw [fillItems, ih, List.map_cons]

theorem fillEntries_eq_map (entries : List (Value × Value)) :
    fillEntries link tangle entries = entries.map fun entry => (entry.1, entry.2.fill link tangle) := by
  induction entries with
  | nil => rfl
  | cons entry entries ih => rw [fillEntries, ih, List.map_cons]

end

/-! ## Parts that can be shown -/

theorem areShowable_iff (items : List Value) :
    areShowable items = true ↔ ∀ item ∈ items, item.isShowable = true := by
  induction items with
  | nil => simp [areShowable]
  | cons item items ih => rw [areShowable, Bool.and_eq_true, ih, List.forall_mem_cons]

theorem haveShowable_iff (entries : List (Value × Value)) :
    haveShowable entries = true ↔
      ∀ entry ∈ entries, entry.1.isShowable = true ∧ entry.2.isShowable = true := by
  induction entries with
  | nil => simp [haveShowable]
  | cons entry entries ih =>
    rw [haveShowable, Bool.and_eq_true, Bool.and_eq_true, ih, List.forall_mem_cons]

theorem holdShowable_iff (cells : Cells) :
    holdShowable cells = true ↔ ∀ cell ∈ cells, cell.2.isShowable = true := by
  induction cells with
  | nil => simp [holdShowable]
  | cons cell cells ih => rw [holdShowable, Bool.and_eq_true, ih, List.forall_mem_cons]

mutual

/-- Where links are filled in by what can be shown, the value can be shown as before. -/
theorem isShowable_fill {link : Form → Nat → Value}
    (shows : ∀ form place, (link form place).isShowable = true) :
    ∀ value : Value, value.isShowable = true → (value.fill link .tangle).isShowable = true
  | .null => fun _ => rfl
  | .bool _ => fun _ => rfl
  | .int _ => id
  | .float _ => fun _ => rfl
  | .text _ => fun _ => rfl
  | .date _ => fun _ => rfl
  | .moment _ => fun _ => rfl
  | .bytes _ => fun _ => rfl
  | .set _ => id
  | .tangle .. => id
  | .link form place => fun _ => shows form place
  | .list items => areShowable_fillItems shows items
  | .tuple items => areShowable_fillItems shows items
  | .map entries => haveShowable_fillEntries shows entries

theorem areShowable_fillItems {link : Form → Nat → Value}
    (shows : ∀ form place, (link form place).isShowable = true) :
    ∀ items : List Value, areShowable items = true → areShowable (fillItems link .tangle items) = true
  | [] => id
  | item :: items => by
    intro whole
    rw [areShowable, Bool.and_eq_true] at whole
    rw [fillItems, areShowable, Bool.and_eq_true]
    exact ⟨isShowable_fill shows item whole.1, areShowable_fillItems shows items whole.2⟩

theorem haveShowable_fillEntries {link : Form → Nat → Value}
    (shows : ∀ form place, (link form place).isShowable = true) :
    ∀ entries : List (Value × Value), haveShowable entries = true →
      haveShowable (fillEntries link .tangle entries) = true
  | [] => id
  | (key, value) :: entries => by
    intro whole
    rw [haveShowable, Bool.and_eq_true, Bool.and_eq_true] at whole
    rw [fillEntries, haveShowable, Bool.and_eq_true, Bool.and_eq_true]
    exact ⟨⟨whole.1.1, isShowable_fill shows value whole.1.2⟩, haveShowable_fillEntries shows entries whole.2⟩

end

end Value

namespace Cells

variable {cells : Cells} {form : Form} {place : Nat} {cell : Value}

theorem mem_of_lookup (found : cells.lookup place = some cell) : (place, cell) ∈ cells := by
  induction cells with
  | nil => cases found
  | cons first cells ih =>
    obtain ⟨spot, other⟩ := first
    rw [List.lookup_cons] at found
    split at found
    · next here =>
      cases found
      rw [eq_of_beq here]
      exact List.mem_cons_self
    · exact List.mem_cons_of_mem _ (ih found)

theorem isShowable_unfold (shows : ∀ cell ∈ cells, cell.2.isShowable = true) (steps : Nat) (way : List Nat)
    (form : Form) (place : Nat) : (cells.unfold steps way form place).isShowable = true := by
  induction steps generalizing way form place with
  | zero => rfl
  | succ steps ih =>
    rw [unfold]
    split_ifs
    · rfl
    · cases found : cells.lookup place with
      | none => rfl
      | some cell => exact Value.isShowable_fill (ih _) cell (shows _ (mem_of_lookup found))

theorem isShowable_settle (shows : ∀ cell ∈ cells, cell.2.isShowable = true) (form : Form) (place : Nat) :
    (cells.settle form place).isShowable = true := by
  unfold settle
  dsimp only
  split_ifs
  · exact isShowable_unfold shows _ _ _ _
  · exact (Value.holdShowable_iff _).mpr fun cell reached => shows cell (List.mem_of_mem_filter reached)

end Cells

namespace Value

/-- The parts of a value that can be shown can be shown. -/
theorem isShowable_opened {value : Value} (whole : value.isShowable = true) :
    value.opened.isShowable = true := by
  unfold opened
  split
  · next cells form place =>
    have shows := (holdShowable_iff cells).mp whole
    split
    · next cell found =>
      exact isShowable_fill (Cells.isShowable_settle shows) cell (shows _ (Cells.mem_of_lookup found))
    · rfl
  · exact whole

theorem isShowable_of_mem {value item : Value} {items : List Value} (shape : value.opened = list items)
    (member : item ∈ items) (whole : value.isShowable = true) : item.isShowable = true := by
  have shows := isShowable_opened whole
  rw [shape] at shows
  exact (areShowable_iff items).mp shows item member

theorem isShowable_of_mem_entries {value : Value} {entries : List (Value × Value)} {entry : Value × Value}
    (shape : value.opened = map entries) (member : entry ∈ entries) (whole : value.isShowable = true) :
    entry.1.isShowable = true ∧ entry.2.isShowable = true := by
  have shows := isShowable_opened whole
  rw [shape] at shows
  exact (haveShowable_iff entries).mp shows entry member

theorem isShowable_of_field? {value part : Value} {entries : Entries} {name : Text}
    (shape : value.opened = map entries) (found : Entries.field? name entries = some part)
    (whole : value.isShowable = true) : part.isShowable = true := by
  rw [Entries.field?, Entries.get?_eq_find?] at found
  obtain ⟨entry, first, rfl⟩ := Option.map_eq_some_iff.mp found
  exact (isShowable_of_mem_entries shape (List.mem_of_find?_eq_some first) whole).2

end Value

/-! ## Mappings among cells -/

theorem Entries.Regular.fill {entries : Entries} (regular : entries.Regular) (link : Form → Nat → Value)
    (tangle : Cells → Form → Nat → Value) : Entries.Regular (Value.fillEntries link tangle entries) := by
  rw [Value.fillEntries_eq_map]
  constructor
  · intro entry member
    obtain ⟨own, among, rfl⟩ := List.mem_map.mp member
    exact regular.plain own among
  · exact List.pairwise_map.mpr regular.distinct

/-- A collection, which has regular entries if it is a mapping. -/
def Value.IsCell : Value → Prop
  | .list _ => True
  | .tuple _ => True
  | .set _ => True
  | .map entries => Entries.Regular entries
  | _ => False

namespace Value.IsCell

variable {cell : Value}

theorem opened_eq (own : cell.IsCell) : cell.opened = cell := by
  cases cell with
  | tangle cells form place => cases own
  | _ => rfl

theorem fill (own : cell.IsCell) (link : Form → Nat → Value) (tangle : Cells → Form → Nat → Value) :
    (cell.fill link tangle).IsCell := by
  cases cell with
  | list items => trivial
  | tuple items => trivial
  | set items => trivial
  | map entries => exact Entries.Regular.fill own link tangle
  | _ => cases own

end Value.IsCell

namespace Cells

variable {cells : Cells} {form : Form} {place : Nat}

/-- All cells are collections, and the mappings among them are regular. -/
def Sound (cells : Cells) : Prop :=
  ∀ cell ∈ cells, cell.2.IsCell

/-! ## Closed cells -/

/-- There is a cell for a place. -/
def Has (cells : Cells) (place : Nat) : Prop :=
  place ∈ cells.map (·.1)

theorem has_iff : cells.Has place ↔ ∃ cell ∈ cells, cell.1 = place :=
  List.mem_map

/-- Every link leads to a cell. -/
def Closed (cells : Cells) : Prop :=
  ∀ cell ∈ cells, ∀ place ∈ cell.2.links, cells.Has place

/-- The links of the cells at the places lead to these places. -/
def ClosedAt (cells : Cells) (places : List Nat) : Prop :=
  ∀ cell ∈ cells, cell.1 ∈ places → cell.2.links ⊆ places

variable {places others : List Nat}

/-- One more step along links. -/
theorem mem_step {target : Nat} :
    target ∈ (places ++ (cells.filter fun cell => places.contains cell.1).flatMap (·.2.links)).eraseDups ↔
      target ∈ places ∨ ∃ cell ∈ cells, cell.1 ∈ places ∧ target ∈ cell.2.links := by
  simp [and_assoc]

theorem subset_reach (cells : Cells) (steps : Nat) (places : List Nat) :
    places ⊆ cells.reach steps places := by
  induction steps generalizing places with
  | zero => exact List.Subset.refl _
  | succ steps ih => exact fun target member => ih _ (mem_step.mpr (.inl member))

theorem ClosedAt.reach (closed : cells.ClosedAt places) (steps : Nat) :
    cells.ClosedAt (cells.reach steps places) := by
  induction steps generalizing places with
  | zero => exact closed
  | succ steps ih =>
    apply ih
    intro cell among member target link
    rw [mem_step] at member ⊢
    obtain own | ⟨other, listed, there, back⟩ := member
    · exact .inr ⟨cell, among, own, link⟩
    · exact .inr ⟨cell, among, closed other listed there back, link⟩

/-- There are more cells at more places if one of these has a cell. -/
theorem length_filter_lt (more : places ⊆ others) {cell : Nat × Value} (among : cell ∈ cells)
    (new : cell.1 ∈ others) (fresh : cell.1 ∉ places) :
    (cells.filter fun cell => places.contains cell.1).length <
      (cells.filter fun cell => others.contains cell.1).length := by
  have nested : (cells.filter fun cell => places.contains cell.1) =
      (cells.filter fun cell => others.contains cell.1).filter fun cell => places.contains cell.1 := by
    rw [List.filter_filter]
    apply List.filter_congr
    intro other _
    have within : places.contains other.1 = true → others.contains other.1 = true := by
      simpa only [List.contains_iff_mem] using fun member => more member
    cases own : places.contains other.1 with
    | true => rw [within own, Bool.and_true]
    | false => rw [Bool.false_and]
  rw [nested, List.length_filter_lt_length_iff_exists]
  exact ⟨cell, List.mem_filter.mpr ⟨among, List.contains_iff_mem.mpr new⟩, mt List.contains_iff_mem.mp fresh⟩

/-- As many steps as there are cells outside of the places are enough. -/
theorem Closed.reach (closed : cells.Closed) {steps : Nat}
    (enough : cells.length ≤ steps + (cells.filter fun cell => places.contains cell.1).length) :
    cells.ClosedAt (cells.reach steps places) := by
  induction steps generalizing places with
  | zero =>
    have all : ∀ cell ∈ cells, places.contains cell.1 = true := by
      rw [← List.length_filter_eq_length_iff]
      exact Nat.le_antisymm (List.length_filter_le _ _) (by simpa using enough)
    intro cell among _ target link
    obtain ⟨other, listed, rfl⟩ := has_iff.mp (closed cell among target link)
    exact List.contains_iff_mem.mp (all other listed)
  | succ steps ih =>
    by_cases done : cells.ClosedAt places
    · exact done.reach (steps + 1)
    · simp only [ClosedAt, List.subset_def, not_forall] at done
      obtain ⟨cell, among, member, target, link, fresh⟩ := done
      obtain ⟨other, listed, rfl⟩ := has_iff.mp (closed cell among target link)
      have grown := length_filter_lt (fun _ own => mem_step.mpr (.inl own)) listed
        (mem_step.mpr (.inr ⟨cell, among, member, link⟩)) fresh
      apply ih
      omega

/-- The cells that are reached from one of closed cells are closed, and it is one of them. -/
theorem Closed.within (closed : cells.Closed) (has : cells.Has place) :
    (cells.within place).Closed ∧ (cells.within place).Has place := by
  have start : place ∈ cells.reach cells.length [place] := subset_reach _ _ _ (List.mem_singleton_self _)
  have steady : cells.ClosedAt (cells.reach cells.length [place]) := closed.reach (Nat.le_add_right _ _)
  have kept {target : Nat} (reached : target ∈ cells.reach cells.length [place]) (own : cells.Has target) :
      (cells.within place).Has target := by
    obtain ⟨cell, among, rfl⟩ := has_iff.mp own
    exact has_iff.mpr ⟨cell, List.mem_filter.mpr ⟨among, List.contains_iff_mem.mpr reached⟩, rfl⟩
  refine ⟨?_, kept start has⟩
  intro cell member target link
  obtain ⟨among, reached⟩ := List.mem_filter.mp member
  exact kept (steady cell among (List.contains_iff_mem.mp reached) link) (closed cell among target link)

theorem exists_lookup_of_has (has : cells.Has place) : ∃ cell, cells.lookup place = some cell := by
  induction cells with
  | nil => cases has
  | cons first cells ih =>
    rw [List.lookup_cons]
    split
    · exact ⟨_, rfl⟩
    · next other =>
      obtain here | later := List.mem_cons.mp has
      · rw [here, beq_self_eq_true] at other
        cases other
      · exact ih later

/-- Among closed cells the value of a collection opens to a collection. -/
theorem Closed.isCell_settle (closed : cells.Closed) (sound : cells.Sound) (has : cells.Has place) :
    (cells.settle form place).opened.IsCell := by
  unfold Cells.settle
  dsimp only
  split_ifs
  · obtain ⟨cell, found⟩ := exists_lookup_of_has has
    have own : (cells.tree form place).IsCell := by
      rw [Cells.tree, unfold, List.contains_nil, if_neg Bool.false_ne_true, found]
      exact (sound _ (mem_of_lookup found)).fill _ _
    rwa [own.opened_eq]
  · obtain ⟨cell, found⟩ := exists_lookup_of_has (closed.within has).2
    rw [Value.opened, found]
    exact (sound _ (List.mem_of_mem_filter (mem_of_lookup found))).fill _ _

end Cells

end IntentModel
