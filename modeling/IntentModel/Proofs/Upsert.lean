import Mathlib.Data.List.Find
import Mathlib.Data.List.Induction
import Mathlib.Data.List.Nodup
import Mathlib.Data.List.Pairwise
import Mathlib.Tactic.SplitIfs

/-! # One entry for all items that are alike

A table takes items one after the other: an item changes the entry that fits it, and where none does a
new entry comes to the end. When likeness is an equivalence as far as the items go, the table holds one
entry for each item that is like none before it, in the order of these items, and each entry has been
changed by all items like its first (`foldl_upsert`). Catalogs, mappings and the lists of a corpus are
tables of this kind.
-/

namespace IntentModel

variable {α β : Type}

/-- Where no two items have a property, it is of one item at most. -/
theorem eq_of_pairwise_not {Has : α → Prop} {items : List α}
    (single : items.Pairwise fun a b => ¬(Has a ∧ Has b)) {a b : α} (first : a ∈ items)
    (second : b ∈ items) (one : Has a) (other : Has b) : a = b := by
  by_contra different
  have symmetric : Std.Symm fun a b : α => ¬(Has a ∧ Has b) := ⟨fun _ _ none both => none both.symm⟩
  exact single.forall first second different ⟨one, other⟩

/-- Changes the first entry that fits, or puts a new one at the end. -/
def upsert (fits : β → Bool) (change : β → β) (new : β) : List β → List β
  | [] => [new]
  | entry :: table =>
    if fits entry then change entry :: table else entry :: upsert fits change new table

section Upsert

variable {fits : β → Bool} {change : β → β} {new : β} {table : List β}

theorem upsert_eq_append (none : ∀ entry ∈ table, fits entry = false) :
    upsert fits change new table = table ++ [new] := by
  induction table with
  | nil => rfl
  | cons entry table ih =>
    obtain ⟨own, others⟩ := List.forall_mem_cons.mp none
    rw [upsert, own, ih others]
    rfl

/-- Where one entry fits and no other does, that one is changed. -/
theorem upsert_eq_map (single : table.Pairwise fun a b => ¬(fits a = true ∧ fits b = true))
    (some : ∃ entry ∈ table, fits entry = true) :
    upsert fits change new table =
      table.map fun entry => if fits entry then change entry else entry := by
  induction table with
  | nil =>
    obtain ⟨entry, absent, -⟩ := some
    cases absent
  | cons first table ih =>
    obtain ⟨alone, rest⟩ := List.pairwise_cons.mp single
    rw [upsert, List.map_cons]
    split_ifs with own
    · have kept : table.map (fun entry => if fits entry then change entry else entry) = table := by
        apply (List.map_congr_left _).trans (List.map_id table)
        intro entry member
        rw [if_neg fun other => alone entry member ⟨own, other⟩]
        rfl
      rw [kept]
    · obtain ⟨entry, member, fit⟩ := some
      rcases List.mem_cons.mp member with rfl | later
      · exact absurd fit own
      · rw [ih rest ⟨entry, later, fit⟩]

end Upsert

/-! ## The first of items that are alike -/

/-- The items that are like none before them, in order. -/
def firsts (alike : α → α → Bool) (items : List α) : List α :=
  items.eraseDupsBy fun later earlier => alike earlier later

/-- Likeness behaves as an equality as far as the items go; an item need not be like itself. -/
structure Coherent (alike : α → α → Bool) (items : List α) : Prop where
  symm : ∀ a ∈ items, ∀ b ∈ items, alike a b = true → alike b a = true
  trans : ∀ a ∈ items, ∀ b ∈ items, ∀ c ∈ items,
    alike a b = true → alike b c = true → alike a c = true

/-- Items with equal names are alike in a coherent way. -/
theorem coherent_of_name [BEq β] [LawfulBEq β] (name : α → β) (items : List α) :
    Coherent (fun a b => name a == name b) items where
  symm a _ b _ same := by
    rw [beq_iff_eq] at same ⊢
    exact same.symm
  trans a _ b _ c _ first second := by
    rw [beq_iff_eq] at first second ⊢
    exact first.trans second

section Firsts

variable {alike : α → α → Bool} {items : List α}

theorem firsts_cons (item : α) (items : List α) :
    firsts alike (item :: items) = item :: firsts alike (items.filter fun other => !alike item other) := by
  simp [firsts, List.eraseDupsBy_cons]

/-- What is shown of lists by taking the first item and then going on with those that are not like
it. -/
theorem induction_on_firsts (alike : α → α → Bool) {motive : List α → Prop} (nil : motive [])
    (cons : ∀ item items, motive (items.filter fun other => !alike item other) →
      motive (item :: items))
    (items : List α) : motive items := by
  induction length : items.length using Nat.strongRecOn generalizing items with
  | ind size ih =>
    cases items with
    | nil => exact nil
    | cons item items =>
      have shorter := List.length_filter_le (fun other => !alike item other) items
      rw [List.length_cons] at length
      exact cons item items (ih _ (by omega) _ rfl)

theorem mem_of_mem_firsts {item : α} (member : item ∈ firsts alike items) : item ∈ items := by
  induction items using induction_on_firsts alike with
  | nil => exact member
  | cons first items ih =>
    rw [firsts_cons] at member
    rcases List.mem_cons.mp member with rfl | later
    · exact List.mem_cons_self ..
    · exact List.mem_cons_of_mem _ (List.mem_filter.mp (ih later)).1

theorem pairwise_firsts (items : List α) :
    (firsts alike items).Pairwise fun a b => alike a b = false := by
  induction items using induction_on_firsts alike with
  | nil => exact .nil
  | cons first items ih =>
    rw [firsts_cons]
    refine List.pairwise_cons.mpr ⟨fun other member => ?_, ih⟩
    simpa using (List.mem_filter.mp (mem_of_mem_firsts member)).2

/-- Each item is among the first ones or like one of them. -/
theorem exists_mem_firsts {item : α} (member : item ∈ items) :
    ∃ first ∈ firsts alike items, first = item ∨ alike first item = true := by
  induction items using induction_on_firsts alike with
  | nil => cases member
  | cons first items ih =>
    rw [firsts_cons]
    rcases List.mem_cons.mp member with rfl | later
    · exact ⟨item, List.mem_cons_self .., .inl rfl⟩
    · cases own : alike first item with
      | true => exact ⟨first, List.mem_cons_self .., .inr own⟩
      | false =>
        obtain ⟨other, among, like⟩ := ih (List.mem_filter.mpr ⟨later, by simp [own]⟩)
        exact ⟨other, List.mem_cons_of_mem _ among, like⟩

theorem firsts_concat (items : List α) (last : α) :
    firsts alike (items ++ [last]) =
      if (firsts alike items).any (alike · last) then firsts alike items
      else firsts alike items ++ [last] := by
  induction items using induction_on_firsts alike with
  | nil => rfl
  | cons first items ih =>
    rw [List.cons_append, firsts_cons, firsts_cons, List.filter_append, List.any_cons]
    cases own : alike first last with
    | true => simp [own]
    | false =>
      simp only [List.filter_cons, own, Bool.not_false, if_true, List.filter_nil, ih, Bool.false_or]
      split_ifs
      · rfl
      · rfl

theorem map_firsts (name : β → α) (items : List β) :
    (firsts (fun a b => alike (name a) (name b)) items).map name =
      firsts alike (items.map name) := by
  induction items using induction_on_firsts (fun a b => alike (name a) (name b)) with
  | nil => rfl
  | cons first items ih =>
    rw [firsts_cons, List.map_cons, ih, List.map_cons, firsts_cons, List.filter_map]
    rfl

/-- Under equality the first of items that are alike are the distinct items. -/
theorem firsts_beq [BEq α] [LawfulBEq α] (items : List α) :
    firsts (· == ·) items = items.eraseDups := by
  rw [firsts, List.eraseDups]
  congr 1
  funext later earlier
  exact BEq.comm

theorem nodup_eraseDups [BEq α] [LawfulBEq α] (items : List α) : items.eraseDups.Nodup := by
  rw [← firsts_beq]
  exact (pairwise_firsts items).imp fun different => beq_eq_false_iff_ne.mp different

/-- The distinct items that are kept are the distinct ones of those that are kept. -/
theorem filter_eraseDups [BEq α] [LawfulBEq α] (keep : α → Bool) (items : List α) :
    items.eraseDups.filter keep = (items.filter keep).eraseDups := by
  induction items using induction_on_firsts (fun earlier later : α => later == earlier) with
  | nil => rfl
  | cons item items ih =>
    rw [List.eraseDups_cons, List.filter_cons, ih]
    by_cases kept : keep item = true
    · rw [if_pos kept, List.filter_cons_of_pos kept, List.eraseDups_cons, List.filter_comm]
    · rw [if_neg kept, List.filter_cons_of_neg kept, List.filter_filter]
      congr 1
      apply List.filter_congr
      intro other _
      by_cases same : other = item
      · simp [same, kept]
      · simp [same]

theorem firsts_of_pairwise (apart : items.Pairwise fun a b => alike a b = false) :
    firsts alike items = items := by
  induction items with
  | nil => rfl
  | cons item items ih =>
    obtain ⟨own, rest⟩ := List.pairwise_cons.mp apart
    have kept : (items.filter fun other => !alike item other) = items := by
      apply List.filter_eq_self.mpr
      intro other member
      rw [own other member]
      rfl
    rw [firsts_cons, kept, ih rest]

end Firsts

/-! ## The table of items -/

section Table

variable {alike : α → α → Bool} {fits : α → β → Bool} {change : α → β → β} {new : α → β}

theorem Coherent.of_concat {items : List α} {last : α} (coherent : Coherent alike (items ++ [last])) :
    Coherent alike items := by
  have before : ∀ item ∈ items, item ∈ items ++ [last] := fun item member => List.mem_append_left _ member
  constructor
  · intro a first b second
    exact coherent.symm a (before a first) b (before b second)
  · intro a first b second c third
    exact coherent.trans a (before a first) b (before b second) c (before c third)

/-- An item that is like none of the first ones is like none at all. -/
theorem alike_eq_false_of_firsts {items : List α} {last : α} (coherent : Coherent alike (items ++ [last]))
    (none : ∀ first ∈ firsts alike items, alike first last = false) :
    ∀ other ∈ items, alike other last = false := by
  intro other member
  obtain ⟨first, among, rfl | like⟩ : ∃ first ∈ firsts alike items, _ := exists_mem_firsts member
  · exact none first among
  · by_contra same
    have through := coherent.trans first (List.mem_append_left _ (mem_of_mem_firsts among)) other
      (List.mem_append_left _ member) last (by simp) like (by simpa using same)
    rw [none first among] at through
    cases through

section Step

variable {items : List α} {last : α} {entry later : α → β}
  (fits_entry : ∀ first, fits last (entry first) = alike first last)
  (entry_later : ∀ first, later first = if alike first last then change last (entry first) else entry first)

include fits_entry entry_later

/-- An item that is like one of the first ones changes the entry of that one. -/
theorem upsert_map_of_alike (coherent : Coherent alike (items ++ [last]))
    (found : (firsts alike items).any (alike · last) = true) :
    upsert (fits last) (change last) (new last) ((firsts alike items).map entry) =
      (firsts alike items).map later := by
  obtain ⟨first, member, like⟩ := List.any_eq_true.mp found
  have kept : ∀ first ∈ firsts alike items, first ∈ items ++ [last] := fun first member =>
    List.mem_append_left _ (mem_of_mem_firsts member)
  rw [upsert_eq_map, List.map_map]
  · refine List.map_congr_left fun other _ => ?_
    simp only [Function.comp_apply, fits_entry, entry_later]
  · -- two entries that fit the item would be alike
    refine List.pairwise_map.mpr ((pairwise_firsts items).imp_of_mem ?_)
    intro a b first second apart fit
    rw [fits_entry, fits_entry] at fit
    have back := coherent.symm b (kept b second) last (by simp) fit.2
    have like := coherent.trans a (kept a first) last (by simp) b (kept b second) fit.1 back
    rw [apart] at like
    cases like
  · exact ⟨_, List.mem_map_of_mem member, (fits_entry _).trans like⟩

/-- An item that is like none of the first ones gets an entry of its own. -/
theorem upsert_map_of_new (none : ∀ first ∈ firsts alike items, alike first last = false) :
    upsert (fits last) (change last) (new last) ((firsts alike items).map entry) =
      (firsts alike items).map later ++ [new last] := by
  rw [upsert_eq_append]
  · congr 1
    refine List.map_congr_left fun first member => ?_
    rw [entry_later, none first member]
    rfl
  · intro made member
    obtain ⟨first, among, rfl⟩ := List.mem_map.mp member
    rw [fits_entry, none first among]

end Step

/-- The table of items: the entry of each that is like none before it. It is enough to say how an entry
follows from the items so far, and what it is for the first item of its kind. -/
theorem foldl_upsert (entry : List α → α → β)
    (fits_entry : ∀ items first item, fits item (entry items first) = alike first item)
    (entry_concat : ∀ items first item, entry (items ++ [item]) first =
      if alike first item then change item (entry items first) else entry items first)
    (entry_new : ∀ items item, Coherent alike (items ++ [item]) →
      (∀ other ∈ items, alike other item = false) → entry (items ++ [item]) item = new item)
    {items : List α} (coherent : Coherent alike items) :
    items.foldl (fun table item => upsert (fits item) (change item) (new item) table) [] =
      (firsts alike items).map (entry items) := by
  induction items using List.reverseRecOn with
  | nil => rfl
  | append_singleton items last ih =>
    have fits_last (first : α) := fits_entry items first last
    have entry_last (first : α) := entry_concat items first last
    rw [List.foldl_append, ih coherent.of_concat, firsts_concat, List.foldl_cons, List.foldl_nil]
    split_ifs with found
    · exact upsert_map_of_alike fits_last entry_last coherent found
    · have none : ∀ first ∈ firsts alike items, alike first last = false := by
        intro first member
        by_contra like
        exact found (List.any_eq_true.mpr ⟨first, member, by simpa using like⟩)
      have own := entry_new items last coherent (alike_eq_false_of_firsts coherent none)
      rw [upsert_map_of_new fits_last entry_last none, List.map_append, List.map_singleton, own]

/-- The last item that is like another one, or that one itself. -/
def lastLike (alike : α → α → Bool) (items : List α) (first : α) : α :=
  (items.reverse.find? (alike first)).getD first

theorem lastLike_mem {items : List α} {first : α} (member : first ∈ items) :
    lastLike alike items first ∈ items := by
  rw [lastLike]
  cases found : items.reverse.find? (alike first) with
  | none => exact member
  | some item => exact List.mem_reverse.mp (List.mem_of_find?_eq_some found)

theorem lastLike_concat (items : List α) (first item : α) :
    lastLike alike (items ++ [item]) first =
      if alike first item then item else lastLike alike items first := by
  rw [lastLike, List.reverse_append, List.reverse_singleton, List.singleton_append, List.find?_cons]
  cases alike first item with
  | true => rfl
  | false => rfl

/-- A table that keeps of each entry what its first item gave and takes the rest from the last one. -/
theorem foldl_upsert_last (join : α → α → β)
    (fits_join : ∀ first last item, fits item (join first last) = alike first item)
    (change_join : ∀ first last item, change item (join first last) = join first item)
    (new_eq : ∀ item, new item = join item item)
    {items : List α} (coherent : Coherent alike items) :
    items.foldl (fun table item => upsert (fits item) (change item) (new item) table) [] =
      (firsts alike items).map fun first => join first (lastLike alike items first) := by
  apply foldl_upsert (fun items first => join first (lastLike alike items first))
  · intro items first item
    exact fits_join ..
  · intro items first item
    rw [lastLike_concat, change_join]
    split_ifs <;> rfl
  · intro items item known fresh
    rw [new_eq, lastLike_concat]
    split_ifs
    · rfl
    · have none : items.reverse.find? (alike item) = none := by
        apply List.find?_eq_none.mpr
        intro other member like
        have among : other ∈ items := List.mem_reverse.mp member
        have back := known.symm item (by simp) other (List.mem_append_left _ among) like
        rw [fresh other among] at back
        cases back
      rw [lastLike, none]
      rfl
  · exact coherent

end Table

/-! ## Rows with names -/

section Named

variable {κ β : Type} [BEq κ] [LawfulBEq κ]

/-- Each name once, in the order in which the names come first, with the row of the name that comes
last. -/
def lastOfEach (rows : List (κ × β)) : List (κ × β) :=
  (rows.map (·.1)).eraseDups.filterMap fun name => rows.reverse.find? (·.1 == name)

/-- The rows have one name. -/
def sameName (a b : κ × β) : Bool :=
  a.1 == b.1

theorem find?_reverse_of_mem {rows : List (κ × β)} {row : κ × β} (member : row ∈ rows) :
    rows.reverse.find? (·.1 == row.1) = some (lastLike sameName rows row) := by
  have known : ∃ last, rows.reverse.find? (sameName row) = some last := by
    apply Option.isSome_iff_exists.mp
    exact List.find?_isSome.mpr ⟨row, List.mem_reverse.mpr member, beq_self_eq_true row.1⟩
  obtain ⟨last, found⟩ := known
  rw [lastLike, found, Option.getD_some, ← found]
  apply List.find?_congr
  intro other _
  exact BEq.comm

theorem fst_lastLike {rows : List (κ × β)} {row : κ × β} (member : row ∈ rows) :
    (lastLike sameName rows row).1 = row.1 := by
  have found := List.find?_some (find?_reverse_of_mem member)
  exact eq_of_beq found

theorem lastOfEach_eq_map (rows : List (κ × β)) :
    lastOfEach rows = (firsts sameName rows).map (lastLike sameName rows) := by
  have names : (firsts sameName rows).map (·.1) = (rows.map (·.1)).eraseDups := by
    rw [← firsts_beq, ← map_firsts]
    rfl
  rw [lastOfEach, ← names, List.filterMap_map, ← List.filterMap_eq_map]
  apply List.filterMap_congr
  intro row member
  exact find?_reverse_of_mem (mem_of_mem_firsts member)

/-- A table that gives a name its value where the name stands has for each name the last row. -/
theorem foldl_put_eq_lastOfEach {put : κ → β → List (κ × β) → List (κ × β)}
    (put_eq : ∀ name value table, put name value table =
      upsert (fun entry => entry.1 == name) (fun entry => (entry.1, value)) (name, value) table)
    (rows : List (κ × β)) :
    rows.foldl (fun table row => put row.1 row.2 table) [] = lastOfEach rows := by
  have coherent : Coherent sameName rows := coherent_of_name Prod.fst rows
  simp only [put_eq]
  rw [lastOfEach_eq_map]
  refine (foldl_upsert_last (fun first last => (first.1, last.2)) ?_ ?_ ?_ coherent).trans ?_
  · intro first last row
    rfl
  · intro first last row
    rfl
  · intro row
    rfl
  · apply List.map_congr_left
    intro row member
    rw [← fst_lastLike (mem_of_mem_firsts member)]

/-- Rows with different names are kept as they are. -/
theorem lastOfEach_of_nodup {rows : List (κ × β)} (different : (rows.map (·.1)).Nodup) :
    lastOfEach rows = rows := by
  have apart : rows.Pairwise fun a b => sameName a b = false := by
    apply (List.pairwise_map.mp different).imp
    intro a b unlike
    exact beq_false_of_ne unlike
  have own : ∀ row ∈ rows, lastLike sameName rows row = row := by
    intro row member
    have among := List.mem_of_find?_eq_some (find?_reverse_of_mem member)
    exact List.inj_on_of_nodup_map different (List.mem_reverse.mp among) member (fst_lastLike member)
  rw [lastOfEach_eq_map, firsts_of_pairwise apart, List.map_congr_left own, List.map_id']

end Named

end IntentModel
