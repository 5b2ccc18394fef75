import IntentModel.Proofs.Yaml.Keys
import Mathlib.Data.List.Perm.Subperm

/-! # All collections are filled

Each step fills a collection, and a collection is met once, so there are no more steps than nodes. In the end
nothing is waiting (`Filling.Steady.finish`), and no link leads out of the cells
(`Document.exists_closed_of_value`). So the value of a text is a scalar or a collection that can be opened,
and if this is a mapping, it is regular (`regular_of_load`).
-/

namespace IntentModel

theorem Value.linksOfItems_eq_flatMap (items : List Value) : linksOfItems items = items.flatMap links := by
  induction items with
  | nil => rfl
  | cons item items ih => rw [linksOfItems, ih, List.flatMap_cons]

theorem Value.linksOfEntries_eq_flatMap (entries : List (Value × Value)) :
    linksOfEntries entries = entries.flatMap (·.2.links) := by
  induction entries with
  | nil => rfl
  | cons entry entries ih => rw [linksOfEntries, ih, List.flatMap_cons]

theorem Value.IsPlainKey.links_eq {value : Value} (plain : value.IsPlainKey) : value.links = [] := by
  cases value <;> first | rfl | cases plain

theorem Value.IsPlainKey.fill_eq {value : Value} (plain : value.IsPlainKey) (link : Form → Nat → Value)
    (tangle : Cells → Form → Nat → Value) : value.fill link tangle = value := by
  cases value <;> first | rfl | cases plain

namespace Yaml

namespace Nodes

variable {nodes : Nodes} {place : Nat}

theorem lt_size_of_part {value : Value} (read : nodes.part place = .ok value) :
    ∀ target ∈ value.links, target < nodes.size := by
  obtain ⟨form, collection, rfl⟩ | ⟨-, plain⟩ := part_eq_ok read
  · intro target member
    rw [List.mem_singleton.mp member]
    by_contra outside
    rw [kindAt, Array.getElem?_eq_none (Nat.le_of_not_lt outside)] at collection
    cases collection
  · intro target member
    rw [plain.links_eq] at member
    cases member

theorem lt_size_of_row {entry : Nat × Nat} {made : Value × Value} (read : nodes.row entry = .ok made) :
    ∀ target ∈ made.2.links, target < nodes.size := by
  unfold row at read
  split at read
  · cases read
  · obtain ⟨key, -, read⟩ := bind_eq_ok_iff.mp read
    obtain ⟨item, own, read⟩ := bind_eq_ok_iff.mp read
    cases read
    exact lt_size_of_part own

theorem lt_size_of_pair {made : Value × Value} (read : nodes.pair place = .ok made) :
    ∀ target ∈ made.1.links ++ made.2.links, target < nodes.size := by
  unfold pair at read
  split at read
  · obtain ⟨key, first, read⟩ := bind_eq_ok_iff.mp read
    obtain ⟨item, second, read⟩ := bind_eq_ok_iff.mp read
    cases read
    exact List.forall_mem_append.mpr ⟨lt_size_of_part first, lt_size_of_part second⟩
  · cases read

theorem size_setEntries (nodes : Nodes) (place : Nat) (entries : List (Nat × Nat)) :
    (nodes.setEntries place entries).size = nodes.size :=
  Array.size_modify

theorem size_ordinary (nodes : Nodes) (entries : List (Nat × Nat)) :
    (entries.foldl (fun nodes entry => nodes.modify entry.1 Node.ordinary) nodes).size = nodes.size := by
  induction entries generalizing nodes with
  | nil => rfl
  | cons entry entries ih => rw [List.foldl_cons, ih, Array.size_modify]

/-- Merging changes nodes, but adds none. -/
theorem size_flatten {steps : Nat} {merged : List (Nat × Nat)} {flat : Nodes}
    (run : nodes.flatten steps place merged = .ok flat) : flat.size = nodes.size := by
  induction steps generalizing place merged nodes flat with
  | zero => cases run
  | succ steps ih =>
    unfold flatten at run
    dsimp only at run
    split at run
    · split at run
      · cases run
        rw [size_setEntries, size_ordinary]
      · obtain ⟨sources, -, run⟩ := bind_eq_ok_iff.mp run
        obtain ⟨⟨offers, later⟩, merged, run⟩ := bind_eq_ok_iff.mp run
        have same : later.size = nodes.size := by
          refine foldlM_preserves (fun _ state => state.2.size = nodes.size) ?_ ?_ merged
          · intro source sources state next same ran
            obtain ⟨flat, own, final⟩ := bind_eq_ok_iff.mp ran
            cases final
            exact (ih own).trans same
          · exact size_setEntries _ _ _
        exact (ih run).trans same
    · cases run

end Nodes

namespace Filling

variable {filling next : Filling} {done : List Nat} {place : Nat} {parts : List Value}

/-- The collections that have been met are different nodes: those that are waiting and those that are done. -/
structure Counted (filling : Filling) (done : List Nat) : Prop where
  perm : filling.opened.Perm (filling.waiting ++ done)
  distinct : filling.opened.Nodup
  inside : ∀ place ∈ filling.opened, place < filling.nodes.size

/-- There are not more collections than nodes. -/
theorem Counted.length_le (counted : filling.Counted done) :
    filling.waiting.length + done.length ≤ filling.nodes.size := by
  have among : filling.opened ⊆ List.range filling.nodes.size :=
    fun place member => List.mem_range.mpr (counted.inside place member)
  have bound := (List.subperm_of_subset counted.distinct among).length_le
  rwa [counted.perm.length_eq, List.length_append, List.length_range] at bound

@[simp]
theorem nodes_meetAt (filling : Filling) (place : Nat) : (filling.meetAt place).nodes = filling.nodes := by
  unfold meetAt
  split <;> rfl

@[simp]
theorem nodes_meet (filling : Filling) (parts : List Value) : (filling.meet parts).nodes = filling.nodes := by
  unfold meet
  generalize parts.flatMap Value.links = places
  induction places generalizing filling with
  | nil => rfl
  | cons place places ih => rw [List.foldl_cons, ih, nodes_meetAt]

theorem opened_subset_meetAt (filling : Filling) (place : Nat) :
    place ∈ (filling.meetAt place).opened ∧ filling.opened ⊆ (filling.meetAt place).opened := by
  unfold meetAt
  split_ifs with met
  · exact ⟨List.contains_iff_mem.mp met, List.Subset.refl _⟩
  · exact ⟨List.mem_cons_self, List.subset_cons_self _ _⟩

theorem Counted.meetAt (counted : filling.Counted done) (inside : place < filling.nodes.size) :
    (filling.meetAt place).Counted done := by
  unfold Filling.meetAt
  split_ifs with met
  · exact counted
  · refine ⟨?_, ?_, List.forall_mem_cons.mpr ⟨inside, counted.inside⟩⟩
    · rw [List.append_assoc]
      exact (counted.perm.cons place).trans (List.perm_middle.symm)
    · exact List.nodup_cons.mpr ⟨fun member => met (List.contains_iff_mem.mpr member), counted.distinct⟩

/-- All collections among the parts that are met are open then. -/
theorem Counted.meet (counted : filling.Counted done)
    (inside : ∀ part ∈ parts, ∀ place ∈ part.links, place < filling.nodes.size) :
    (filling.meet parts).Counted done ∧ filling.opened ⊆ (filling.meet parts).opened ∧
      ∀ part ∈ parts, ∀ place ∈ part.links, place ∈ (filling.meet parts).opened := by
  have every : ∀ place ∈ parts.flatMap Value.links, place < filling.nodes.size := by
    intro place member
    obtain ⟨part, among, own⟩ := List.mem_flatMap.mp member
    exact inside part among place own
  suffices met : (filling.meet parts).Counted done ∧ filling.opened ⊆ (filling.meet parts).opened ∧
      parts.flatMap Value.links ⊆ (filling.meet parts).opened from
    ⟨met.1, met.2.1, fun part among place own => met.2.2 (List.mem_flatMap.mpr ⟨part, among, own⟩)⟩
  unfold Filling.meet
  clear inside
  generalize parts.flatMap Value.links = places at every
  induction places generalizing filling with
  | nil => exact ⟨counted, List.Subset.refl _, List.nil_subset _⟩
  | cons place places ih =>
    obtain ⟨first, rest⟩ := List.forall_mem_cons.mp every
    obtain ⟨own, kept⟩ := filling.opened_subset_meetAt place
    obtain ⟨steady, grown, all⟩ := ih (counted.meetAt first) (by simpa using rest)
    exact ⟨steady, List.Subset.trans kept grown, List.cons_subset.mpr ⟨grown own, all⟩⟩

/-- Links lead to open collections or to cells. -/
def Linked (filling : Filling) : Prop :=
  ∀ cell ∈ filling.cells, ∀ place ∈ cell.2.links, place ∈ filling.opened ∨ filling.cells.Has place

/-- Every collection that has been met is waiting or has a cell, and links lead to these or to other cells. -/
structure Steady (filling : Filling) (done : List Nat) : Prop extends filling.Counted done where
  filled : ∀ place ∈ done, filling.cells.Has place
  linked : filling.Linked

theorem Linked.grow (linked : filling.Linked) (cells : next.cells = filling.cells)
    (grown : filling.opened ⊆ next.opened) : next.Linked := by
  rw [Linked, cells]
  intro cell among target own
  exact (linked cell among target own).imp_left fun opened => grown opened

/-- A collection whose links have been met gets its cell. -/
theorem Counted.put (counted : filling.Counted (place :: done))
    (filled : ∀ place ∈ done, filling.cells.Has place) (linked : filling.Linked)
    {cell : Value} (met : ∀ target ∈ cell.links, target ∈ filling.opened) :
    (filling.put place cell).Steady (place :: done) where
  perm := counted.perm
  distinct := counted.distinct
  inside := counted.inside
  filled := List.forall_mem_cons.mpr
    ⟨List.mem_cons_self, fun target member => List.mem_cons_of_mem _ (filled target member)⟩
  linked := List.forall_mem_cons.mpr ⟨fun target own => .inl (met target own),
    fun old among target own => (linked old among target own).imp_right (List.mem_cons_of_mem _)⟩

/-- Pairs whose links have been met get their cells, and so does the list of them. -/
theorem Counted.putPairs (counted : filling.Counted (place :: done))
    (filled : ∀ place ∈ done, filling.cells.Has place) (linked : filling.Linked)
    {pairs : List (Value × Value)}
    (met : ∀ pair ∈ pairs, ∀ target ∈ pair.1.links ++ pair.2.links, target ∈ filling.opened) :
    (filling.putPairs place pairs).Steady (place :: done) := by
  have kept {target : Nat} (has : filling.cells.Has target) :
      (filling.putPairs place pairs).cells.Has target := by
    simp only [Cells.Has, Filling.putPairs, List.map_append, List.mem_append]
    exact .inr has
  refine ⟨⟨counted.perm, counted.distinct, counted.inside⟩, ?_, ?_⟩
  · exact List.forall_mem_cons.mpr ⟨List.mem_cons_self, fun target member => kept (filled target member)⟩
  · refine List.forall_mem_cons.mpr ⟨?_, List.forall_mem_append.mpr ⟨?_, ?_⟩⟩
    · intro target own
      rw [Value.links, Value.linksOfItems_eq_flatMap, List.flatMap_map] at own
      obtain ⟨tuple, member, here⟩ := List.mem_flatMap.mp own
      rw [List.mem_singleton.mp here]
      exact .inr (List.mem_cons_of_mem _ (List.mem_map_of_mem (List.mem_append_left _ member)))
    · intro cell member target own
      obtain ⟨⟨pair, spot⟩, among, rfl⟩ := List.mem_map.mp member
      have listed : pair ∈ pairs := List.fst_mem_of_mem_zipIdx among
      rw [Value.links, Value.linksOfItems_eq_flatMap] at own
      exact .inl (met pair listed target (by simpa using own))
    · exact fun cell among target own => (linked cell among target own).imp_right kept

/-- The rows of a mapping, whose links are all met then. -/
theorem Counted.rows (counted : filling.Counted done) {rows : List (Value × Value)}
    (read : filling.rows place = .ok (rows, next)) :
    next.Counted done ∧ next.nodes.size = filling.nodes.size ∧ next.cells = filling.cells ∧
      filling.opened ⊆ next.opened ∧ ∀ row ∈ rows, ∀ target ∈ row.2.links, target ∈ next.opened := by
  obtain ⟨flat, merged, read⟩ := bind_eq_ok_iff.mp read
  obtain ⟨own, made, read⟩ := bind_eq_ok_iff.mp read
  cases read
  have size := Nodes.size_flatten merged
  have flattened : Counted { filling with nodes := flat } done :=
    ⟨counted.perm, counted.distinct, size ▸ counted.inside⟩
  have inside : ∀ part ∈ rows.map Prod.snd, ∀ target ∈ part.links, target < flat.size := by
    obtain ⟨result, each, rfl⟩ := exists_of_mapM_eq_ok made
    simp only [List.forall_mem_map]
    intro entry member
    exact Nodes.lt_size_of_row (each entry member)
  obtain ⟨met, grown, all⟩ := flattened.meet inside
  exact ⟨met, by rw [nodes_meet, size], cells_meet _ _, grown, List.forall_mem_map.mp all⟩

/-- The links of a mapping are those of the rows that it is made of. -/
theorem links_ofList {rows : List (Value × Value)} (plain : ∀ row ∈ rows, row.1.IsPlainKey) {target : Nat}
    (link : target ∈ (Value.map (Entries.ofList rows)).links) : ∃ row ∈ rows, target ∈ row.2.links := by
  rw [Value.links, Value.linksOfEntries_eq_flatMap, Entries.ofList_eq_merged plain] at link
  obtain ⟨entry, member, own⟩ := List.mem_flatMap.mp link
  obtain ⟨row, first, rfl⟩ := List.mem_map.mp member
  exact ⟨_, lastLike_mem (mem_of_mem_firsts first), own⟩

theorem forall_links_iff {pairs : List (Value × Value)} {Good : Nat → Prop} :
    (∀ part ∈ pairs.flatMap fun pair => [pair.1, pair.2], ∀ target ∈ part.links, Good target) ↔
      ∀ pair ∈ pairs, ∀ target ∈ pair.1.links ++ pair.2.links, Good target := by
  simp only [List.forall_mem_flatMap, List.forall_mem_cons, List.forall_mem_append, List.not_mem_nil,
    false_imp_iff, implies_true, and_true]

/-- The first collection that is waiting is taken up, and counts as done from now on. -/
theorem Counted.take {waiting : List Nat} (counted : filling.Counted done)
    (first : filling.waiting = place :: waiting) : Counted { filling with waiting } (place :: done) := by
  have perm := counted.perm
  rw [first] at perm
  exact ⟨perm.trans List.perm_middle.symm, counted.distinct, counted.inside⟩

/-- Filling the next collection keeps the account. -/
theorem Steady.fill {waiting : List Nat} (steady : filling.Steady done)
    (first : filling.waiting = place :: waiting) (read : { filling with waiting }.fill place = .ok next) :
    next.Steady (place :: done) ∧ next.nodes.size = filling.nodes.size ∧ filling.opened ⊆ next.opened := by
  have taken := steady.take first
  have linked : Linked { filling with waiting } := steady.linked
  unfold Filling.fill at read
  split at read
  · obtain ⟨parts, made, read⟩ := bind_eq_ok_iff.mp read
    cases read
    obtain ⟨result, each, rfl⟩ := exists_of_mapM_eq_ok made
    obtain ⟨met, grown, all⟩ := taken.meet
      (List.forall_mem_map.mpr fun item member => Nodes.lt_size_of_part (each item member))
    refine ⟨met.put ?_ (linked.grow (cells_meet _ _) grown) ?_, by simp [Filling.put], grown⟩
    · simpa using steady.filled
    · intro target own
      rw [Value.links, Value.linksOfItems_eq_flatMap] at own
      obtain ⟨part, member, here⟩ := List.mem_flatMap.mp own
      exact all part member target here
  · obtain ⟨pairs, made, read⟩ := bind_eq_ok_iff.mp read
    cases read
    have inside : ∀ pair ∈ pairs, ∀ target ∈ pair.1.links ++ pair.2.links, target < filling.nodes.size := by
      obtain ⟨result, each, rfl⟩ := exists_of_mapM_eq_ok made
      exact List.forall_mem_map.mpr fun item member => Nodes.lt_size_of_pair (each item member)
    obtain ⟨met, grown, all⟩ := taken.meet (forall_links_iff.mpr inside)
    refine ⟨met.putPairs ?_ (linked.grow (cells_meet _ _) grown) (forall_links_iff.mp all),
      by simp [Filling.putPairs], grown⟩
    simpa using steady.filled
  · obtain ⟨⟨rows, later⟩, made, read⟩ := bind_eq_ok_iff.mp read
    cases read
    obtain ⟨met, size, cells, grown, all⟩ := taken.rows made
    refine ⟨met.put ?_ (linked.grow cells grown) ?_, size, grown⟩
    · simpa [cells] using steady.filled
    · intro target own
      obtain ⟨row, member, link⟩ := links_ofList (rows_eq_ok made).1 own
      exact all row member target link
  · obtain ⟨⟨rows, later⟩, made, read⟩ := bind_eq_ok_iff.mp read
    cases read
    obtain ⟨met, size, cells, grown, -⟩ := taken.rows made
    refine ⟨met.put ?_ (linked.grow cells grown) ?_, size, grown⟩
    · simpa [cells] using steady.filled
    · exact fun target own => nomatch own
  · cases read

/-- All that is waiting is filled when there are enough steps left for the nodes that may still be met. -/
theorem Steady.finish {steps : Nat} (steady : filling.Steady done)
    (enough : filling.nodes.size ≤ steps + done.length) (read : filling.finish steps = .ok next) :
    next.waiting = [] ∧ ∃ done, next.Steady done ∧ filling.opened ⊆ next.opened := by
  induction steps generalizing filling done with
  | zero =>
    cases read
    have most := steady.length_le
    exact ⟨List.eq_nil_of_length_eq_zero (by omega), done, steady, List.Subset.refl _⟩
  | succ steps ih =>
    unfold Filling.finish at read
    split at read
    · next none =>
      cases read
      exact ⟨none, done, steady, List.Subset.refl _⟩
    · next place waiting first =>
      obtain ⟨later, filled, read⟩ := bind_eq_ok_iff.mp read
      obtain ⟨further, size, grown⟩ := steady.fill first filled
      obtain ⟨idle, done, final, rest⟩ := ih further (by rw [size, List.length_cons]; omega) read
      exact ⟨idle, done, final, List.Subset.trans grown rest⟩

/-- A filling with which nothing is left to do has closed cells. -/
theorem Steady.closed (steady : filling.Steady done) (idle : filling.waiting = []) :
    filling.cells.Closed ∧ ∀ place ∈ filling.opened, filling.cells.Has place := by
  have all : ∀ place ∈ filling.opened, filling.cells.Has place := by
    intro place member
    have finished := steady.perm.subset member
    rw [idle, List.nil_append] at finished
    exact steady.filled place finished
  exact ⟨fun cell among place link => (steady.linked cell among place link).elim (all place) id, all⟩

theorem counted_start (nodes : Nodes) : (start nodes).Counted [] :=
  ⟨.refl _, List.nodup_nil, nofun⟩

end Filling

/-- The value of a document is made of closed cells: every collection has been filled. -/
theorem Document.exists_closed_of_value {document : Document} {value : Value}
    (read : document.value = .ok value) :
    ∃ root cells, Nodes.part document.nodes document.root = .ok root ∧
      value = root.fill (Cells.settle cells) .tangle ∧ cells.Sound ∧ cells.Closed ∧
      ∀ place ∈ root.links, cells.Has place := by
  obtain ⟨root, met, read⟩ := bind_eq_ok_iff.mp read
  obtain ⟨filling, finished, read⟩ := bind_eq_ok_iff.mp read
  cases read
  obtain ⟨counted, -, opened⟩ := (Filling.counted_start document.nodes).meet
    (List.forall_mem_singleton.mpr (Nodes.lt_size_of_part met))
  have empty : ((Filling.start document.nodes).meet [root]).cells = [] := Filling.cells_meet _ _
  have steady : ((Filling.start document.nodes).meet [root]).Steady [] := by
    refine ⟨counted, nofun, ?_⟩
    rw [Filling.Linked, empty]
    exact nofun
  obtain ⟨idle, done, final, grown⟩ := steady.finish (by simp [Filling.start]) finished
  obtain ⟨closed, all⟩ := final.closed idle
  refine ⟨root, filling.cells, met, rfl, Filling.sound_finish ?_ finished, closed, ?_⟩
  · rw [empty]
    exact nofun
  · exact fun place link => all place (grown (opened root (List.mem_singleton_self _) place link))

/-- The value of a text is a scalar, or it opens to a collection. -/
theorem isCell_of_load {bytes : List UInt8} {value : Value} (read : load bytes = .ok value) :
    value.IsPlainKey ∨ value.opened.IsCell := by
  obtain ⟨written, -, read⟩ := bind_eq_ok_iff.mp read
  cases written with
  | none =>
    cases read
    exact .inl trivial
  | some document =>
    obtain ⟨root, cells, met, rfl, sound, closed, has⟩ := document.exists_closed_of_value read
    obtain ⟨form, -, rfl⟩ | ⟨-, plain⟩ := Nodes.part_eq_ok met
    · exact .inr (closed.isCell_settle sound (has _ (List.mem_singleton_self _)))
    · rw [plain.fill_eq]
      exact .inl plain

/-- A mapping that a text writes is regular. -/
theorem regular_of_load {bytes : List UInt8} {value : Value} {entries : Entries}
    (read : load bytes = .ok value) (shape : value.opened = .map entries) : entries.Regular := by
  obtain plain | own := isCell_of_load read
  · cases value with
    | map own => cases plain
    | tangle cells form place => cases plain
    | _ => cases shape
  · rw [shape] at own
    exact own

end Yaml
end IntentModel
