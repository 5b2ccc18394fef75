/-! # Steps that can fail

Facts about computations with errors that the theory needs again and again: a chain succeeds when
each of its steps does, and what each step keeps holds at the end of a chain of steps.
-/

namespace IntentModel

variable {α β ε δ : Type}

instance decidableEqOutcome [DecidableEq ε] [DecidableEq α] : DecidableEq (Except ε α)
  | .error a, .error b => decidable_of_iff (a = b) ⟨congrArg _, Except.error.inj⟩
  | .ok a, .ok b => decidable_of_iff (a = b) ⟨congrArg _, Except.ok.inj⟩
  | .error _, .ok _ => .isFalse nofun
  | .ok _, .error _ => .isFalse nofun

theorem bind_eq_ok_iff {outcome : Except ε α} {next : α → Except ε β} {result : β} :
    (outcome >>= next) = .ok result ↔ ∃ found, outcome = .ok found ∧ next found = .ok result := by
  cases outcome with
  | error fault => simp [bind, Except.bind]
  | ok found => simp [bind, Except.bind]

theorem map_eq_ok_iff {outcome : Except ε α} {use : α → β} {result : β} :
    outcome.map use = .ok result ↔ ∃ found, outcome = .ok found ∧ use found = result := by
  cases outcome with
  | error fault => simp [Except.map]
  | ok found => simp [Except.map]

/-- Where one condition decides whether there is a result, and which, it decides about what is made of the
result. -/
theorem map_eq_ok_iff_of {outcome : Except ε α} {Good : Prop} {found : α}
    (decides : ∀ result, outcome = .ok result ↔ Good ∧ result = found) {use : α → β} {result : β} :
    outcome.map use = .ok result ↔ Good ∧ result = use found := by
  rw [map_eq_ok_iff]
  constructor
  · rintro ⟨own, ran, rfl⟩
    obtain ⟨good, rfl⟩ := (decides own).mp ran
    exact ⟨good, rfl⟩
  · rintro ⟨good, rfl⟩
    exact ⟨found, (decides found).mpr ⟨good, rfl⟩, rfl⟩

theorem mapError_eq_ok_iff {outcome : Except ε α} {rename : ε → δ} {result : α} :
    outcome.mapError rename = .ok result ↔ outcome = .ok result := by
  cases outcome with
  | error fault => exact ⟨nofun, nofun⟩
  | ok found =>
    constructor
    · intro same
      exact congrArg _ (Except.ok.inj same)
    · intro same
      exact congrArg _ (Except.ok.inj same)

theorem bind_eq_error_iff {outcome : Except ε α} {next : α → Except ε β} {fault : ε} :
    (outcome >>= next) = .error fault ↔
      outcome = .error fault ∨ ∃ found, outcome = .ok found ∧ next found = .error fault := by
  cases outcome with
  | error own => simp [bind, Except.bind]
  | ok found => simp [bind, Except.bind]

theorem mapError_eq_error_iff {outcome : Except ε α} {rename : ε → δ} {fault : δ} :
    outcome.mapError rename = .error fault ↔ ∃ own, outcome = .error own ∧ rename own = fault := by
  cases outcome with
  | error own =>
    constructor
    · intro same
      exact ⟨own, rfl, Except.error.inj same⟩
    · intro ⟨_, same, renamed⟩
      cases same
      exact congrArg _ renamed
  | ok found =>
    constructor
    · exact nofun
    · exact nofun

theorem mapM_eq_ok {step : α → Except ε β} {result : α → β} {items : List α}
    (each : ∀ item ∈ items, step item = .ok (result item)) :
    items.mapM step = .ok (items.map result) := by
  induction items with
  | nil => rfl
  | cons item items ih =>
    obtain ⟨first, rest⟩ := List.forall_mem_cons.mp each
    rw [List.mapM_cons, bind_eq_ok_iff]
    refine ⟨result item, first, bind_eq_ok_iff.mpr ⟨items.map result, ih rest, rfl⟩⟩

/-- Where a step gives the good items their results and fails at all others, a pass succeeds when all items
are good. -/
theorem mapM_eq_ok_iff {step : α → Except ε β} {Good : α → Prop} {result : α → β}
    (each : ∀ item found, step item = .ok found ↔ Good item ∧ found = result item)
    {items : List α} {results : List β} :
    items.mapM step = .ok results ↔ (∀ item ∈ items, Good item) ∧ results = items.map result := by
  induction items generalizing results with
  | nil => simp [pure, Except.pure, eq_comm]
  | cons item items ih =>
    rw [List.mapM_cons, bind_eq_ok_iff, List.forall_mem_cons, List.map_cons]
    constructor
    · rintro ⟨first, own, rest⟩
      obtain ⟨good, rfl⟩ := (each item first).mp own
      obtain ⟨others, ran, final⟩ := bind_eq_ok_iff.mp rest
      obtain ⟨all, rfl⟩ := ih.mp ran
      exact ⟨⟨good, all⟩, (Except.ok.inj final).symm⟩
    · rintro ⟨⟨good, all⟩, rfl⟩
      exact ⟨_, (each item _).mpr ⟨good, rfl⟩, bind_eq_ok_iff.mpr ⟨_, ih.mpr ⟨all, rfl⟩, rfl⟩⟩

theorem mapM_congr {step other : α → Except ε β} {items : List α}
    (same : ∀ item ∈ items, step item = other item) : items.mapM step = items.mapM other := by
  induction items with
  | nil => rfl
  | cons item items ih =>
    obtain ⟨first, rest⟩ := List.forall_mem_cons.mp same
    rw [List.mapM_cons, List.mapM_cons, first, ih rest]

/-- A pass over items that succeeds gives each item its own result. -/
theorem exists_of_mapM_eq_ok [Inhabited β] {step : α → Except ε β} {items : List α}
    {results : List β} (run : items.mapM step = .ok results) :
    ∃ result : α → β, (∀ item ∈ items, step item = .ok (result item)) ∧
      results = items.map result := by
  have whole : (∀ item ∈ items, step item = .ok ((step item).toOption.getD default)) ∧
      results = items.map fun item => (step item).toOption.getD default := by
    induction items generalizing results with
    | nil =>
      cases run
      exact ⟨by simp, rfl⟩
    | cons item items ih =>
      rw [List.mapM_cons] at run
      obtain ⟨first, ran, run⟩ := bind_eq_ok_iff.mp run
      obtain ⟨rest, others, final⟩ := bind_eq_ok_iff.mp run
      cases final
      obtain ⟨each, rfl⟩ := ih others
      have own : step item = .ok ((step item).toOption.getD default) := by
        rw [ran]
        rfl
      refine ⟨List.forall_mem_cons.mpr ⟨own, each⟩, ?_⟩
      rw [List.map_cons, ran]
      rfl
  exact ⟨_, whole⟩

/-- A pass that succeeds and lines up the lists it gets has its own list from each item. -/
theorem mapM_flatten_eq_ok_iff {step : α → Except ε (List β)} {items : List α} {results : List β} :
    (items.mapM step >>= fun parts => .ok parts.flatten) = .ok results ↔
      ∃ part : α → List β, (∀ item ∈ items, step item = .ok (part item)) ∧
        items.flatMap part = results := by
  constructor
  · intro run
    obtain ⟨parts, ran, final⟩ := bind_eq_ok_iff.mp run
    obtain ⟨part, each, rfl⟩ := exists_of_mapM_eq_ok ran
    exact ⟨part, each, List.flatMap_def.trans (Except.ok.inj final)⟩
  · rintro ⟨part, each, rfl⟩
    exact bind_eq_ok_iff.mpr ⟨items.map part, mapM_eq_ok each, congrArg _ List.flatMap_def.symm⟩

/-- Where each step makes something of its item alone and then puts it to use, everything can be made
first and put to use afterwards. -/
theorem foldlM_eq_mapM {step : β → α → Except ε β} {make : α → Except ε δ} {use : β → δ → β}
    (splits : ∀ state item, step state item = make item >>= fun made => .ok (use state made))
    (items : List α) (state : β) :
    items.foldlM step state = items.mapM make >>= fun made => .ok (made.foldl use state) := by
  induction items generalizing state with
  | nil => rfl
  | cons item items ih =>
    rw [List.foldlM_cons, List.mapM_cons, splits]
    cases make item with
    | error fault => rfl
    | ok made =>
      have rest := ih (use state made)
      cases ran : items.mapM make with
      | error fault => rwa [ran] at rest
      | ok more => rwa [ran] at rest

/-- The fault of a computation that failed. -/
def fault? : Except ε α → Option ε
  | .error fault => some fault
  | .ok _ => none

theorem fault?_eq_some_iff {outcome : Except ε α} {fault : ε} :
    fault? outcome = some fault ↔ outcome = .error fault := by
  cases outcome with
  | error own => simp [fault?]
  | ok result => simp [fault?]

theorem fault?_eq_none_iff {outcome : Except ε α} :
    fault? outcome = none ↔ ∃ result, outcome = .ok result := by
  cases outcome with
  | error own => simp [fault?]
  | ok result => simp [fault?]

theorem fault?_mapError (outcome : Except ε α) (rename : ε → δ) :
    fault? (outcome.mapError rename) = (fault? outcome).map rename := by
  cases outcome with
  | error own => rfl
  | ok result => rfl

theorem fault?_bind_ok (outcome : Except ε α) (use : α → β) :
    fault? (outcome >>= fun result => .ok (use result)) = fault? outcome := by
  cases outcome with
  | error own => rfl
  | ok result => rfl

/-- The first fault of a pass over items is the fault of the pass. -/
theorem fault?_mapM (step : α → Except ε β) (items : List α) :
    fault? (items.mapM step) = items.findSome? fun item => fault? (step item) := by
  induction items with
  | nil => rfl
  | cons item items ih =>
    rw [List.mapM_cons, List.findSome?_cons]
    cases step item with
    | error own => rfl
    | ok result =>
      rw [fault?, ← ih]
      cases items.mapM step with
      | error later => rfl
      | ok results => rfl

/-- Where the item alone decides whether a step fails, a chain of steps has the fault of the first item
that has one. -/
theorem fault?_foldlM {step : β → α → Except ε β} {own : α → Option ε}
    (decides : ∀ state item, fault? (step state item) = own item) (items : List α) (state : β) :
    fault? (items.foldlM step state) = items.findSome? own := by
  induction items generalizing state with
  | nil => rfl
  | cons item items ih =>
    have first := decides state item
    rw [List.foldlM_cons, List.findSome?_cons, ← first]
    cases ran : step state item with
    | error fault => rfl
    | ok next => exact ih next

/-- What holds at the start and is kept by each step holds at the end. The property may speak of the
items that are still to come. -/
theorem foldlM_preserves {step : β → α → Except ε β} (Holds : List α → β → Prop)
    (kept : ∀ item items state next, Holds (item :: items) state → step state item = .ok next →
      Holds items next)
    {items : List α} {state final : β} (start : Holds items state)
    (run : items.foldlM step state = .ok final) : Holds [] final := by
  induction items generalizing state with
  | nil =>
    cases run
    exact start
  | cons item items ih =>
    obtain ⟨next, first, rest⟩ := bind_eq_ok_iff.mp run
    exact ih (kept item items state next start first) rest

/-- A chain of steps that succeeds is also one of steps that do what these do where they succeed. -/
theorem foldlM_eq_ok_of_imp {step other : β → α → Except ε β}
    (follows : ∀ state item next, step state item = .ok next → other state item = .ok next)
    {items : List α} {state final : β} (run : items.foldlM step state = .ok final) :
    items.foldlM other state = .ok final := by
  induction items generalizing state with
  | nil => exact run
  | cons item items ih =>
    obtain ⟨next, first, rest⟩ := bind_eq_ok_iff.mp run
    exact bind_eq_ok_iff.mpr ⟨next, follows state item next first, ih rest⟩

end IntentModel
