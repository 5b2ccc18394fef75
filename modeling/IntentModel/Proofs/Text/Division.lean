import IntentModel.Text.Blank
import Mathlib.Data.List.Basic
import Mathlib.Tactic.ByContra
import Mathlib.Tactic.SplitIfs

/-! # Division of texts into runs

A text falls into runs of visible characters. Blanks belong to no run, and a `Bond` says which
neighbours belong to the same one, so the division is settled by looking at two characters at a
time. `divide_append` says how the runs of two texts become the runs of the whole: at most the last
run of the first and the first run of the second grow together.

A run by itself is one run, so runs that are written with single spaces between them are found again
(`divide_join`).

Blanks alone separate the runs of `visibleBond`, and `collapse_eq_join` states that collapsing a text
is the same as writing these runs with single spaces between them.
-/

namespace IntentModel

/-- Which neighbouring characters belong to one run. Blanks belong to none. -/
structure Bond where
  holds : CodePoint → CodePoint → Bool
  visible : ∀ first second, holds first second = true →
    isBlank first = false ∧ isBlank second = false

/-- Neighbours belong together as long as neither is blank. -/
def visibleBond : Bond where
  holds first second := !isBlank first && !isBlank second
  visible first second bound := by simpa using bound

namespace Text

/-- Whether the first character of `text` goes on with the run of a character before it. -/
def continues (bond : Bond) (c : CodePoint) (text : Text) : Bool :=
  text.head?.any (bond.holds c)

/-- Whether the run at the end of `first` goes on in `second`. -/
def meets (bond : Bond) (first second : Text) : Bool :=
  first.getLast?.any fun c => continues bond c second

def extendFirst (c : CodePoint) : List Text → List Text
  | [] => [[c]]
  | run :: runs => (c :: run) :: runs

/-- Lets the last run of the first list and the first run of the second grow together. -/
def fuse : List Text → List Text → List Text
  | [], second => second
  | [run], next :: second => (run ++ next) :: second
  | run :: first, second => run :: fuse first second

def divide (bond : Bond) : Text → List Text
  | [] => []
  | c :: text =>
    if isBlank c then divide bond text
    else if continues bond c text then extendFirst c (divide bond text)
    else [c] :: divide bond text

variable {bond : Bond}

theorem continues_cons (bond : Bond) (c d : CodePoint) (text : Text) :
    continues bond c (d :: text) = bond.holds c d := rfl

/-- Only a visible character goes on with a run. -/
theorem exists_of_continues {c : CodePoint} {text : Text} (goesOn : continues bond c text = true) :
    isBlank c = false ∧ ∃ d rest, text = d :: rest ∧ isBlank d = false := by
  cases text with
  | nil => simp [continues] at goesOn
  | cons d rest => exact ⟨(bond.visible c d goesOn).1, d, rest, rfl, (bond.visible c d goesOn).2⟩

theorem divide_cons_blank {c : CodePoint} (blank : isBlank c = true) (text : Text) :
    divide bond (c :: text) = divide bond text := by
  simp only [divide, blank, ↓reduceIte]

theorem divide_cons_bound {c : CodePoint} {text : Text} (goesOn : continues bond c text = true) :
    divide bond (c :: text) = extendFirst c (divide bond text) := by
  simp [divide, goesOn, (exists_of_continues goesOn).1]

theorem divide_cons_apart {c : CodePoint} {text : Text} (visible : isBlank c = false)
    (apart : continues bond c text = false) :
    divide bond (c :: text) = [c] :: divide bond text := by
  simp [divide, apart, visible]

/-- A visible character by itself is a run. -/
theorem divide_singleton {c : CodePoint} (visible : isBlank c = false) : divide bond [c] = [[c]] :=
  divide_cons_apart visible rfl

theorem extendFirst_ne_nil (c : CodePoint) (runs : List Text) : extendFirst c runs ≠ [] := by
  cases runs <;> simp [extendFirst]

/-- A text has no runs exactly when it is blank. -/
theorem divide_eq_nil_iff {text : Text} :
    divide bond text = [] ↔ ∀ c ∈ text, isBlank c = true := by
  induction text with
  | nil => simp [divide]
  | cons c text ih =>
    rw [divide]
    split_ifs with blank goesOn
    · simp [ih, blank]
    · simp [extendFirst_ne_nil, blank]
    · simp [blank]

/-- Runs are never empty and hold no blank. -/
theorem visible_of_mem_divide {text run : Text} (member : run ∈ divide bond text) :
    run ≠ [] ∧ ∀ c ∈ run, isBlank c = false := by
  induction text generalizing run with
  | nil => simp [divide] at member
  | cons c text ih =>
    rw [divide] at member
    split_ifs at member with blank goesOn
    · exact ih member
    · have visible : isBlank c = false := by simpa using blank
      cases divided : divide bond text with
      | nil => simp_all [extendFirst]
      | cons next runs =>
        rw [divided, extendFirst] at member
        rcases List.mem_cons.mp member with rfl | member
        · have inner := ih (divided ▸ List.mem_cons_self ..)
          exact ⟨List.cons_ne_nil _ _, by simpa [visible] using inner.2⟩
        · exact ih (divided ▸ List.mem_cons_of_mem _ member)
    · rcases List.mem_cons.mp member with rfl | member
      · simpa using blank
      · exact ih member

/-! ## Texts that are put together -/

theorem fuse_nil_right (first : List Text) : fuse first [] = first := by
  induction first with
  | nil => rfl
  | cons run first ih => cases first <;> simp_all [fuse]

theorem fuse_cons_cons (run next : Text) (first second : List Text) :
    fuse (run :: next :: first) second = run :: fuse (next :: first) second := by
  simp [fuse]

/-- The seam lies between the last run of the first list and the first of the second. -/
theorem fuse_concat (front : List Text) (run next : Text) (second : List Text) :
    fuse (front ++ [run]) (next :: second) = front ++ (run ++ next) :: second := by
  induction front with
  | nil => rfl
  | cons head front ih =>
    cases front with
    | nil => rfl
    | cons _ _ => simpa only [List.cons_append, fuse_cons_cons, List.cons.injEq, true_and] using ih

theorem extendFirst_fuse (c : CodePoint) {first : List Text} (present : first ≠ []) (second : List Text) :
    extendFirst c (fuse first second) = fuse (extendFirst c first) second := by
  obtain ⟨run, rest, rfl⟩ := List.exists_cons_of_ne_nil present
  cases rest <;> cases second <;> rfl

theorem cons_fuse (run : Text) {first : List Text} (present : first ≠ []) (second : List Text) :
    run :: fuse first second = fuse (run :: first) second := by
  obtain ⟨next, rest, rfl⟩ := List.exists_cons_of_ne_nil present
  rw [fuse_cons_cons]

/-- One more character at the front leaves the seam to the next text as it was. -/
theorem meets_cons_cons (bond : Bond) (c d : CodePoint) (first second : Text) :
    meets bond (c :: d :: first) second = meets bond (d :: first) second := by
  simp [meets, List.getLast?_cons_cons]

/-- Two texts meet between visible characters. -/
theorem exists_of_meets {first second : Text} (met : meets bond first second = true) :
    ∃ c d rest, first.getLast? = some c ∧ isBlank c = false ∧
      second = d :: rest ∧ isBlank d = false := by
  obtain ⟨c, last, goesOn⟩ := (Option.any_eq_true _ _).mp met
  obtain ⟨visible, d, rest, equal, visibleNext⟩ := exists_of_continues goesOn
  exact ⟨c, d, rest, last, visible, equal, visibleNext⟩

/-- A text that meets the next one has runs. -/
theorem divide_ne_nil_of_meets {first second : Text} (met : meets bond first second = true) :
    divide bond first ≠ [] := by
  obtain ⟨c, -, -, last, visible, -⟩ := exists_of_meets met
  intro empty
  have blank := divide_eq_nil_iff.mp empty c (List.mem_of_getLast? last)
  simp [visible] at blank

/-- A single character in front of a text. -/
theorem divide_singleton_append (bond : Bond) (c : CodePoint) (second : Text) :
    divide bond ([c] ++ second) =
      if meets bond [c] second then fuse (divide bond [c]) (divide bond second)
      else divide bond [c] ++ divide bond second := by
  have seam : meets bond [c] second = continues bond c second := by simp [meets]
  rw [seam, List.singleton_append]
  cases goesOn : continues bond c second with
  | true =>
    obtain ⟨visible, d, rest, rfl, visibleNext⟩ := exists_of_continues goesOn
    have present : divide bond (d :: rest) ≠ [] := by simp [divide_eq_nil_iff, visibleNext]
    obtain ⟨run, runs, divided⟩ := List.exists_cons_of_ne_nil present
    rw [divide_cons_bound goesOn, divided]
    simp [divide, visible, continues, extendFirst, fuse]
  | false =>
    by_cases blank : isBlank c = true
    · simp [divide, blank]
    · have visible : isBlank c = false := by simpa using blank
      rw [divide_cons_apart visible goesOn]
      simp [divide, visible, continues]

/-- The runs of two texts are the runs of the whole, but where the second goes on with the last run
of the first these two runs are one. -/
theorem divide_append (bond : Bond) (first second : Text) :
    divide bond (first ++ second) =
      if meets bond first second then fuse (divide bond first) (divide bond second)
      else divide bond first ++ divide bond second := by
  induction first with
  | nil => simp [meets, divide]
  | cons c first ih =>
    cases first with
    | nil => exact divide_singleton_append bond c second
    | cons d first =>
      rw [meets_cons_cons, List.cons_append]
      by_cases blank : isBlank c = true
      · rw [divide_cons_blank blank, divide_cons_blank blank, ih]
      have visible : isBlank c = false := by simpa using blank
      have sameHead : continues bond c (d :: first ++ second) = continues bond c (d :: first) := rfl
      cases goesOn : continues bond c (d :: first) with
      | true =>
        have visibleNext : isBlank d = false := (bond.visible c d goesOn).2
        have present : divide bond (d :: first) ≠ [] := by simp [divide_eq_nil_iff, visibleNext]
        rw [divide_cons_bound (sameHead.trans goesOn), divide_cons_bound goesOn, ih]
        split_ifs with met
        · exact extendFirst_fuse c present _
        · obtain ⟨run, runs, divided⟩ := List.exists_cons_of_ne_nil present
          simp [divided, extendFirst]
      | false =>
        rw [divide_cons_apart visible (sameHead.trans goesOn), divide_cons_apart visible goesOn, ih]
        split_ifs with met
        · exact cons_fuse [c] (divide_ne_nil_of_meets met) _
        · rfl

/-- Blanks in front add no runs. -/
theorem divide_blank_append {blanks : Text} (blank : ∀ c ∈ blanks, isBlank c = true) (text : Text) :
    divide bond (blanks ++ text) = divide bond text := by
  induction blanks with
  | nil => rfl
  | cons c blanks ih =>
    obtain ⟨first, others⟩ := List.forall_mem_cons.mp blank
    rw [List.cons_append, divide_cons_blank first, ih others]

/-- Blanks at the end add no runs. -/
theorem divide_append_blank {blanks : Text} (blank : ∀ c ∈ blanks, isBlank c = true) (text : Text) :
    divide bond (text ++ blanks) = divide bond text := by
  have empty : divide bond blanks = [] := divide_eq_nil_iff.mpr blank
  rw [divide_append, empty, fuse_nil_right, List.append_nil, ite_self]

/-- Where two texts meet, the last run of the first and the first run of the second are one run. -/
theorem exists_seam_of_meets {first second : Text} (met : meets bond first second = true) :
    ∃ front last next rest, divide bond first = front ++ [last] ∧
      divide bond second = next :: rest ∧
      divide bond (first ++ second) = front ++ (last ++ next) :: rest := by
  obtain ⟨-, d, behind, -, -, rfl, visible⟩ := exists_of_meets met
  have present : divide bond (d :: behind) ≠ [] := by simp [divide_eq_nil_iff, visible]
  obtain ⟨next, rest, divided⟩ := List.exists_cons_of_ne_nil present
  obtain ⟨front, last, whole⟩ : ∃ front last, divide bond first = front ++ [last] :=
    ⟨_, _, (List.dropLast_concat_getLast (divide_ne_nil_of_meets met)).symm⟩
  refine ⟨front, last, next, rest, whole, divided, ?_⟩
  rw [divide_append, if_pos met, whole, divided, fuse_concat]

/-- Texts that do not meet are divided each for itself. -/
theorem divide_append_of_apart {first second : Text} (apart : meets bond first second = false) :
    divide bond (first ++ second) = divide bond first ++ divide bond second := by
  rw [divide_append, apart, if_neg Bool.false_ne_true]

/-- No text meets one that begins with a blank. -/
theorem meets_cons_blank {c : CodePoint} (blank : isBlank c = true) (first second : Text) :
    meets bond first (c :: second) = false := by
  by_contra met
  obtain ⟨_, _, _, -, -, equal, visible⟩ := exists_of_meets (by simpa using met)
  cases equal
  simp [blank] at visible

/-- A blank parts the text before it from the text behind it. -/
theorem divide_append_cons_blank {c : CodePoint} (blank : isBlank c = true) (first second : Text) :
    divide bond (first ++ c :: second) = divide bond first ++ divide bond second := by
  rw [divide_append_of_apart (meets_cons_blank blank first second), divide_cons_blank blank]

/-- Text that is added behind another takes no runs away. -/
theorem length_divide_le (bond : Bond) (first second : Text) :
    (divide bond first).length ≤ (divide bond (first ++ second)).length := by
  cases met : meets bond first second with
  | true =>
    obtain ⟨front, last, next, rest, whole, -, joined⟩ := exists_seam_of_meets met
    simp [whole, joined]
  | false => simp [divide_append_of_apart met]

/-! ## Runs by themselves -/

/-- The first run begins with the first character, if that is visible. -/
theorem exists_divide_cons (bond : Bond) {c : CodePoint} (visible : isBlank c = false) (text : Text) :
    ∃ run runs, divide bond (c :: text) = (c :: run) :: runs := by
  cases goesOn : continues bond c text with
  | false => exact ⟨[], _, divide_cons_apart visible goesOn⟩
  | true =>
    rw [divide_cons_bound goesOn]
    cases divide bond text with
    | nil => exact ⟨[], [], rfl⟩
    | cons run runs => exact ⟨run, runs, rfl⟩

/-- A run is not divided any further. -/
theorem divide_of_mem_divide {text run : Text} (member : run ∈ divide bond text) :
    divide bond run = [run] := by
  induction text generalizing run with
  | nil => cases member
  | cons c text ih =>
    by_cases blank : isBlank c = true
    · rw [divide_cons_blank blank] at member
      exact ih member
    have visible : isBlank c = false := by simpa using blank
    cases goesOn : continues bond c text with
    | true =>
      obtain ⟨-, d, rest, rfl, visibleNext⟩ := exists_of_continues goesOn
      obtain ⟨next, runs, divided⟩ := exists_divide_cons bond visibleNext rest
      rw [divide_cons_bound goesOn, divided, extendFirst] at member
      rw [divided] at ih
      rcases List.mem_cons.mp member with rfl | member
      · -- the run that grows begins with the same character as the text behind
        have onward : continues bond c (d :: next) = true := goesOn
        rw [divide_cons_bound onward, ih (List.mem_cons_self ..), extendFirst]
      · exact ih (List.mem_cons_of_mem _ member)
    | false =>
      rw [divide_cons_apart visible goesOn] at member
      rcases List.mem_cons.mp member with rfl | member
      · exact divide_singleton visible
      · exact ih member

/-- A text without blanks is one run of visible characters, if it is not empty. -/
theorem divide_visibleBond_of_visible {text : Text} (visible : ∀ c ∈ text, isBlank c = false) :
    divide visibleBond text = if text = [] then [] else [text] := by
  induction text with
  | nil => rfl
  | cons c text ih =>
    obtain ⟨own, others⟩ := List.forall_mem_cons.mp visible
    rw [if_neg (List.cons_ne_nil c text)]
    cases text with
    | nil => exact divide_singleton own
    | cons d text =>
      have goesOn : continues visibleBond c (d :: text) = true := by
        simp [continues_cons, visibleBond, own, others d (List.mem_cons_self ..)]
      rw [divide_cons_bound goesOn, ih others, if_neg (List.cons_ne_nil d text), extendFirst]

/-- What holds of texts without blanks, and of two texts with a blank between them if it holds of both, holds
of all texts. -/
theorem induction_on_blanks {motive : Text → Prop}
    (visible : ∀ text : Text, (∀ c ∈ text, isBlank c = false) → motive text)
    (parted : ∀ (first : Text) (c : CodePoint) (second : Text), isBlank c = true →
      motive first → motive second → motive (first ++ c :: second)) (text : Text) : motive text := by
  induction size : text.length using Nat.strongRecOn generalizing text with
  | ind size ih =>
    by_cases present : ∃ c ∈ text, isBlank c = true
    · obtain ⟨c, member, blank⟩ := present
      obtain ⟨first, second, rfl⟩ := List.append_of_mem member
      rw [List.length_append, List.length_cons] at size
      exact parted first c second blank (ih _ (by omega) first rfl) (ih _ (by omega) second rfl)
    · exact visible text fun c member => Bool.eq_false_iff.mpr fun blank => present ⟨c, member, blank⟩

/-- The runs hold all that is visible, in order. -/
theorem flatten_divide (bond : Bond) (text : Text) :
    (divide bond text).flatten = text.filter fun c => !isBlank c := by
  induction text with
  | nil => rfl
  | cons c text ih =>
    rw [divide]
    split_ifs with blank goesOn
    · rw [ih, List.filter_cons_of_neg (by simp [blank])]
    · rw [List.filter_cons_of_pos (by simp [blank]), ← ih]
      cases divide bond text <;> rfl
    · rw [List.filter_cons_of_pos (by simp [blank]), ← ih, List.flatten_cons, List.singleton_append]

/-- Texts that differ in blanks only hold the same visible characters. -/
theorem mem_iff_of_filter_eq {text other : Text}
    (same : (text.filter fun c => !isBlank c) = other.filter fun c => !isBlank c) {c : CodePoint}
    (visible : isBlank c = false) : c ∈ text ↔ c ∈ other := by
  have kept := congrArg (c ∈ ·) same
  simpa [List.mem_filter, visible] using kept

/-! ## Single spaces between runs -/

theorem join_cons (separator piece : Text) (pieces : List Text) :
    join separator (piece :: pieces) =
      if pieces = [] then piece else piece ++ separator ++ join separator pieces := by
  cases pieces <;> simp [join, List.intercalate, List.intersperse]

theorem join_extendFirst (separator : Text) (c : CodePoint) {runs : List Text} (present : runs ≠ []) :
    join separator (extendFirst c runs) = c :: join separator runs := by
  obtain ⟨run, rest, rfl⟩ := List.exists_cons_of_ne_nil present
  rw [extendFirst, join_cons, join_cons]
  split_ifs <;> simp

/-- Texts that are written with single spaces between them are divided each for itself. -/
theorem divide_join_eq_flatMap (bond : Bond) (pieces : List Text) :
    divide bond (join [.char ' '] pieces) = pieces.flatMap (divide bond) := by
  induction pieces with
  | nil => rfl
  | cons piece pieces ih =>
    rw [join_cons, List.flatMap_cons, ← ih]
    split_ifs with last
    · rw [last, join, List.intercalate_nil, divide, List.append_nil]
    · have space : isBlank ' ' = true := by decide
      rw [List.append_assoc, List.singleton_append, divide_append_cons_blank space]

/-- Runs that are written with single spaces between them are the runs of what is written. -/
theorem divide_join {runs : List Text} (single : ∀ run ∈ runs, divide bond run = [run]) :
    divide bond (join [.char ' '] runs) = runs := by
  rw [divide_join_eq_flatMap, List.flatMap_congr single, List.flatMap_singleton']

/-- Trimming reaches a first character only when everything behind it is trimmed away. -/
theorem trimEnd_cons (c : CodePoint) (text : Text) :
    trimEnd (c :: text) = if isBlank c ∧ trimEnd text = [] then [] else c :: trimEnd text := by
  simp only [trimEnd, dropEndWhile, List.reverse_cons, List.dropWhile_append,
    List.isEmpty_iff, List.reverse_eq_nil_iff]
  by_cases trimmed : text.reverse.dropWhile isBlank = [] <;> by_cases blank : isBlank c = true <;>
    simp [trimmed, blank]

/-- Squeezing within a run of blanks begins with a visible character. -/
theorem dropWhile_squeezeFrom_true (text : Text) :
    (squeezeFrom true text).dropWhile isBlank = squeezeFrom true text := by
  induction text with
  | nil => rfl
  | cons c text ih =>
    by_cases blank : isBlank c = true
    · simp only [squeezeFrom, blank, ↓reduceIte]
      exact ih
    · simp only [squeezeFrom, blank]
      exact List.dropWhile_cons_of_neg blank

theorem dropWhile_squeezeFrom_false (text : Text) :
    (squeezeFrom false text).dropWhile isBlank = squeezeFrom true text := by
  cases text with
  | nil => rfl
  | cons c text =>
    have space : isBlank ' ' = true := by decide
    rw [squeezeFrom, squeezeFrom]
    by_cases blank : isBlank c = true
    · simp [blank, space, dropWhile_squeezeFrom_true]
    · simp [blank]

/-- Before a text that does not go on with a visible character stands a blank, or nothing. -/
theorem begins_blank_of_apart {c : CodePoint} {text : Text} (visible : isBlank c = false)
    (apart : continues visibleBond c text = false) (present : divide visibleBond text ≠ []) :
    text.head?.any isBlank = true := by
  cases text with
  | nil => exact (present rfl).elim
  | cons d rest =>
    rw [continues_cons] at apart
    simpa [visibleBond, visible] using apart

theorem join_divide_eq_nil_iff (bond : Bond) (text : Text) :
    join [.char ' '] (divide bond text) = [] ↔ divide bond text = [] := by
  cases divided : divide bond text with
  | nil => simp [join, List.intercalate]
  | cons run runs =>
    have filled := (visible_of_mem_divide (divided ▸ List.mem_cons_self ..)).1
    rw [join_cons]
    split_ifs <;> simp [filled]

/-- Trimmed at the end, a text squeezed within a run of blanks consists of its runs with single
spaces between them. Outside of such a run a space stands in front if the text begins with a blank. -/
theorem trimEnd_squeezeFrom (text : Text) :
    trimEnd (squeezeFrom true text) = join [.char ' '] (divide visibleBond text) ∧
      trimEnd (squeezeFrom false text) =
        if text.head?.any isBlank ∧ divide visibleBond text ≠ [] then
          .char ' ' :: join [.char ' '] (divide visibleBond text)
        else join [.char ' '] (divide visibleBond text) := by
  induction text with
  | nil => simp [squeezeFrom, trimEnd, dropEndWhile, divide, join, List.intercalate]
  | cons c text ih =>
    by_cases blank : isBlank c = true
    · have space : isBlank ' ' = true := by decide
      rw [divide_cons_blank blank]
      simp only [squeezeFrom, blank, ↓reduceIte, Bool.false_eq_true]
      refine ⟨ih.1, ?_⟩
      simp only [trimEnd_cons, ih.1, join_divide_eq_nil_iff]
      by_cases empty : divide visibleBond text = []
      · simp [empty, space, join, List.intercalate]
      · simp [empty, blank]
    · have visible : isBlank c = false := by simpa using blank
      have begun : trimEnd (c :: squeezeFrom false text) =
          join [.char ' '] (divide visibleBond (c :: text)) := by
        rw [trimEnd_cons, ih.2]
        cases goesOn : continues visibleBond c text with
        | true =>
          obtain ⟨-, d, rest, rfl, visibleNext⟩ := exists_of_continues goesOn
          have present : divide visibleBond (d :: rest) ≠ [] := by
            simp [divide_eq_nil_iff, visibleNext]
          rw [divide_cons_bound goesOn, join_extendFirst _ _ present]
          simp [visible, visibleNext]
        | false =>
          rw [divide_cons_apart visible goesOn, join_cons]
          by_cases empty : divide visibleBond text = []
          · simp [empty, visible, join, List.intercalate]
          · simp [empty, visible, begins_blank_of_apart visible goesOn empty]
      simp only [squeezeFrom, visible, Bool.false_eq_true, ↓reduceIte]
      exact ⟨begun, by simpa [visible] using begun⟩

/-- Collapsing a text writes its runs of visible characters with single spaces between them. -/
theorem collapse_eq_join (text : Text) :
    text.collapse = join [.char ' '] (divide visibleBond text) := by
  rw [collapse, trim, trimWhile, dropWhile_squeezeFrom_false]
  exact (trimEnd_squeezeFrom text).1

/-- The runs of a bond lie within the runs of visible characters. -/
theorem flatMap_divide_visibleBond (bond : Bond) (text : Text) :
    (divide visibleBond text).flatMap (divide bond) = divide bond text := by
  induction text with
  | nil => rfl
  | cons c text ih =>
    by_cases blank : isBlank c = true
    · rw [divide_cons_blank blank, divide_cons_blank blank, ih]
    have visible : isBlank c = false := by simpa using blank
    cases seen : continues visibleBond c text with
    | false =>
      have apart : continues bond c text = false := by
        by_contra goesOn
        obtain ⟨-, d, rest, rfl, visibleNext⟩ := exists_of_continues (by simpa using goesOn)
        simp [continues_cons, visibleBond, visible, visibleNext] at seen
      rw [divide_cons_apart visible seen, divide_cons_apart visible apart, List.flatMap_cons, ih,
        divide_singleton visible, List.singleton_append]
    | true =>
      obtain ⟨-, d, rest, rfl, visibleNext⟩ := exists_of_continues seen
      obtain ⟨run, runs, divided⟩ := exists_divide_cons visibleBond visibleNext rest
      rw [divide_cons_bound seen, divided, extendFirst, List.flatMap_cons]
      rw [divided, List.flatMap_cons] at ih
      -- the visible run begins as the text does, so the bond treats the two first characters alike
      have alike : continues bond c (d :: run) = continues bond c (d :: rest) := rfl
      cases goesOn : continues bond c (d :: rest) with
      | true =>
        obtain ⟨first, others, own⟩ := exists_divide_cons bond visibleNext run
        rw [divide_cons_bound (alike.trans goesOn), divide_cons_bound goesOn, ← ih, own]
        rfl
      | false =>
        rw [divide_cons_apart visible (alike.trans goesOn), divide_cons_apart visible goesOn, ← ih,
          List.cons_append]

/-- Collapsing a text changes none of its runs. -/
theorem divide_collapse (bond : Bond) (text : Text) :
    divide bond text.collapse = divide bond text := by
  rw [collapse_eq_join, divide_join_eq_flatMap, flatMap_divide_visibleBond]

/-! ## Texts whose characters are changed -/

/-- Characters that are changed without becoming blank or visible, or bound or unbound, keep the runs in
their places. -/
theorem divide_map {change : CodePoint → CodePoint} (blanks : ∀ c, isBlank (change c) = isBlank c)
    (bonds : ∀ c d, bond.holds (change c) (change d) = bond.holds c d) (text : Text) :
    divide bond (text.map change) = (divide bond text).map (List.map change) := by
  induction text with
  | nil => rfl
  | cons c text ih =>
    have same : continues bond (change c) (text.map change) = continues bond c text := by
      cases text with
      | nil => rfl
      | cons d text => exact bonds c d
    rw [List.map_cons, divide, divide, blanks, same, ih]
    split_ifs
    · rfl
    · cases divide bond text <;> rfl
    · rfl

end Text
end IntentModel
