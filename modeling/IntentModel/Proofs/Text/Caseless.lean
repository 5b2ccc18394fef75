import IntentModel.Proofs.Text.Folding
import IntentModel.Proofs.Text.Lowercase

/-! # Characters without case

Blanks and commas have no case: lower-casing keeps them, and it makes them out of nothing else
(`isCaseless_of_isBlank`, `isCaseless_comma`). A folded text therefore has them where the text itself has
them (`mem_fold_iff`).

A capital sigma looks at its neighbours, but not past a blank. So the text before a blank and the text behind
it are lowered each for itself (`lower_append_blank`), and folding goes run by run (`divide_fold`).
-/

namespace IntentModel

/-- The character is the lower case of itself and of nothing else. -/
structure IsCaseless (d : CodePoint) : Prop where
  kept : lowerChar d = [d]
  alone : ∀ c, d ∈ lowerChar c → c = d
  not_final : d ≠ 'ς'

def blankPoints : List Nat :=
  [0x09, 0x0A, 0x0B, 0x0C, 0x0D, 0x1C, 0x1D, 0x1E, 0x1F, 0x20, 0x85, 0xA0, 0x1680, 0x2000, 0x2001, 0x2002,
    0x2003, 0x2004, 0x2005, 0x2006, 0x2007, 0x2008, 0x2009, 0x200A, 0x2028, 0x2029, 0x202F, 0x205F, 0x3000]

theorem mem_blankPoints_iff {c : CodePoint} : c.toNat ∈ blankPoints ↔ isBlank c = true := by
  simp only [blankPoints, List.mem_cons, List.not_mem_nil, or_false, isBlank, Bool.or_eq_true,
    Bool.and_eq_true, decide_eq_true_eq, beq_iff_eq]
  omega

/-- No run of capitals has the code point, neither as a capital nor among the lower-case forms. -/
def CapitalRun.avoids (run : CapitalRun) (n : Nat) : Bool :=
  !run.covers n && (Nat.blt (run.lowered run.last) n || Nat.blt n (run.lowered run.first))

theorem avoids_capitalRuns :
    (','.toNat :: blankPoints).all (fun n => capitalRuns.all fun run => run.avoids n) = true := by
  decide +kernel

/-- A capital of a run does not become a character that the run avoids. -/
theorem CapitalRun.ofNat_lowered_ne {run : CapitalRun} {n : Nat} {d : CodePoint} (member : run ∈ capitalRuns)
    (avoided : run.avoids d.toNat = true) (covered : run.covers n = true) :
    CodePoint.ofNat (run.lowered n) ≠ d := by
  have between := lowered_between covered
  simp only [avoids, Bool.and_eq_true, Bool.or_eq_true, Nat.blt_eq] at avoided
  rintro rfl
  rw [toNat_lowered member covered] at avoided
  omega

theorem isCaseless_of_avoided {d : CodePoint} (other : isWordChar d = false) (dot : d ≠ '\u0307')
    (final : d ≠ 'ς') (avoided : ∀ run ∈ capitalRuns, run.avoids d.toNat = true) : IsCaseless d := by
  have dotted : d ≠ '\u0130' := by
    rintro rfl
    exact absurd other (by decide)
  have free : ∀ run ∈ capitalRuns, run.covers d.toNat = false := fun run member => by
    simpa using (Bool.and_eq_true_iff.mp (avoided run member)).1
  refine ⟨(isLowered_of_not_covered dotted free).2, fun c member => ?_, final⟩
  by_cases ascii : c.toNat < 0x80
  · rw [lowerChar, if_pos ascii, List.mem_singleton] at member
    rcases toLower_eq_self_or_word c with same | ⟨-, word⟩
    · rw [member, same]
    · rw [← member, other] at word
      cases word
  · rw [lowerChar, if_neg ascii] at member
    split_ifs at member with own
    · rcases List.mem_cons.mp member with rfl | rest
      · exact absurd other (by decide)
      · exact absurd (List.mem_singleton.mp rest) dot
    · cases found : capitalRuns.find? (fun run => run.covers c.toNat) with
      | none =>
        rw [found, List.mem_singleton] at member
        exact member.symm
      | some run =>
        rw [found, List.mem_singleton] at member
        have among := List.mem_of_find?_eq_some found
        have covered := List.find?_some found
        exact absurd member.symm (run.ofNat_lowered_ne among (avoided run among) covered)

theorem isCaseless_of_isBlank {d : CodePoint} (blank : isBlank d = true) : IsCaseless d := by
  refine isCaseless_of_avoided ?_ ?_ ?_ fun run member => ?_
  · by_contra word
    rw [isBlank_of_isWordChar (by simpa using word)] at blank
    cases blank
  · rintro rfl
    exact absurd blank (by decide)
  · rintro rfl
    exact absurd blank (by decide)
  · have point := List.mem_cons_of_mem ','.toNat (mem_blankPoints_iff.mpr blank)
    exact List.all_eq_true.mp (List.all_eq_true.mp avoids_capitalRuns _ point) run member

theorem isCaseless_comma : IsCaseless ',' :=
  isCaseless_of_avoided (by decide) (by decide) (by decide) fun run member =>
    List.all_eq_true.mp (List.all_eq_true.mp avoids_capitalRuns _ (List.mem_cons_self ..)) run member

/-- Lower-casing makes no blanks and takes none away. -/
theorem isBlank_of_mem_lowerChar {c d : CodePoint} (member : d ∈ lowerChar c) : isBlank d = isBlank c := by
  by_cases blank : isBlank c = true
  · rw [(isCaseless_of_isBlank blank).kept, List.mem_singleton] at member
    rw [member]
  · by_cases made : isBlank d = true
    · rw [(isCaseless_of_isBlank made).alone c member]
    · rw [Bool.eq_false_iff.mpr blank, Bool.eq_false_iff.mpr made]

theorem lowerChar_ne_nil (c : CodePoint) : lowerChar c ≠ [] := by
  unfold lowerChar
  split_ifs
  · simp
  · simp
  · split <;> simp

namespace Text

/-! ## Lower-casing between blanks -/

/-- The lower-case form of a character where it stands. -/
def loweredAt (before : Text) (c : CodePoint) (behind : Text) : Text :=
  if c == 'Σ' then if meetsCased before && !meetsCased behind then [.char 'ς'] else [.char 'σ'] else lowerChar c

theorem lowerFrom_cons (before : Text) (c : CodePoint) (text : Text) :
    lowerFrom before (c :: text) = loweredAt before c text ++ lowerFrom (c :: before) text := rfl

theorem loweredAt_ne_nil (before : Text) (c : CodePoint) (behind : Text) : loweredAt before c behind ≠ [] := by
  unfold loweredAt
  split_ifs
  · simp
  · simp
  · exact lowerChar_ne_nil c

theorem mem_loweredAt_iff {d : CodePoint} (caseless : IsCaseless d) (before : Text) (c : CodePoint)
    (behind : Text) :
    d ∈ loweredAt before c behind ↔ c = d := by
  have sigma : d ≠ 'Σ' ∧ d ≠ 'σ' := by
    constructor
    · rintro rfl
      exact absurd caseless.kept (by decide +kernel)
    · rintro rfl
      exact absurd (caseless.alone 'Σ' (by decide +kernel)) (by decide)
  unfold loweredAt
  split_ifs with own
  · rw [beq_iff_eq] at own
    simp [own, caseless.not_final, sigma.1.symm]
  · rw [beq_iff_eq] at own
    simp [own, sigma.2, sigma.1.symm]
  · constructor
    · exact caseless.alone c
    · rintro rfl
      simp [caseless.kept]

theorem mem_lowerFrom_iff {d : CodePoint} (caseless : IsCaseless d) (before text : Text) :
    d ∈ lowerFrom before text ↔ d ∈ text := by
  induction text generalizing before with
  | nil => rfl
  | cons c text ih =>
    rw [lowerFrom_cons, List.mem_append, mem_loweredAt_iff caseless, ih, List.mem_cons, eq_comm]

theorem toLower_eq_iff {d : CodePoint} (caseless : IsCaseless d) (c : CodePoint) : c.toLower = d ↔ c = d := by
  have lowers (e : CodePoint) : e.toLower = e ∨ lowerChar e = [e.toLower] := by
    by_cases ascii : e.toNat < 0x80
    · exact .inr (if_pos ascii)
    · exact .inl (e.toLower_eq_self_or.resolve_right (by omega))
  constructor
  · intro lowered
    rcases lowers c with same | single
    · rw [← same, lowered]
    · exact caseless.alone c (by simp [single, lowered])
  · rintro rfl
    rcases lowers c with same | single
    · exact same
    · exact (List.singleton_inj.mp (caseless.kept.symm.trans single)).symm

/-- A character without case stands in a folded text exactly when it stands in the text. -/
theorem mem_fold_iff {d : CodePoint} (caseless : IsCaseless d) (text culture : Text) :
    d ∈ text.fold culture ↔ d ∈ text := by
  unfold fold
  split_ifs
  · simp [lowerAscii, toLower_eq_iff caseless]
  · exact mem_lowerFrom_iff caseless [] text

theorem isBlank_of_mem_loweredAt {before behind : Text} {c d : CodePoint}
    (member : d ∈ loweredAt before c behind) : isBlank d = isBlank c := by
  unfold loweredAt at member
  split_ifs at member with own
  · rw [beq_iff_eq.mp own, List.mem_singleton.mp member]
    decide
  · rw [beq_iff_eq.mp own, List.mem_singleton.mp member]
    decide
  · exact isBlank_of_mem_lowerChar member

theorem visible_of_mem_lowerFrom {before text : Text} (visible : ∀ c ∈ text, isBlank c = false) :
    ∀ d ∈ lowerFrom before text, isBlank d = false := by
  induction text generalizing before with
  | nil => simp [lowerFrom]
  | cons c text ih =>
    obtain ⟨own, others⟩ := List.forall_mem_cons.mp visible
    intro d member
    rw [lowerFrom_cons, List.mem_append] at member
    rcases member with here | later
    · rw [isBlank_of_mem_loweredAt here, own]
    · exact ih others d later

theorem lowerFrom_eq_nil_iff {before text : Text} : lowerFrom before text = [] ↔ text = [] := by
  cases text with
  | nil => simp [lowerFrom]
  | cons c text => simp [lowerFrom_cons, loweredAt_ne_nil]

/-! ## Blanks among cased letters -/

theorem neutral_blankPoints :
    blankPoints.all (fun n => !caseIgnorable.contains (CodePoint.ofNat n) && !cased.contains (CodePoint.ofNat n)) =
      true := by
  decide +kernel

/-- A blank is not passed over by the search for a cased letter, and is none. -/
theorem neutral_of_isBlank {c : CodePoint} (blank : isBlank c = true) :
    caseIgnorable.contains c = false ∧ cased.contains c = false := by
  have each := List.all_eq_true.mp neutral_blankPoints _ (mem_blankPoints_iff.mpr blank)
  simpa [CodePoint.ofNat_toNat] using each

theorem meetsCased_cons (c : CodePoint) (text : Text) :
    meetsCased (c :: text) = if caseIgnorable.contains c then meetsCased text else cased.contains c := by
  rw [meetsCased, List.find?_cons]
  cases caseIgnorable.contains c <;> rfl

theorem meetsCased_blank {c : CodePoint} (blank : isBlank c = true) (text : Text) :
    meetsCased (c :: text) = false := by
  obtain ⟨seen, uncased⟩ := neutral_of_isBlank blank
  simp [meetsCased_cons, seen, uncased]

/-- What lies behind a blank cannot be seen from before it. -/
theorem meetsCased_append_blank {c : CodePoint} (blank : isBlank c = true) (first second : Text) :
    meetsCased (first ++ c :: second) = meetsCased first := by
  induction first with
  | nil => exact meetsCased_blank blank second
  | cons d first ih => rw [List.cons_append, meetsCased_cons, meetsCased_cons, ih]

/-- Only the case of the nearest letter before a text matters. -/
theorem lowerFrom_congr {before other : Text} (same : meetsCased before = meetsCased other) (text : Text) :
    lowerFrom before text = lowerFrom other text := by
  induction text generalizing before other with
  | nil => rfl
  | cons c text ih =>
    have next : meetsCased (c :: before) = meetsCased (c :: other) := by
      rw [meetsCased_cons, meetsCased_cons, same]
    rw [lowerFrom_cons, lowerFrom_cons, loweredAt, loweredAt, same, ih next]

theorem lowerFrom_append_blank {c : CodePoint} (blank : isBlank c = true) (before first second : Text) :
    lowerFrom before (first ++ c :: second) = lowerFrom before first ++ c :: lower second := by
  induction first generalizing before with
  | nil =>
    have own : (c == 'Σ') = false := by
      rw [beq_eq_false_iff_ne]
      rintro rfl
      exact absurd blank (by decide)
    have fresh : meetsCased (c :: before) = meetsCased [] := meetsCased_blank blank before
    rw [List.nil_append, lowerFrom_cons, loweredAt, own, (isCaseless_of_isBlank blank).kept,
      lowerFrom_congr fresh]
    rfl
  | cons d first ih =>
    rw [List.cons_append, lowerFrom_cons, lowerFrom_cons, ih, loweredAt, loweredAt,
      meetsCased_append_blank blank, List.append_assoc]

/-- The texts on the two sides of a blank are lowered each for itself. -/
theorem lower_append_blank {c : CodePoint} (blank : isBlank c = true) (first second : Text) :
    lower (first ++ c :: second) = lower first ++ c :: lower second :=
  lowerFrom_append_blank blank [] first second

/-- Lower-casing goes run by run. -/
theorem divide_lower (text : Text) :
    divide visibleBond text.lower = (divide visibleBond text).map lower := by
  induction text using induction_on_blanks with
  | visible text visible =>
    have lowered : ∀ d ∈ text.lower, isBlank d = false := visible_of_mem_lowerFrom visible
    have empty : text.lower = [] ↔ text = [] := lowerFrom_eq_nil_iff
    rw [divide_visibleBond_of_visible visible, divide_visibleBond_of_visible lowered]
    simp only [empty]
    split_ifs <;> rfl
  | parted first c second blank ihFirst ihSecond =>
    rw [lower_append_blank blank, divide_append_cons_blank blank, divide_append_cons_blank blank,
      List.map_append, ihFirst, ihSecond]

/-- Folding goes run by run. -/
theorem divide_fold (text culture : Text) :
    divide visibleBond (text.fold culture) = (divide visibleBond text).map (·.fold culture) := by
  unfold fold
  split_ifs
  · refine divide_map isBlank_toLower (fun c d => ?_) text
    simp only [visibleBond, isBlank_toLower]
  · exact divide_lower text

/-- A folded text is blank exactly when the text is. -/
theorem blank_fold_iff {text culture : Text} :
    (∀ c ∈ text.fold culture, isBlank c = true) ↔ ∀ c ∈ text, isBlank c = true := by
  rw [← @divide_eq_nil_iff visibleBond, divide_fold, List.map_eq_nil_iff, divide_eq_nil_iff]

end Text
end IntentModel
