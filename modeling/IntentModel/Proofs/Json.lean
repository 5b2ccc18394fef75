import IntentModel.Model
import IntentModel.Proofs.Value.Display
import IntentModel.Proofs.Value.Tangle
import IntentModel.Value.Json
import Mathlib.Tactic.SplitIfs

/-! # Values without a written form

A writer is handed a copy of a value, and writes it as a whole unless some part of the copy, however deep, is
a reason against it (`Value.Holds`): a part of a kind that has no form, an integer with too many digits, a
text with a surrogate, or a collection that comes again within itself. It breaks off for one of these
reasons and for no other (`Json.holds_of_fault`, `Json.breaks_of_holds`).

Almost everything in a model has a written form: any of its texts can hold a surrogate, a position of a
mention can have too many digits, and a builtin entry may hold anything (`Model.hinders_toValue_iff`).
-/

namespace IntentModel

def Text.HasSurrogate (text : Text) : Prop :=
  ∃ index, .surrogate index ∈ text

namespace Text

variable {text rest : Text}

theorem hasSurrogate_append : HasSurrogate (text ++ rest) ↔ HasSurrogate text ∨ HasSurrogate rest := by
  simp only [HasSurrogate, List.mem_append, exists_or]

theorem hasSurrogate_cons {c : CodePoint} :
    HasSurrogate (c :: text) ↔ (∃ index, .surrogate index = c) ∨ HasSurrogate text := by
  simp only [HasSurrogate, List.mem_cons, exists_or]

theorem not_hasSurrogate_of_chars (content : List Char) : ¬HasSurrogate (content.map .char) := by
  rintro ⟨index, member⟩
  obtain ⟨c, -, same⟩ := List.mem_map.mp member
  cases same

theorem IsNumeral.not_hasSurrogate (numeral : text.IsNumeral) : ¬HasSurrogate text := by
  rintro ⟨index, member⟩
  obtain digit | mark := numeral _ member
  · simp only [isDigit, Bool.and_eq_true, decide_eq_true_eq] at digit
    have most : 0xD800 + index.val ≤ 0x39 := digit.2
    omega
  · simp [numeralMarks] at mark

/-- Only surrogates keep a text from consisting of characters. -/
theorem chars?_eq_none_iff : text.chars? = none ↔ HasSurrogate text := by
  induction text with
  | nil => simp [chars?, HasSurrogate]
  | cons c text ih =>
    rw [hasSurrogate_cons, ← ih, chars?, List.mapM_cons]
    cases c with
    | char c => cases own : chars? text <;> simp_all [chars?, CodePoint.char?]
    | surrogate index => simp [CodePoint.char?]

end Text

/-- A key cannot be written: it is of a kind without a form, has too many digits or holds a surrogate. -/
inductive Value.RefusedAsKey : Unwritable → Value → Prop
  | unformed {key : Value} {reason : Unwritable} : Json.key key = .error reason → RefusedAsKey reason key
  | surrogate {content : Text} : content.HasSurrogate → RefusedAsKey .surrogate (.text content)

/-- Some part of a value cannot be written for a reason. -/
inductive Value.Holds : Unwritable → Value → Prop
  | date (day : Date) : Holds .noForm (.date day)
  | moment (time : Moment) : Holds .noForm (.moment time)
  | bytes (content : List UInt8) : Holds .noForm (.bytes content)
  | set (items : List Value) : Holds .noForm (.set items)
  | int {number : Int} : hasWritableDigits number = false → Holds .tooManyDigits (.int number)
  | text {content : Text} : content.HasSurrogate → Holds .surrogate (.text content)
  | item {items : List Value} {value : Value} {reason : Unwritable} :
      value ∈ items → Holds reason value → Holds reason (.list items)
  | component {items : List Value} {value : Value} {reason : Unwritable} :
      value ∈ items → Holds reason value → Holds reason (.tuple items)
  | key {entries : List (Value × Value)} {entry : Value × Value} {reason : Unwritable} :
      entry ∈ entries → entry.1.RefusedAsKey reason → Holds reason (.map entries)
  | entry {entries : List (Value × Value)} {entry : Value × Value} {reason : Unwritable} :
      entry ∈ entries → Holds reason entry.2 → Holds reason (.map entries)
  | tangle (cells : Cells) (form : Form) (place : Nat) : Holds .circular (.tangle cells form place)
  | link (form : Form) (place : Nat) : Holds .circular (.link form place)

/-- A value cannot be written for a reason, which lies in some part of the copy that is written. -/
def Value.Hinders (reason : Unwritable) (value : Value) : Prop :=
  value.dumped.Holds reason

namespace Written

@[simp]
theorem fault_done (text : List Char) : (done text).fault = none :=
  rfl

@[simp]
theorem fault_broken (reason : Unwritable) : (broken reason).fault = some reason :=
  rfl

@[simp]
theorem fault_andThen (first next : Written) :
    (first.andThen next).fault = first.fault.or next.fault := by
  cases own : first.fault with
  | none => simp [andThen, own]
  | some reason => simp [andThen, own]

theorem fault_piece_eq_some_iff {lead : List Char} {text : Text} {reason : Unwritable} :
    (piece lead (.ok text)).fault = some reason ↔ reason = .surrogate ∧ Text.HasSurrogate text := by
  rw [piece, ← Text.chars?_eq_none_iff]
  cases text.chars? with
  | none => simp [eq_comm]
  | some chars => simp

theorem fault_piece_eq_none {lead : List Char} {text : Text} (plain : ¬Text.HasSurrogate text) :
    (piece lead (.ok text)).fault = none := by
  rw [Option.eq_none_iff_forall_ne_some]
  intro reason broken
  exact plain (fault_piece_eq_some_iff.mp broken).2

end Written

namespace Json

/-! ## Pieces -/

theorem escapeChar_surrogate (index : Fin 0x800) : escapeChar (.surrogate index) = [.surrogate index] := by
  have beyond : ¬(CodePoint.surrogate index).toNat < 0x20 := by
    simp only [CodePoint.toNat]
    omega
  simp [escapeChar, beyond]

/-- Escapes are made of characters, so a surrogate is left only where one was. -/
theorem hasSurrogate_escapeChar_iff {c : CodePoint} :
    Text.HasSurrogate (escapeChar c) ↔ ∃ index, .surrogate index = c := by
  cases c with
  | surrogate index => simp [escapeChar_surrogate, Text.HasSurrogate]
  | char c =>
    have plain : ¬Text.HasSurrogate (escapeChar (.char c)) := by
      rintro ⟨index, member⟩
      unfold escapeChar at member
      split_ifs at member
      all_goals simp [Text.ofNatHex] at member
    simp [plain]

theorem hasSurrogate_string_iff {text : Text} : Text.HasSurrogate (string text) ↔ text.HasSurrogate := by
  have body : Text.HasSurrogate (text.flatMap escapeChar) ↔ text.HasSurrogate := by
    induction text with
    | nil => rfl
    | cons c text ih =>
      rw [List.flatMap_cons, Text.hasSurrogate_append, hasSurrogate_escapeChar_iff, ih,
        Text.hasSurrogate_cons]
  have quote : ¬Text.HasSurrogate [.char '\x22'] := Text.not_hasSurrogate_of_chars ['\x22']
  rw [string, ← List.singleton_append, Text.hasSurrogate_append, Text.hasSurrogate_append, body]
  simp only [quote, false_or, or_false]

theorem not_hasSurrogate_integer {number : Int} {text : Text} (written : integer number = .ok text) :
    ¬text.HasSurrogate := by
  rw [integer] at written
  split_ifs at written
  cases written
  exact (Text.isNumeral_ofInt number).not_hasSurrogate

theorem not_hasSurrogate_float (number : Binary64) :
    ¬Text.HasSurrogate (number.write Binary64.jsonLayout) :=
  (Binary64.isNumeral_write (by decide) (by decide) number).not_hasSurrogate

theorem integer_eq_error_iff {number : Int} {reason : Unwritable} :
    integer number = .error reason ↔ reason = .tooManyDigits ∧ hasWritableDigits number = false := by
  rw [integer]
  split_ifs with few
  · simp [few]
  · simp [few, eq_comm]

/-- Only a text gives a key that is refused for a surrogate. -/
theorem refusedAsKey_of_string {key : Value} {text : Text} (written : Json.key key = .ok text)
    (surrogate : text.HasSurrogate) : key.RefusedAsKey .surrogate := by
  unfold Json.key at written
  split at written
  · cases written
    exact .surrogate surrogate
  · cases written
    exact absurd surrogate (Text.not_hasSurrogate_of_chars "null".toList)
  · next truth =>
    cases written
    refine absurd surrogate ?_
    cases truth with
    | false => exact Text.not_hasSurrogate_of_chars "false".toList
    | true => exact Text.not_hasSurrogate_of_chars "true".toList
  · exact absurd surrogate (not_hasSurrogate_integer written)
  · cases written
    exact absurd surrogate (not_hasSurrogate_float _)
  · cases written

/-! ## The reason for a break -/

section

variable {reason : Unwritable}

theorem holds_of_fault_integer {lead : List Char} {number : Int}
    (broken : (Written.piece lead (integer number)).fault = some reason) :
    Value.Holds reason (.int number) := by
  cases own : integer number with
  | error fault =>
    obtain ⟨rfl, many⟩ := integer_eq_error_iff.mp own
    rw [own] at broken
    cases broken
    exact .int many
  | ok text =>
    rw [own, Written.fault_piece_eq_none (not_hasSurrogate_integer own)] at broken
    cases broken

mutual

/-- What breaks a value off is part of it. -/
theorem holds_of_fault (depth : Nat) (lead : List Char) : ∀ value : Value,
    (write depth lead value).fault = some reason → value.Holds reason
  | .null => by
    intro broken
    rw [write, Written.fault_piece_eq_none (Text.not_hasSurrogate_of_chars "null".toList)] at broken
    cases broken
  | .bool true => by
    intro broken
    rw [write, if_pos rfl, Written.fault_piece_eq_none (Text.not_hasSurrogate_of_chars "true".toList)] at broken
    cases broken
  | .bool false => by
    intro broken
    rw [write, if_neg Bool.false_ne_true,
      Written.fault_piece_eq_none (Text.not_hasSurrogate_of_chars "false".toList)] at broken
    cases broken
  | .float number => by
    intro broken
    rw [write, Written.fault_piece_eq_none (not_hasSurrogate_float number)] at broken
    cases broken
  | .int number => by
    intro broken
    rw [write] at broken
    exact holds_of_fault_integer broken
  | .text content => by
    intro broken
    rw [write, Written.fault_piece_eq_some_iff, hasSurrogate_string_iff] at broken
    obtain ⟨rfl, surrogate⟩ := broken
    exact .text surrogate
  | .date day => by
    intro broken
    cases broken
    exact .date day
  | .moment time => by
    intro broken
    cases broken
    exact .moment time
  | .bytes content => by
    intro broken
    cases broken
    exact .bytes content
  | .set items => by
    intro broken
    cases broken
    exact .set items
  | .tangle cells form place => by
    intro broken
    cases broken
    exact .tangle cells form place
  | .link form place => by
    intro broken
    cases broken
    exact .link form place
  | .list items => by
    intro broken
    rw [write, Written.fault_andThen, Written.fault_done, Option.none_or] at broken
    obtain ⟨value, member, holds⟩ := exists_holds_of_fault_sequence _ items broken
    exact .item member holds
  | .tuple items => by
    intro broken
    rw [write, Written.fault_andThen, Written.fault_done, Option.none_or] at broken
    obtain ⟨value, member, holds⟩ := exists_holds_of_fault_sequence _ items broken
    exact .component member holds
  | .map [] => nofun
  | .map (entry :: entries) => by
    intro broken
    rw [write, Written.fault_andThen, Written.fault_andThen, Written.fault_done, Written.fault_done,
      Option.none_or, Option.or_none] at broken
    obtain ⟨own, member, refused | holds⟩ := exists_holds_of_fault_entries _ _ (entry :: entries) broken
    · exact .key member refused
    · exact .entry member holds

theorem exists_holds_of_fault_sequence (depth : Nat) : ∀ items : List Value,
    (writeSequence depth items).fault = some reason → ∃ value ∈ items, value.Holds reason
  | [] => nofun
  | item :: items => by
    intro broken
    rw [writeSequence, Written.fault_andThen, Written.fault_andThen, Written.fault_done, Option.or_none,
      Option.or_eq_some_iff] at broken
    obtain own | ⟨-, rest⟩ := broken
    · exact ⟨item, List.mem_cons_self, holds_of_fault _ _ item own⟩
    · obtain ⟨value, member, holds⟩ := exists_holds_of_fault_items _ items rest
      exact ⟨value, List.mem_cons_of_mem _ member, holds⟩

theorem exists_holds_of_fault_items (depth : Nat) : ∀ items : List Value,
    (writeItems depth items).fault = some reason → ∃ value ∈ items, value.Holds reason
  | [] => nofun
  | item :: items => by
    intro broken
    rw [writeItems, Written.fault_andThen, Option.or_eq_some_iff] at broken
    obtain own | ⟨-, rest⟩ := broken
    · exact ⟨item, List.mem_cons_self, holds_of_fault _ _ item own⟩
    · obtain ⟨value, member, holds⟩ := exists_holds_of_fault_items _ items rest
      exact ⟨value, List.mem_cons_of_mem _ member, holds⟩

theorem exists_holds_of_fault_entries (depth : Nat) (separator : List Char) :
    ∀ entries : List (Value × Value),
    (writeEntries depth separator entries).fault = some reason →
      ∃ entry ∈ entries, entry.1.RefusedAsKey reason ∨ entry.2.Holds reason
  | [] => nofun
  | (name, value) :: entries => by
    intro broken
    rw [writeEntries] at broken
    cases own : Json.key name with
    | error fault =>
      rw [own] at broken
      cases broken
      exact ⟨(name, value), List.mem_cons_self, .inl (.unformed own)⟩
    | ok text =>
      simp only [own, Written.fault_andThen, Written.fault_done, Option.none_or, Option.or_none,
        Option.or_eq_some_iff, Written.fault_piece_eq_some_iff, hasSurrogate_string_iff] at broken
      obtain (⟨rfl, surrogate⟩ | ⟨-, below⟩) | ⟨-, rest⟩ := broken
      · exact ⟨(name, value), List.mem_cons_self, .inl (refusedAsKey_of_string own surrogate)⟩
      · exact ⟨(name, value), List.mem_cons_self, .inr (holds_of_fault _ _ value below)⟩
      · obtain ⟨entry, member, holds⟩ := exists_holds_of_fault_entries _ _ entries rest
        exact ⟨entry, List.mem_cons_of_mem _ member, holds⟩

end

end

end Json

section

variable {α β : Type}

theorem exists_mem_append_iff {items others : List α} {Good : α → Prop} :
    (∃ item ∈ items ++ others, Good item) ↔ (∃ item ∈ items, Good item) ∨ ∃ item ∈ others, Good item := by
  simp only [List.mem_append, or_and_right, exists_or]

theorem exists_mem_map_iff {items : List α} {image : α → β} {Good : β → Prop} :
    (∃ made ∈ items.map image, Good made) ↔ ∃ item ∈ items, Good (image item) := by
  simp

theorem exists_mem_flatMap_iff {items : List α} {parts : α → List β} {Good : β → Prop} :
    (∃ part ∈ items.flatMap parts, Good part) ↔ ∃ item ∈ items, ∃ part ∈ parts item, Good part := by
  constructor
  · rintro ⟨part, member, good⟩
    obtain ⟨item, among, own⟩ := List.mem_flatMap.mp member
    exact ⟨item, among, part, own, good⟩
  · rintro ⟨item, among, part, own, good⟩
    exact ⟨part, List.mem_flatMap.mpr ⟨item, among, own⟩, good⟩

end

section

variable {reason : Unwritable}

@[simp]
theorem not_hinders_bool (truth : Bool) : ¬Value.Hinders reason (.bool truth) :=
  nofun

@[simp]
theorem hinders_list_iff {items : List Value} :
    Value.Hinders reason (.list items) ↔ ∃ item ∈ items, item.Hinders reason := by
  rw [Value.Hinders, Value.dumped, Value.fill, Value.fillItems_eq_map]
  constructor
  · intro holds
    cases holds with
    | item member holds =>
      obtain ⟨item, among, rfl⟩ := List.mem_map.mp member
      exact ⟨item, among, holds⟩
  · rintro ⟨item, member, holds⟩
    exact .item (List.mem_map_of_mem member) holds

/-- A record whose names are made of characters is sound where the values of its fields are. -/
theorem hinders_record_iff {fields : Fields} (names : ∀ field ∈ fields, ¬field.1.HasSurrogate) :
    (Value.record fields).Hinders reason ↔ ∃ field ∈ fields, field.2.Hinders reason := by
  rw [Value.Hinders, Value.dumped, Value.record, Value.fill, Value.fillEntries_eq_map, List.map_map]
  constructor
  · intro holds
    cases holds with
    | key member refused =>
      obtain ⟨field, among, rfl⟩ := List.mem_map.mp member
      cases refused with
      | unformed unformed => cases unformed
      | surrogate surrogate => exact absurd surrogate (names field among)
    | entry member holds =>
      obtain ⟨field, among, rfl⟩ := List.mem_map.mp member
      exact ⟨field, among, holds⟩
  · rintro ⟨field, member, holds⟩
    exact .entry (List.mem_map_of_mem member) holds

end

/-- The parts of an entity that differ from one to another. -/
def Entity.parts (entity : Entity) : List Value :=
  .text entity.name :: (entity.children.getD []).map .text

def Feature.parts (feature : Feature) : List Value :=
  [.text feature.name, .text feature.words]

def Mention.parts (mention : Mention) : List Value :=
  [.text mention.label, .int mention.first, .int mention.last]

def Utterance.parts (utterance : Utterance) : List Value :=
  .text utterance.text :: .text utterance.intent :: utterance.mentions.flatMap Mention.parts

def Model.parts (model : Model) : List Value :=
  [.text model.schemaVersion, .text model.name, .text model.description, .text model.culture] ++
    model.intents.map .text ++ model.entities.flatMap Entity.parts ++ model.builtin.map Value.record ++
    model.features.flatMap Feature.parts ++ model.utterances.flatMap Utterance.parts

section

variable {reason : Unwritable}

theorem Entity.hinders_toValue_iff {entity : Entity} :
    entity.toValue.Hinders reason ↔ ∃ part ∈ entity.parts, part.Hinders reason := by
  cases children : entity.children with
  | none =>
    rw [toValue, hinders_record_iff (by simp [children, Text.HasSurrogate])]
    simp [parts, children]
  | some names =>
    rw [toValue, hinders_record_iff (by simp [children, Text.HasSurrogate])]
    simp [parts, children]

theorem Feature.hinders_toValue_iff {feature : Feature} :
    feature.toValue.Hinders reason ↔ ∃ part ∈ feature.parts, part.Hinders reason := by
  rw [toValue, hinders_record_iff (by simp [Text.HasSurrogate])]
  simp [parts]

theorem Mention.hinders_toValue_iff {mention : Mention} :
    mention.toValue.Hinders reason ↔ ∃ part ∈ mention.parts, part.Hinders reason := by
  rw [toValue, hinders_record_iff (by simp [Text.HasSurrogate])]
  simp [parts]

theorem Utterance.hinders_toValue_iff {utterance : Utterance} :
    utterance.toValue.Hinders reason ↔ ∃ part ∈ utterance.parts, part.Hinders reason := by
  rw [toValue, hinders_record_iff (by simp [Text.HasSurrogate])]
  simp only [parts, List.exists_mem_cons_iff, exists_mem_flatMap_iff, hinders_list_iff, exists_mem_map_iff,
    Mention.hinders_toValue_iff, List.not_mem_nil, false_and, exists_false, or_false]

theorem hinders_named_iff {name : Text} :
    (Value.record [("name", .text name)]).Hinders reason ↔ Value.Hinders reason (.text name) := by
  rw [hinders_record_iff (by simp [Text.HasSurrogate])]
  simp

/-- What stands against the written form of a model is one of its texts, its positions or its builtin
entries. -/
theorem Model.hinders_toValue_iff {model : Model} :
    model.toValue.Hinders reason ↔ ∃ part ∈ model.parts, part.Hinders reason := by
  rw [toValue, hinders_record_iff (by simp [Text.HasSurrogate])]
  simp only [parts, List.exists_mem_cons_iff, exists_mem_append_iff, exists_mem_flatMap_iff, hinders_list_iff,
    exists_mem_map_iff, hinders_named_iff, Entity.hinders_toValue_iff, Feature.hinders_toValue_iff,
    Utterance.hinders_toValue_iff, List.not_mem_nil, false_and, exists_false, or_false, false_or, or_assoc]

end

end IntentModel
