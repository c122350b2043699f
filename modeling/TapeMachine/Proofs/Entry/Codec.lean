import TapeMachine.Entry.Words

/-!
# Entries and their words

Words that decode to an instruction are the words it is encoded as. Words decode to a state exactly
if their opcode is that of states and their fields and next offsets are those of its rules
(`decode_eq_ok_state_iff`); other bits of the fields word do not count. Every entry that can be
stored decodes to itself (`decode_encode`).
-/

set_option autoImplicit false

namespace TapeMachine

namespace StateRules

/-- A rule is decoded from the fields it is stored in. -/
theorem decodeRule_eq_ok_iff {offset : Offset} {fields : UInt32} {read : Symbol} {next : Offset}
    {rule : Rule Offset} :
    decodeRule offset fields read next = .ok rule ↔
      fieldAt fields (2 * read.code.toNat) = rule.write.code ∧
        fieldAt fields (8 + 2 * read.code.toNat) = rule.move.code ∧ next = rule.next := by
  rw [← Symbol.ofCode?_eq_some_iff, ← HeadMove.ofCode?_eq_some_iff]
  unfold decodeRule
  dsimp only
  cases Symbol.ofCode? (fieldAt fields (2 * read.code.toNat)) with
  | none => simp
  | some write =>
    cases HeadMove.ofCode? (fieldAt fields (8 + 2 * read.code.toNat)) with
    | none => simp
    | some move =>
      obtain ⟨ruleWrite, ruleMove, ruleNext⟩ := rule
      simp

/-- Whether a fault says that a field of the entry at an offset stands for nothing. -/
def IsFieldFault (offset : Offset) (fault : Fault) : Prop :=
  (∃ shift < 8, ∃ value, fault = .notASymbol (offset.toNat + 32 + shift) value) ∨
    ∃ code, fault = .notAMove code

theorem isFieldFault_of_decodeRule {offset : Offset} {fields : UInt32} {read : Symbol}
    {next : Offset} {fault : Fault} (hfault : decodeRule offset fields read next = .error fault) :
    IsFieldFault offset fault := by
  have hread := read.code_toNat_lt
  unfold decodeRule at hfault
  dsimp only at hfault
  split at hfault
  · cases hfault
    refine Or.inl ⟨2 * read.code.toNat, by omega, _, rfl⟩
  · split at hfault
    · cases hfault
      exact Or.inr ⟨_, rfl⟩
    · cases hfault

/-- The next offset of a state for a symbol, among the words of its entry. -/
def nextWord (words : EntryWords) : Symbol → Offset
  | .zero => words.second
  | .one => words.third
  | .blank => words.fourth

/-- Whether the words of an entry hold the rules of a state. -/
def StoredIn (rules : StateRules) (words : EntryWords) : Prop :=
  ∀ read, fieldAt words.first (2 * read.code.toNat) = (rules.get read).write.code ∧
    fieldAt words.first (8 + 2 * read.code.toNat) = (rules.get read).move.code ∧
    nextWord words read = (rules.get read).next

theorem toNat_fields (rules : StateRules) :
    (fields rules).toNat = rules.zero.write.code.toNat + 4 * rules.one.write.code.toNat
      + 16 * rules.blank.write.code.toNat + 256 * rules.zero.move.code.toNat
      + 1024 * rules.one.move.code.toNat + 4096 * rules.blank.move.code.toNat := by
  have hzero := rules.zero.write.code_toNat_lt
  have hone := rules.one.write.code_toNat_lt
  have hblank := rules.blank.write.code_toNat_lt
  have hzeroMove := rules.zero.move.code_toNat_lt
  have honeMove := rules.one.move.code_toNat_lt
  have hblankMove := rules.blank.move.code_toNat_lt
  rw [fields, ruleFields, ruleFields, ruleFields, UInt32.toNat_ofNat', Nat.shiftLeft_eq,
    Nat.shiftLeft_eq, Nat.shiftLeft_eq, show 2 ^ (2 * Symbol.zero.code.toNat) = 1 from rfl,
    show 2 ^ (2 * Symbol.one.code.toNat) = 4 from rfl,
    show 2 ^ (2 * Symbol.blank.code.toNat) = 16 from rfl]
  omega

private theorem fieldAt_eq {word : UInt32} {bit : Nat} {code : UInt8}
    (hcode : word.toNat >>> bit % 4 = code.toNat) : fieldAt word bit = code := by
  rw [fieldAt, hcode, UInt8.ofNat_toNat]

/-- Rules are stored in the words that encode them. -/
theorem storedIn_encode (rules : StateRules) : StoredIn rules (Entry.encode (.state rules)) := by
  have hfields := toNat_fields rules
  have hzero := rules.zero.write.code_toNat_lt
  have hone := rules.one.write.code_toNat_lt
  have hblank := rules.blank.write.code_toNat_lt
  have hzeroMove := rules.zero.move.code_toNat_lt
  have honeMove := rules.one.move.code_toNat_lt
  have hblankMove := rules.blank.move.code_toNat_lt
  have hwriteZero : fieldAt (fields rules) 0 = rules.zero.write.code := fieldAt_eq (by omega)
  have hwriteOne : fieldAt (fields rules) 2 = rules.one.write.code := fieldAt_eq (by omega)
  have hwriteBlank : fieldAt (fields rules) 4 = rules.blank.write.code := fieldAt_eq (by omega)
  have hmoveZero : fieldAt (fields rules) 8 = rules.zero.move.code := fieldAt_eq (by omega)
  have hmoveOne : fieldAt (fields rules) 10 = rules.one.move.code := fieldAt_eq (by omega)
  have hmoveBlank : fieldAt (fields rules) 12 = rules.blank.move.code := fieldAt_eq (by omega)
  intro read
  cases read with
  | zero => exact ⟨hwriteZero, hmoveZero, rfl⟩
  | one => exact ⟨hwriteOne, hmoveOne, rfl⟩
  | blank => exact ⟨hwriteBlank, hmoveBlank, rfl⟩

end StateRules

namespace Entry

/-- Words that decode to an instruction are the words it is encoded as. -/
theorem encode_of_decode_instruction {words : EntryWords} {offset : Offset}
    {instruction : Instruction} (hdecode : decode words offset = .ok (.instruction instruction)) :
    words = encode (.instruction instruction) ∧ instruction.opcode ≠ .transition := by
  unfold decode at hdecode
  split at hdecode
  · cases hdecode
  · simp only [bind, Except.bind] at hdecode
    split at hdecode
    · cases hdecode
    split at hdecode
    · cases hdecode
    split at hdecode
    · cases hdecode
    · cases hdecode
  · next opcode hnot hcode =>
    cases hdecode
    rw [Opcode.ofCode?_eq_some_iff] at hcode
    constructor
    · simp only [encode, ← hcode, UInt32.toUInt32_toInt32]
    · exact hnot

/-- Words that do not decode have no opcode, or are those of a state with a field that stands for
nothing. -/
theorem decode_eq_error_cases {words : EntryWords} {offset : Offset} {fault : Fault}
    (hdecode : decode words offset = .error fault) :
    Opcode.ofCode? words.opcode = none ∧ fault = .unknownOpcode offset words.opcode ∨
      words.opcode = Opcode.transition.code ∧ StateRules.IsFieldFault offset fault := by
  unfold decode at hdecode
  split at hdecode
  · next hcode =>
    cases hdecode
    exact Or.inl ⟨hcode, rfl⟩
  · next hcode =>
    refine Or.inr ⟨Opcode.ofCode?_eq_some_iff.mp hcode, ?_⟩
    simp only [bind, Except.bind] at hdecode
    split at hdecode
    · next hzero =>
      cases hdecode
      exact StateRules.isFieldFault_of_decodeRule hzero
    split at hdecode
    · next hone =>
      cases hdecode
      exact StateRules.isFieldFault_of_decodeRule hone
    split at hdecode
    · next hblank =>
      cases hdecode
      exact StateRules.isFieldFault_of_decodeRule hblank
    · cases hdecode
  · cases hdecode

/-- Words decode to a state exactly if its rules are stored in them. -/
theorem decode_eq_ok_state_iff {words : EntryWords} {offset : Offset} {rules : StateRules} :
    decode words offset = .ok (.state rules) ↔
      words.opcode = Opcode.transition.code ∧ rules.StoredIn words := by
  rw [← Opcode.ofCode?_eq_some_iff]
  constructor
  · intro hdecode
    unfold decode at hdecode
    split at hdecode
    · cases hdecode
    · next hopcode =>
      simp only [bind, Except.bind] at hdecode
      split at hdecode
      · cases hdecode
      next hzero =>
      split at hdecode
      · cases hdecode
      next hone =>
      split at hdecode
      · cases hdecode
      next hblank =>
      cases hdecode
      refine ⟨hopcode, fun read ↦ ?_⟩
      cases read with
      | zero => exact StateRules.decodeRule_eq_ok_iff.mp hzero
      | one => exact StateRules.decodeRule_eq_ok_iff.mp hone
      | blank => exact StateRules.decodeRule_eq_ok_iff.mp hblank
    · cases hdecode
  · rintro ⟨hopcode, hstored⟩
    have hrule : ∀ read, StateRules.decodeRule offset words.first read
        (StateRules.nextWord words read) = .ok (rules.get read) :=
      fun read ↦ StateRules.decodeRule_eq_ok_iff.mpr (hstored read)
    have hzero := hrule .zero
    have hone := hrule .one
    have hblank := hrule .blank
    simp only [StateRules.nextWord] at hzero hone hblank
    simp only [decode, hopcode, hzero, hone, hblank, bind, Except.bind]
    rfl

/-- Every entry comes back from its words; a state is no instruction. -/
theorem decode_encode {entry : Entry} (offset : Offset)
    (hentry : entry.opcode = .transition → entry.isState = true) :
    decode entry.encode offset = .ok entry := by
  cases entry with
  | state rules => exact decode_eq_ok_state_iff.mpr ⟨rfl, rules.storedIn_encode⟩
  | instruction instruction =>
    obtain ⟨opcode, first, second, third, next⟩ := instruction
    unfold decode
    simp only [encode, Opcode.ofCode?_code]
    cases opcode with
    | transition => cases hentry rfl
    | _ => rfl

end Entry

end TapeMachine
