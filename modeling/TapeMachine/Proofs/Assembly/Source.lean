import Mathlib.Data.List.TakeWhile
import TapeMachine.Assembly.Source
import TapeMachine.Proofs.Assembly.Grammar
import TapeMachine.Proofs.Collect

/-!
# What assembling makes of its lines

A line that has the form of one gives the instruction its parts resolve to, at the entry that the
instructions before it have reached. What comes out of a source is a program of generic
instructions, with zero for each operand that its opcode does not read.
-/

set_option autoImplicit false

namespace TapeMachine

/-! ### White space -/

namespace Text

theorem isBlank_eq_false_of_isAlpha {c : Char} (hc : c.isAlpha = true) : isBlank c = false := by
  change (decide ('A'.val ≤ c.val ∧ c.val ≤ 'Z'.val) ||
    (decide ('a'.val ≤ c.val) && decide (c.val ≤ 'z'.val))) = true at hc
  simp only [Bool.or_eq_true, Bool.and_eq_true, decide_eq_true_eq, UInt32.le_iff_toNat_le] at hc
  change (65 ≤ c.toNat ∧ c.toNat ≤ 90) ∨ (97 ≤ c.toNat ∧ c.toNat ≤ 122) at hc
  simp only [isBlank, Bool.or_eq_false_iff, Bool.and_eq_false_iff, decide_eq_false_iff_not]
  omega

end Text

/-! ### Operands that are not read -/

namespace Instruction

/-- The operands that the opcode does not read. -/
def unread (instruction : Instruction) : List Int32 :=
  [instruction.first, instruction.second, instruction.third].drop instruction.opcode.arity

/-- The instruction with zero for each operand that its opcode does not read. -/
def trimmed (instruction : Instruction) : Instruction :=
  { instruction with
    first := if 0 < instruction.opcode.arity then instruction.first else 0
    second := if 1 < instruction.opcode.arity then instruction.second else 0
    third := if 2 < instruction.opcode.arity then instruction.third else 0 }

/-- Trimming changes nothing exactly if the operands that are not read are zero already. -/
theorem trimmed_eq_self_iff (instruction : Instruction) :
    instruction.trimmed = instruction ↔ ∀ operand ∈ instruction.unread, operand = 0 := by
  obtain ⟨opcode, first, second, third, next⟩ := instruction
  cases opcode <;> simp [trimmed, unread, Opcode.arity, @eq_comm _ (0 : Int32)]

theorem length_operands (instruction : Instruction) :
    instruction.operands.length = instruction.opcode.arity := by
  obtain ⟨opcode, first, second, third, next⟩ := instruction
  cases opcode <;> rfl

/-- The operands that are read, with zero for those that are missing, are those of the trimmed
instruction. -/
theorem getD_operands (instruction : Instruction) :
    instruction.operands.getD 0 0 = instruction.trimmed.first ∧
      instruction.operands.getD 1 0 = instruction.trimmed.second ∧
      instruction.operands.getD 2 0 = instruction.trimmed.third := by
  obtain ⟨opcode, first, second, third, next⟩ := instruction
  cases opcode <;> simp [trimmed, operands, Opcode.arity]

end Instruction

namespace Assembly

/-! ### One line -/

theorem LineForm.not_mem {line : Line} {text : List Char} (htext : LineForm line text) {c : Char}
    (hc : isLineChar c = false) : c ∉ text := by
  intro hmem
  rw [htext.forall_isLineChar c hmem] at hc
  cases hc

/-- A line of the right form has no comment to cut off. -/
theorem LineForm.uncomment_eq {line : Line} {text : List Char} (htext : LineForm line text) :
    uncomment text = text := by
  rw [uncomment, List.takeWhile_eq_self_iff]
  intro c hc
  have hhash : c ≠ '#' := by
    rintro rfl
    exact htext.not_mem (by decide) hc
  simpa using hhash

theorem LineForm.trim_ne_nil {line : Line} {text : List Char} (htext : LineForm line text) :
    Text.trim text ≠ [] := by
  intro hnil
  obtain ⟨c, hmem, hc⟩ := htext.exists_isAlpha
  have hblank := (Text.trim_eq_nil_iff text).mp hnil c hmem
  rw [Text.isBlank_eq_false_of_isAlpha hc] at hblank
  cases hblank

/-- A line of the right form gives what its parts resolve to, and the lines after it go on at the
next entry. -/
theorem assembleLines_of_lineForm {line : Line} {text : List Char} (htext : LineForm line text)
    (number index : Nat) (rest : List (List Char)) :
    assembleLines number index (text :: rest) =
      match line.resolve index with
      | .error problem => .error { line := number, problem := problem }
      | .ok instruction =>
        (assembleLines (number + 1) (index + 1) rest).map (instruction :: ·) := by
  have hread : readInstruction index (uncomment text) = line.resolve index := by
    simp only [htext.uncomment_eq, readInstruction, htext.parse?_eq]
  have htrim : Text.trim (uncomment text) ≠ [] := by
    rw [htext.uncomment_eq]
    exact htext.trim_ne_nil
  cases hresolve : line.resolve index with
  | error problem => simp only [assembleLines, if_neg htrim, hread, hresolve]
  | ok instruction => simp only [assembleLines, if_neg htrim, hread, hresolve]

/-! ### What a line resolves to -/

/-- Where an instruction at an entry goes on: at the target of its line, or by default. -/
def resolveNext (target : Option Target) (opcode : Opcode) (index : Nat) :
    Except Problem Offset :=
  match target with
  | some target => target.resolve
  | none => .ok (Instruction.defaultNext opcode index)

theorem Line.resolve_eq {line : Line} {opcode : Opcode}
    (hopcode : operation? line.mnemonic = some opcode)
    (harity : line.operands.length = opcode.arity) (index : Nat) :
    line.resolve index = (do
      let operands ← line.operands.mapM Operand.resolve
      let next ← resolveNext line.target opcode index
      return { opcode := opcode
               first := operands.getD 0 0
               second := operands.getD 1 0
               third := operands.getD 2 0
               next := next }) := by
  simp only [Line.resolve, hopcode, harity, ne_eq, not_true_eq_false, if_false, resolveNext]
  cases line.target <;> rfl

theorem Line.resolve_eq_ok_iff {line : Line} {index : Nat} {instruction : Instruction} :
    line.resolve index = .ok instruction ↔
      ∃ operands, operation? line.mnemonic = some instruction.opcode ∧
        line.operands.length = instruction.opcode.arity ∧
        line.operands.mapM Operand.resolve = .ok operands ∧
        resolveNext line.target instruction.opcode index = .ok instruction.next ∧
        instruction.first = operands.getD 0 0 ∧ instruction.second = operands.getD 1 0 ∧
        instruction.third = operands.getD 2 0 := by
  constructor
  · intro hresolve
    cases hopcode : operation? line.mnemonic with
    | none => simp [Line.resolve, hopcode] at hresolve
    | some opcode =>
      by_cases harity : line.operands.length = opcode.arity
      · rw [Line.resolve_eq hopcode harity] at hresolve
        cases hoperands : line.operands.mapM Operand.resolve with
        | error problem => simp [hoperands, bind, Except.bind] at hresolve
        | ok operands =>
          cases hnext : resolveNext line.target opcode index with
          | error problem => simp [hoperands, hnext, bind, Except.bind] at hresolve
          | ok next =>
            simp only [hoperands, hnext, bind, Except.bind, pure, Except.pure,
              Except.ok.injEq] at hresolve
            subst hresolve
            exact ⟨operands, rfl, harity, rfl, hnext, rfl, rfl, rfl⟩
      · simp [Line.resolve, hopcode, harity] at hresolve
  · rintro ⟨operands, hopcode, harity, hoperands, hnext, hfirst, hsecond, hthird⟩
    rw [Line.resolve_eq hopcode harity, hoperands]
    simp only [bind, Except.bind, hnext, pure, Except.pure, ← hfirst, ← hsecond, ← hthird]

theorem operation?_ne_transition {mnemonic : List Char} {opcode : Opcode}
    (hopcode : operation? mnemonic = some opcode) : opcode ≠ .transition := by
  rintro rfl
  unfold operation? at hopcode
  split at hopcode
  · cases hopcode
  · next hother => exact hother hopcode

/-! ### Assembled programs -/

/-- What assembling promises of an instruction: a generic opcode, and zero for each operand that
the opcode does not read. -/
def Assembled (instruction : Instruction) : Prop :=
  instruction.opcode ≠ .transition ∧ ∀ operand ∈ instruction.unread, operand = 0

theorem Line.assembled_of_resolve {line : Line} {index : Nat} {instruction : Instruction}
    (hresolve : line.resolve index = .ok instruction) : Assembled instruction := by
  obtain ⟨operands, hopcode, harity, hoperands, -, hfirst, hsecond, hthird⟩ :=
    Line.resolve_eq_ok_iff.mp hresolve
  refine ⟨operation?_ne_transition hopcode, ?_⟩
  have hlength : operands.length = instruction.opcode.arity := by
    rw [length_of_mapM_eq_ok hoperands, harity]
  have hbeyond (position : Nat) (hposition : instruction.opcode.arity ≤ position) :
      operands[position]?.getD 0 = 0 := by
    rw [List.getElem?_eq_none (by omega), Option.getD_none]
  rw [Instruction.unread, hfirst, hsecond, hthird]
  generalize instruction.opcode.arity = arity at hbeyond
  rcases arity with _ | _ | _ | arity
  · simp [hbeyond]
  · simp [hbeyond]
  · simp [hbeyond]
  · simp

/-- Every instruction of an assembled program is as promised. -/
theorem assembled_of_assembleLines {lines : List (List Char)} {number index : Nat}
    {program : List Instruction} (hprogram : assembleLines number index lines = .ok program) :
    ∀ instruction ∈ program, Assembled instruction := by
  induction lines generalizing number index program with
  | nil =>
    cases hprogram
    simp
  | cons line rest ih =>
    rw [assembleLines] at hprogram
    split at hprogram
    · exact ih hprogram
    · split at hprogram
      · cases hprogram
      · next instruction hread =>
        cases hrest : assembleLines (number + 1) (index + 1) rest with
        | error rejection => simp [hrest, Except.map] at hprogram
        | ok more =>
          simp only [hrest, Except.map, Except.ok.injEq] at hprogram
          subst hprogram
          rw [List.forall_mem_cons]
          refine ⟨?_, ih hrest⟩
          unfold readInstruction at hread
          split at hread
          · cases hread
          · exact Line.assembled_of_resolve hread

end Assembly

end TapeMachine
