import TapeMachine.Assembly.Listing
import TapeMachine.Proofs.Assembly.Source

/-!
# Assembling a listing

The line that a listing has for an instruction has the form of a line, and its parts resolve to the
instruction again, but for operands that the opcode does not read. A target is left out only where
the default stands for it at the same entry, so the lines of a whole program give the program back.
The entry of a state has no line that assembling takes: its mnemonic is no operation.
-/

set_option autoImplicit false

namespace TapeMachine.Assembly

/-! ### Gaps, numerals and names -/

theorem isGap_nil : IsGap [] := by
  simp [IsGap]

theorem isGap_space : IsGap [' '] := by
  simp [IsGap, isGap]

theorem isRun_digits (number : Nat) : IsRun Char.isDigit (Text.digits number) :=
  ⟨Nat.toDigits_ne_nil, fun _ hc ↦ Text.isDigit_of_mem_digits hc⟩

theorem operandForm_signed (number : Int) :
    OperandForm (.number (Text.signed number)) (Text.signed number) := by
  unfold Text.signed
  split
  · exact .negative (isRun_digits _)
  · exact .number (isRun_digits _)

theorem isRun_mnemonic (opcode : Opcode) : IsRun Char.isAlpha opcode.name.toList := by
  cases opcode <;> decide

theorem mem_conventional {register : Register} {name : String}
    (hname : register.name? = some name) : (register, name) ∈ Register.conventional := by
  obtain ⟨⟨found, text⟩, hfind, htext⟩ := Option.map_eq_some_iff.mp hname
  have hfound : found = register := by simpa using List.find?_some hfind
  have hmem := List.mem_of_find?_eq_some hfind
  rw [hfound] at hmem
  exact htext ▸ hmem

/-- Each name in use is one that a line can hold, and stands for its register alone. -/
theorem conventional_names : ∀ entry ∈ Register.conventional,
    IsRun isNameChar entry.2.toList ∧ Register.ofName? entry.2 = some entry.1 := by
  decide

/-! ### The parts of a printed line -/

/-- A register is written by a name that stands for it, if it has one. -/
theorem exists_operandForm_register {operand : Int32} {name : String}
    (hname : (Register.ofIndex? operand.toInt).bind Register.name? = some name) :
    ∃ part, OperandForm part ('$' :: name.toList) ∧ part.resolve = .ok operand := by
  obtain ⟨register, hregister, hname⟩ := Option.bind_eq_some_iff.mp hname
  obtain ⟨hrun, hofName⟩ := conventional_names _ (mem_conventional hname)
  have hindex : Int32.ofNat register.val = operand := by
    rw [← Int32.ofInt_eq_ofNat, ← Register.ofIndex?_eq_some_iff.mp hregister, Int32.ofInt_toInt]
  refine ⟨.register name.toList, .register hrun, ?_⟩
  simp only [Operand.resolve, String.ofList_toList, hofName, hindex]

/-- A number is written so that it is read back. -/
theorem exists_operandForm_number (operand : Int32) :
    ∃ part, OperandForm part (Text.signed operand.toInt) ∧ part.resolve = .ok operand := by
  refine ⟨.number (Text.signed operand.toInt), operandForm_signed _, ?_⟩
  have hrange : -0x80000000 ≤ operand.toInt ∧ operand.toInt < 0x80000000 :=
    ⟨operand.le_toInt, operand.toInt_lt⟩
  simp only [Operand.resolve, Text.signedValue_signed, if_pos hrange, Int32.ofInt_toInt]

/-- The text of an operand has the form of one that stands for it. -/
theorem exists_operandForm (opcode : Opcode) (position : Nat) (operand : Int32) :
    ∃ part, OperandForm part (operandText opcode position operand) ∧
      part.resolve = .ok operand := by
  by_cases hregister : opcode.isRegisterOperand position = true
  · simp only [operandText, if_pos hregister]
    split
    · next name hname => exact exists_operandForm_register hname
    · exact exists_operandForm_number operand
  · simp only [operandText, if_neg hregister]
    exact exists_operandForm_number operand

/-- The texts of operands with commas between them have the form of operands that stand for
these; a gap may stand before the first. -/
theorem exists_operandsForm (operands : List Int32) (hne : operands ≠ [])
    (write : Nat → Int32 → List Char)
    (hwrite : ∀ position operand, ∃ part, OperandForm part (write position operand) ∧
      part.resolve = .ok operand) {gap : List Char} (hgap : IsGap gap) :
    ∃ parts, OperandsForm parts (gap ++ [',', ' '].intercalate (operands.mapIdx write)) ∧
      parts.mapM Operand.resolve = .ok operands := by
  induction operands generalizing write gap with
  | nil => exact absurd rfl hne
  | cons operand operands ih =>
    obtain ⟨part, hform, hpart⟩ := hwrite 0 operand
    rcases operands with _ | ⟨second, rest⟩
    · refine ⟨[part], ?_, ?_⟩
      · simpa using OperandsForm.single hgap hform isGap_nil
      · rw [mapM_eq_ok_iff]
        simp [hpart]
    · -- The space after a comma is the gap before the operand that follows.
      obtain ⟨parts, hforms, hparts⟩ := ih (by simp) (fun position ↦ write (position + 1))
        (fun position operand ↦ hwrite (position + 1) operand) isGap_space
      refine ⟨part :: parts, ?_, ?_⟩
      · have hcons := OperandsForm.cons hgap hform isGap_nil hforms
        simpa [List.mapIdx_cons, List.intercalate] using hcons
      · rw [mapM_eq_ok_iff] at hparts ⊢
        simp [hpart, hparts]

/-- The list of operands that is written, or its absence, stands for the operands that the opcode
reads. -/
theorem exists_operandListForm (instruction : Instruction) :
    ∃ parts, OperandListForm parts (operandsText instruction) ∧
      parts.mapM Operand.resolve = .ok instruction.operands := by
  unfold operandsText
  by_cases harity : instruction.opcode.arity = 0
  · rw [if_pos harity, Instruction.operands, harity]
    exact ⟨[], .absent, rfl⟩
  · rw [if_neg harity]
    have hne : instruction.operands ≠ [] := by simp [Instruction.operands, harity]
    obtain ⟨parts, hform, hparts⟩ := exists_operandsForm instruction.operands hne _
      (exists_operandForm instruction.opcode) isGap_nil
    refine ⟨parts, ?_, hparts⟩
    simpa using OperandListForm.operands isGap_nil hform isGap_nil

/-- The target that is written, or its absence, stands for where the instruction goes on. -/
theorem exists_targetForm (index : Nat) (instruction : Instruction) :
    ∃ target, TargetForm target (targetText index instruction) ∧
      resolveNext target instruction.opcode index = .ok instruction.next := by
  unfold targetText
  by_cases hdefault : instruction.next = Instruction.defaultNext instruction.opcode index
  · rw [if_pos hdefault]
    exact ⟨none, .absent, by rw [resolveNext, hdefault]⟩
  · rw [if_neg hdefault]
    split
    · next target hentry =>
      have hoffset := Offset.entry?_eq_some_iff.mp hentry
      -- An offset is a word, so the entry it names is one that a line may name.
      have hlast : target ≤ Offset.lastEntry := by
        have := instruction.next.toNat_lt
        unfold Offset.lastEntry
        omega
      refine ⟨some (.entry (Text.digits target)),
        .entry isGap_space isGap_space (isRun_digits target), ?_⟩
      rw [resolveNext, Target.resolve, Text.value_digits, if_pos hlast]
      rw [Offset.ofEntry, ← hoffset, UInt32.ofNat_toNat]
    · next hentry =>
      refine ⟨some (.offset (Text.digits instruction.next.toNat)),
        .offset isGap_space isGap_space (isRun_digits _), ?_⟩
      rw [resolveNext, Target.resolve, Text.value_digits, if_pos instruction.next.toNat_lt,
        UInt32.ofNat_toNat]

/-! ### One printed line -/

theorem operation?_name (opcode : Opcode) :
    operation? opcode.name.toList = if opcode = .transition then none else some opcode := by
  cases opcode <;> decide

/-- The line of an instruction has the form of one whose parts resolve to the instruction, unless
it is the entry of a state. -/
theorem exists_lineForm (index : Nat) (instruction : Instruction) :
    ∃ line, LineForm line (lineText index instruction) ∧ line.resolve index =
      if instruction.opcode = .transition then .error (.notAnOperation "Transition")
      else .ok instruction.trimmed := by
  obtain ⟨parts, hoperands, hparts⟩ := exists_operandListForm instruction
  obtain ⟨target, htarget, hnext⟩ := exists_targetForm index instruction
  let line : Line :=
    { mnemonic := instruction.opcode.name.toList, operands := parts, target := target }
  refine ⟨line, ?_, ?_⟩
  · have hform : LineForm line _ :=
      .intro isGap_nil (isRun_mnemonic instruction.opcode) isGap_nil hoperands htarget isGap_nil
    simpa [lineText] using hform
  · have hoperation := operation?_name instruction.opcode
    by_cases hstate : instruction.opcode = .transition
    · rw [if_pos hstate] at hoperation ⊢
      simp only [Line.resolve, line, hoperation, String.ofList_toList]
      rw [hstate]
      rfl
    · rw [if_neg hstate] at hoperation ⊢
      obtain ⟨hfirst, hsecond, hthird⟩ := instruction.getD_operands
      have hlength : parts.length = instruction.opcode.arity := by
        rw [← length_of_mapM_eq_ok hparts, Instruction.length_operands]
      exact Line.resolve_eq_ok_iff.mpr ⟨instruction.operands, hoperation, hlength, hparts, hnext,
        hfirst.symm, hsecond.symm, hthird.symm⟩

/-! ### Whole programs -/

/-- The lines of a listing, the first of them that of a given entry. -/
def linesFrom (index : Nat) : List Instruction → List (List Char)
  | [] => []
  | instruction :: rest => lineText index instruction :: linesFrom (index + 1) rest

theorem mapIdx_lineText (program : List Instruction) (index : Nat) :
    (program.mapIdx fun position instruction ↦ lineText (index + position) instruction ++ ['\n']) =
      (linesFrom index program).map (· ++ ['\n']) := by
  induction program generalizing index with
  | nil => rfl
  | cons instruction program ih =>
    rw [List.mapIdx_cons, linesFrom, List.map_cons, ← ih (index + 1)]
    simp only [Nat.add_zero, Nat.add_assoc, Nat.add_comm 1]

theorem exists_lineForm_of_mem {program : List Instruction} {index : Nat} {text : List Char}
    (htext : text ∈ linesFrom index program) : ∃ line, LineForm line text := by
  induction program generalizing index with
  | nil => cases htext
  | cons instruction program ih =>
    rcases List.mem_cons.mp htext with rfl | htext
    · obtain ⟨line, hline, -⟩ := exists_lineForm index instruction
      exact ⟨line, hline⟩
    · exact ih htext

/-- The lines of a listing are those of its instructions. -/
theorem lines_listing (program : List Instruction) :
    Text.lines (listing program).toList = linesFrom 0 program := by
  have hlist : (listing program).toList = ((linesFrom 0 program).map (· ++ ['\n'])).flatten := by
    rw [listing, String.toList_ofList, ← mapIdx_lineText]
    simp only [Nat.zero_add]
  rw [hlist, Text.lines_flatten]
  intro text htext
  obtain ⟨line, hline⟩ := exists_lineForm_of_mem htext
  exact ⟨hline.not_mem (by decide), hline.not_mem (by decide)⟩

/-- Lines of generic instructions assemble to these, trimmed. -/
theorem assembleLines_of_generic {program : List Instruction}
    (hgeneric : ∀ instruction ∈ program, instruction.opcode ≠ .transition) (number index : Nat) :
    assembleLines number index (linesFrom index program) =
      .ok (program.map Instruction.trimmed) := by
  induction program generalizing number index with
  | nil => rfl
  | cons instruction program ih =>
    rw [List.forall_mem_cons] at hgeneric
    obtain ⟨line, hform, hresolve⟩ := exists_lineForm index instruction
    rw [if_neg hgeneric.1] at hresolve
    rw [linesFrom, assembleLines_of_lineForm hform, hresolve]
    simp only [ih hgeneric.2, Except.map, List.map_cons]

/-- Among the lines of a program, that of the first state is refused. -/
theorem assembleLines_of_state {program : List Instruction}
    (hstate : ∃ instruction ∈ program, instruction.opcode = .transition) (number index : Nat) :
    assembleLines number index (linesFrom index program) = .error
      { line := number + program.findIdx fun instruction ↦ instruction.opcode = .transition
        problem := .notAnOperation "Transition" } := by
  induction program generalizing number index with
  | nil => simp at hstate
  | cons instruction program ih =>
    obtain ⟨line, hform, hresolve⟩ := exists_lineForm index instruction
    rw [linesFrom, assembleLines_of_lineForm hform, hresolve, List.findIdx_cons]
    by_cases hfirst : instruction.opcode = .transition
    · simp [hfirst]
    · have hrest : ∃ other ∈ program, other.opcode = .transition := by
        simpa [hfirst] using hstate
      rw [if_neg hfirst]
      simp [ih hrest, hfirst, Except.map, Nat.add_assoc, Nat.add_comm 1]

theorem map_trimmed_eq_self_iff (program : List Instruction) :
    program.map Instruction.trimmed = program ↔
      ∀ instruction ∈ program, ∀ operand ∈ instruction.unread, operand = 0 := by
  induction program with
  | nil => simp
  | cons instruction program ih =>
    rw [List.map_cons, List.cons.injEq, List.forall_mem_cons, ih, Instruction.trimmed_eq_self_iff]

/-- Assembling a listing gives the program back, with zero for each operand that is not read; the
first state of a program is refused at its line; and what was assembled once is assembled again
from its listing. -/
theorem assemble_listing (program : List Instruction) :
    ((∀ instruction ∈ program, instruction.opcode ≠ .transition) →
      assemble (listing program) = .ok (program.map Instruction.trimmed) ∧
      (assemble (listing program) = .ok program ↔
        ∀ instruction ∈ program, ∀ operand ∈ instruction.unread, operand = 0)) ∧
    ((∃ instruction ∈ program, instruction.opcode = .transition) →
      assemble (listing program) = .error
        { line := program.findIdx (fun instruction ↦ instruction.opcode = .transition) + 1
          problem := .notAnOperation "Transition" }) ∧
    ∀ source, assemble source = .ok program → assemble (listing program) = .ok program := by
  have hlisting : assemble (listing program) = assembleLines 1 0 (linesFrom 0 program) := by
    rw [assemble, lines_listing]
  refine ⟨?_, ?_, ?_⟩
  · intro hgeneric
    have hok := assembleLines_of_generic hgeneric 1 0
    refine ⟨hlisting.trans hok, ?_⟩
    rw [hlisting, hok, Except.ok.injEq]
    exact map_trimmed_eq_self_iff program
  · intro hstate
    rw [hlisting, assembleLines_of_state hstate, Nat.add_comm]
  · intro source hsource
    have hassembled := assembled_of_assembleLines hsource
    have hgeneric : ∀ instruction ∈ program, instruction.opcode ≠ .transition :=
      fun instruction hmem ↦ (hassembled instruction hmem).1
    have hok := assembleLines_of_generic hgeneric 1 0
    have hsame := (map_trimmed_eq_self_iff program).mpr
      fun instruction hmem ↦ (hassembled instruction hmem).2
    rw [hlisting, hok, hsame]

/-- The three cases at short programs: an operand that is not read, the entry of a state, and a
source with a comment. -/
theorem assemble_listing_short_programs :
    assemble (listing [⟨.load, -3, 33, 7, 96⟩, Instruction.halt]) =
      .ok [⟨.load, -3, 33, 0, 96⟩, Instruction.halt] ∧
    assemble (listing [Instruction.halt, ⟨.transition, 0, 0, 0, 64⟩]) =
      .error { line := 2, problem := .notAnOperation "Transition" } ∧
    assemble "Halt # stop\n" = .ok [Instruction.halt] ∧
    assemble (listing [Instruction.halt]) = .ok [Instruction.halt] := by
  have hgeneric : ∀ instruction ∈ [⟨.load, -3, 33, 7, 96⟩, Instruction.halt],
      instruction.opcode ≠ .transition := by
    decide
  have hstate : ∃ instruction ∈ [Instruction.halt, ⟨.transition, 0, 0, 0, 64⟩],
      instruction.opcode = .transition := by
    decide
  have hsource : assemble "Halt # stop\n" = .ok [Instruction.halt] := by decide
  exact ⟨((assemble_listing _).1 hgeneric).1, (assemble_listing _).2.1 hstate, hsource,
    (assemble_listing _).2.2 _ hsource⟩

end TapeMachine.Assembly
