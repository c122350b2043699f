import TapeMachine.Proofs.Entry.Fields
import TapeMachine.Proofs.Machine.Build
import TapeMachine.Proofs.Microcode.Transition

/-!
# The footprint of a transition

Outside the registers a transition writes to the cell under the head, to the head field and to the
instruction pointer. Every other byte of the program and of the tape is spared, because every
instruction of a pass spares it (`Pass.byte_of_agrees`). `transition_at_bytes` asks of the program
that it holds the microcode and is on an entry stored as a state, and of this entry that its two
fields for the symbol under the head stand for something. All other entries and fields may hold
anything, and so may the registers.
-/

set_option autoImplicit false

namespace TapeMachine

attribute [local irreducible] Buffer.setWord Buffer.setSlot

open StateRules (Field fieldAt)

/-- Whether a byte lies in the program or in the tape, and is neither a byte of the instruction
pointer or of the head field nor the byte that holds a cell. -/
structure Regions.Spared (regions : Regions) (position index : Nat) : Prop where
  outside : regions.OutsideRegisters (index / 4)
  pointer : index / 4 ≠ 1
  head : index / 4 ≠ regions.headWord
  cell : index ≠ regions.cellSlot position / 4

namespace Pass

variable {pass : Pass} {start machine : Machine} {k index : Nat}

theorem byte_effect (hspared : machine.regions.Spared pass.position index) (k : Nat) :
    (pass.effect machine k).buffer.byte index = machine.buffer.byte index := by
  unfold effect
  split
  · exact Buffer.byte_setSlot_of_ne _ _ hspared.cell
  · exact Buffer.byte_setWord_of_ne _ _ hspared.head
  · rfl

/-- An instruction of a pass spares every byte that the pass spares. -/
theorem byte_of_agrees {after : Machine}
    (hafter : after.Agrees ((pass.effect machine k).setWord 1 (pass.nextPointer k)))
    (hspared : machine.regions.Spared pass.position index) :
    after.buffer.byte index = machine.buffer.byte index := by
  have hregions := (pass.sameProgram_effect machine k).regions
  rw [hafter.byte_of_setPointer (hregions ▸ hspared.outside) hspared.pointer,
    byte_effect hspared k]

/-- The instructions of a pass that are left are performed one after the other, and spare every byte
that the pass spares. -/
theorem Runs.answers (hprogram : start.Microprogrammed) {remaining : Nat} :
    ∀ {k : Nat} {machine : Machine}, k + remaining = 29 → pass.Runs k machine →
      pass.Progress start k machine →
      machine.answers (remaining + 1) =
        (Microcode.program.drop k).map (fun instruction ↦ .ok (.executed instruction.opcode)) ∧
      ∀ index, start.regions.Spared pass.position index →
        (machine.afterSteps (remaining + 1)).buffer.byte index = machine.buffer.byte index := by
  induction remaining with
  | zero =>
    rintro k machine rfl hruns hprogress
    obtain ⟨after, -, hstep, hafter, -, -⟩ := hruns.step_progress hprogram (by decide) hprogress
    rw [Machine.answers_of_ok hstep, Machine.afterSteps_of_ok hstep]
    exact ⟨rfl, fun index hspared ↦
      byte_of_agrees hafter (hprogress.sameProgram.regions ▸ hspared)⟩
  | succ remaining ih =>
    intro k machine hk hruns hprogress
    have hlt : k < Microcode.program.length := by
      rw [show Microcode.program.length = 30 from rfl]
      omega
    obtain ⟨after, -, hstep, hafter, hknown, hnext⟩ := hruns.step_progress hprogram hlt hprogress
    obtain ⟨hanswers, hbyte⟩ := ih (by omega) (hruns.succ (by omega) hafter hknown) hnext
    rw [Machine.answers_of_ok hstep, Machine.afterSteps_of_ok hstep, hanswers,
      List.drop_eq_getElem_cons hlt]
    refine ⟨rfl, fun index hspared ↦ ?_⟩
    rw [hbyte index hspared,
      byte_of_agrees hafter (hprogress.sameProgram.regions ▸ hspared)]

end Pass

namespace Machine

variable {machine : Machine}

/-- What a transition leaves of a machine, by the words of the entry that it was made on, the
position of the head and the symbol read there. -/
structure Footprint (machine : Machine) (words : EntryWords) (position : Nat) (symbol : Symbol)
    (last : Machine) : Prop where
  regions : last.regions = machine.regions
  written : last.buffer.slot (machine.regions.cellSlot position) =
    fieldAt words.first (Field.write symbol).bit
  headField : (last.headField.toNat : Int) =
    64 + 2 * (position + (fieldAt words.first (Field.move symbol).bit).toNat - 1)
  pointer : last.pointer = StateRules.nextWord words symbol
  cell : ∀ other, other ≠ position → last.cell other = machine.cell other
  byte : ∀ index, machine.regions.Spared position index →
    last.buffer.byte index = machine.buffer.byte index

private theorem ne_three_of_le {field : UInt8} (hfield : field ≤ 2) : field ≠ 3 := by
  rintro rfl
  exact absurd hfield (by decide)

/-- A machine with the microcode that is on an entry stored as a state makes exactly one transition
in its next thirty-one steps if the two fields of the entry for the symbol under the head stand for
something, whatever else its program and its registers hold. -/
theorem transition_at_bytes (hprogram : machine.Microprogrammed) {index : Nat}
    (hentry : machine.entryAt machine.pointer = .ok index)
    (hopcode : (machine.entryWords index).opcode = Opcode.transition.code)
    (hpointer : machine.pointer ≠ Offset.halt) {position : Nat}
    (hhead : machine.head = .ok position) {symbol : Symbol}
    (hcell : machine.cell position = .ok symbol)
    (hwrite : fieldAt (machine.entryWords index).first (Field.write symbol).bit ≤ 2)
    (hmove : fieldAt (machine.entryWords index).first (Field.move symbol).bit ≤ 2) :
    machine.answers 31 =
        .ok (.transition
            { state := machine.pointer.state?, symbol := symbol, position := position }) ::
          Microcode.program.map (fun instruction ↦ .ok (.executed instruction.opcode)) ∧
      machine.Footprint (machine.entryWords index) position symbol (machine.afterSteps 31) := by
  obtain ⟨write, hwriteCode⟩ := StateRules.exists_symbol_of_fieldAt (ne_three_of_le hwrite)
  obtain ⟨move, hmoveCode⟩ := StateRules.exists_move_of_fieldAt (ne_three_of_le hmove)
  have hrule : machine.HasRule machine.pointer index symbol
      { write := write, move := move
        next := StateRules.nextWord (machine.entryWords index) symbol } :=
    ⟨hentry, hopcode, hwriteCode, hmoveCode, rfl⟩
  obtain ⟨entered, hstep, hentered, hruns⟩ :=
    step_of_hasRule hprogram.addressable hrule hhead hcell hpointer
  obtain ⟨last, hexecutes, hdone, hlast⟩ :=
    hruns.executes hprogram (Nat.zero_add 29) (.of_entered hentered)
  obtain ⟨hanswers, hbyte⟩ := hruns.answers hprogram (Nat.zero_add 29) (.of_entered hentered)
  rw [hexecutes.afterSteps_eq] at hbyte
  rw [answers_of_ok hstep, afterSteps_of_ok hstep, hexecutes.afterSteps_eq, hanswers,
    List.drop_zero]
  have hposition := (head_eq_ok_iff.mp hhead).2
  refine ⟨rfl, hdone.sameProgram.regions, ?_, ?_, hlast, fun other hother ↦ ?_,
    fun index hspared ↦ ?_⟩
  · have hnew := (cell_eq_ok_iff.mp ((hdone.cell position).trans (if_pos ⟨by decide, rfl⟩))).2
    rw [← hdone.sameProgram.regions, hnew, hwriteCode]
  · rw [hdone.headField, if_pos (by decide),
      Pass.toNat_newHeadField hprogram.addressable hposition, HeadMove.delta_eq_code_sub_one,
      hmoveCode]
    dsimp only
    omega
  · rw [hdone.cell, if_neg fun h ↦ hother h.2]
  · rw [hbyte index hspared,
      hentered.byte_of_setPointer hspared.outside hspared.pointer]

/-- The microcode after an entry that no state could be decoded from: for a zero what is written is
void, for a one the move is. A blank is replaced by a one and the head goes right. -/
theorem transition_at_bytes_beside_void_fields :
    ∃ machine,
      ofEntries (.instruction ⟨.transition, 0x2C13, 7, 7, 7⟩ ::
        Microcode.program.map Entry.instruction) 16 (Offset.ofEntry 0) = .ok machine ∧
      machine.entry 0 = .error (.notASymbol 96 3) ∧
      machine.answers 31 =
        .ok (.transition { state := none, symbol := .blank, position := 0 }) ::
          Microcode.program.map (fun instruction ↦ .ok (.executed instruction.opcode)) ∧
      machine.Footprint (machine.entryWords 0) 0 .blank (machine.afterSteps 31) := by
  obtain ⟨machine, hmachine⟩ := exists_eq_ok_of_toBool (show (ofEntries
    (.instruction ⟨.transition, 0x2C13, 7, 7, 7⟩ :: Microcode.program.map Entry.instruction) 16
    (Offset.ofEntry 0)).toBool = true from rfl)
  have hbuilt := (built_of_ofEntries hmachine).1
  have hcount : machine.regions.entries = 31 := hbuilt.count
  have hwords : machine.entryWords 0 = ⟨1235, 0x2C13, 7, 7, 7⟩ := hbuilt.entryWords 0 _ rfl
  have hcells : 0 < machine.cellCount := Nat.mul_pos (by decide) machine.regions.cellWords_pos
  have hprogram : machine.Microprogrammed := by
    refine ⟨hbuilt.addressable, hbuilt.programWords, fun k instruction hinstruction ↦ ?_⟩
    refine hbuilt.entry ?_ fun hopcode ↦
      absurd hopcode (Microcode.opcode_of_mem (List.mem_of_getElem? hinstruction)).2
    rw [Offset.firstMicrocodeEntry, Nat.add_comm, List.getElem?_cons_succ, List.getElem?_map,
      hinstruction]
    rfl
  have hentry : machine.entryAt machine.pointer = .ok 0 := by
    rw [hbuilt.pointer]
    exact hbuilt.addressable.entryAt_ofEntry (hcount ▸ by decide)
  have hstate : machine.pointer.state? = none := by
    rw [hbuilt.pointer]
    rfl
  have hsteps := transition_at_bytes hprogram hentry (by rw [hwords]; rfl)
    (by rw [hbuilt.pointer]; decide) (head_eq_ok_iff.mpr ⟨hbuilt.headAt, hcells⟩)
    (hbuilt.cell 0 hcells) (by rw [hwords]; decide) (by rw [hwords]; decide)
  rw [hstate] at hsteps
  refine ⟨machine, hmachine, ?_, hsteps⟩
  rw [Machine.entry, if_pos (hcount ▸ by decide), hwords]
  rfl

end Machine

end TapeMachine
