import TapeMachine.Proofs.Microcode.Footprint

/-!
# Transitions are made as a whole or not at all

Of all that a pass of the microcode reads, only two fields of the state can hold something that
stands for nothing: the symbol to write and the move, each for the symbol under the head. Both are
read before the first of the three instructions that write outside the registers, so a pass that
finds one of them void leaves the tape and all entries as they were (`Pass.Poised.answers`), and
fails there again however often it is asked to go on (`Pass.step_of_void`).
-/

set_option autoImplicit false

namespace TapeMachine

attribute [local irreducible] Buffer.setWord Buffer.setSlot

open StateRules (Field fieldAt)

namespace Machine

/-- Machines that differ in their registers and in the instruction pointer at most. -/
structure Untouched (after machine : Machine) : Prop where
  regions : after.regions = machine.regions
  word : ∀ index, machine.regions.OutsideRegisters index → index ≠ 1 →
    after.buffer.word index = machine.buffer.word index

namespace Untouched

variable {machine middle after : Machine}

theorem refl (machine : Machine) : machine.Untouched machine :=
  ⟨rfl, fun _ _ _ ↦ rfl⟩

theorem trans (hsecond : after.Untouched middle) (hfirst : middle.Untouched machine) :
    after.Untouched machine := by
  refine ⟨hsecond.regions.trans hfirst.regions, fun index hindex hne ↦ ?_⟩
  rw [hsecond.word index (hfirst.regions ▸ hindex) hne, hfirst.word index hindex hne]

theorem sameProgram (h : after.Untouched machine) : after.SameProgram machine :=
  ⟨h.regions, fun index hindex hne ↦ h.word index (Or.inl (h.regions ▸ hindex)) hne⟩

theorem slot (h : after.Untouched machine) {index : Nat}
    (hindex : machine.regions.OutsideRegisters (index / 16)) (hne : index / 16 ≠ 1) :
    after.buffer.slot index = machine.buffer.slot index :=
  Buffer.slot_eq_of_word_eq (h.word _ hindex hne)

theorem tapeBytes (h : after.Untouched machine) : after.tapeBytes = machine.tapeBytes := by
  have htwo := machine.regions.two_le_programWords
  have htape := machine.regions.tapeWord_eq
  refine tapeBytes_congr h.regions fun index hindex ↦ ?_
  rw [h.regions] at hindex
  exact h.word index (Or.inr hindex) (by omega)

end Untouched

theorem Agrees.untouched {machine after : Machine} (hafter : after.Agrees machine) :
    after.Untouched machine :=
  ⟨hafter.regions, fun index hindex _ ↦ hafter.word index (hafter.regions ▸ hindex)⟩

theorem Agrees.untouched_of_setPointer {machine after : Machine} {next : Offset}
    (hafter : after.Agrees (machine.setWord 1 next)) : after.Untouched machine := by
  refine ⟨hafter.regions, fun index hindex hne ↦ ?_⟩
  rw [hafter.word index (hafter.regions ▸ hindex), machine.word_setWord_of_ne next hne]

end Machine

namespace StateRules.Field

/-- The instruction of the microcode that reads a field, counted from its first. -/
def reader : Field → Nat
  | write _ => 14
  | move _ => 17

theorem reader_le (field : Field) : field.reader ≤ 17 := by
  cases field with
  | write read => exact Nat.le_add_right 14 3
  | move read => exact Nat.le_refl 17

/-- A field is the slot of its word that half its bit counts. -/
theorem two_mul_bit_div (field : Field) : 2 * (field.bit / 2) = field.bit := by
  cases field with
  | write read =>
    rw [bit]
    omega
  | move read =>
    rw [bit]
    omega

theorem bit_div_lt (field : Field) : field.bit / 2 < 16 := by
  cases field with
  | write read =>
    have hread := read.code_toNat_lt
    rw [bit]
    omega
  | move read =>
    have hread := read.code_toNat_lt
    rw [bit]
    omega

end StateRules.Field

namespace Pass

variable {pass : Pass} {start machine : Machine} {k : Nat}

/-! ### Before the first write -/

/-- What a pass reads is neither in a register nor the instruction pointer. -/
theorem Reads.of_untouched (hmachine : machine.Untouched start) (hfits : pass.Fits start)
    (hreads : pass.Reads start k) : pass.Reads machine k := by
  obtain ⟨⟨index, hindex, hstate⟩, -⟩ := hfits
  have hread := pass.read.code_toNat_lt
  have hprogram : start.regions.programWords = 2 + 5 * start.regions.entries := rfl
  have htape := start.regions.tapeWord_eq
  unfold Reads at hreads ⊢
  split
  · rw [← hreads, Machine.headField, Machine.headField, hmachine.regions,
      hmachine.word _ start.regions.outsideRegisters_headWord]
    rw [Regions.headWord]
    omega
  · rw [← hreads, hmachine.regions, hmachine.slot (start.regions.outsideRegisters_cellSlot _)]
    rw [Regions.cellSlot]
    omega
  · rw [← hreads, hmachine.slot (Or.inl (by omega)) (by omega)]
  · rw [← hreads, hmachine.slot (Or.inl (by omega)) (by omega)]
  · rw [← hreads, hmachine.word _ (Or.inl (by omega)) (by omega)]
  · trivial

/-- The symbol to write is the first thing a pass may look for in vain. -/
theorem reads_of_lt (hhead : machine.head = .ok pass.position)
    (hcell : machine.cell pass.position = .ok pass.read) (hk : k < 17)
    (hwrite : k = 14 → machine.buffer.slot (pass.state.toNat / 2 + 16 + pass.read.code.toNat) =
      pass.rule.write.code) : pass.Reads machine k := by
  unfold Reads
  split
  · have hat := (Machine.head_eq_ok_iff.mp hhead).1
    unfold Machine.HeadAt at hat
    omega
  · exact (Machine.cell_eq_ok_iff.mp hcell).2
  · exact hwrite rfl
  · exact absurd hk (by decide)
  · exact absurd hk (by decide)
  · trivial

/-- Up to the first write a pass that finds what it reads goes on, and touches nothing. -/
theorem Poised.answers (hpoised : pass.Poised k machine) (hprogram : start.Microprogrammed)
    {limit : Nat} (hlimit : limit ≤ 27) (hreads : ∀ j < limit, pass.Reads start j) {count : Nat}
    (hcount : k + count ≤ limit) (hmachine : machine.Untouched start) :
    machine.answers count =
        ((Microcode.program.drop k).take count).map
          (fun instruction ↦ .ok (.executed instruction.opcode)) ∧
      pass.Poised (k + count) (machine.afterSteps count) ∧
      (machine.afterSteps count).Untouched start := by
  induction count generalizing k machine with
  | zero => exact ⟨rfl, hpoised, hmachine⟩
  | succ count ih =>
    have hlt : k < Microcode.program.length := by
      rw [show Microcode.program.length = 30 from rfl]
      omega
    have hfits := hpoised.fits.of_regions hmachine.regions.symm
    obtain ⟨after, hstep, hafter, hknown⟩ :=
      step_of_lt (hmachine.sameProgram.symm.microprogrammed hprogram) hpoised (by omega)
        ((hreads k (by omega)).of_untouched hmachine hfits) (List.getElem?_eq_getElem hlt)
    have huntouched := hafter.untouched_of_setPointer
    have hnext : pass.Poised (k + 1) after := by
      refine ⟨?_, hpoised.fits.of_regions huntouched.regions, huntouched.regions ▸ hknown⟩
      rw [hafter.pointer, Machine.pointer_setPointer]
      rfl
    obtain ⟨hanswers, hlast⟩ := ih hnext (by omega) (huntouched.trans hmachine)
    rw [Machine.answers_of_ok hstep, Machine.afterSteps_of_ok hstep, hanswers,
      List.drop_eq_getElem_cons hlt, List.take_succ_cons, List.map_cons]
    rw [Nat.add_right_comm] at hlast
    exact ⟨rfl, hlast⟩

/-! ### Void fields -/

theorem Poised.fetched (hpoised : pass.Poised k machine) (instruction : Instruction) :
    pass.Poised k (machine.fetched instruction) := by
  have hagrees := machine.fetched_agrees instruction
  refine ⟨hagrees.pointer.trans hpoised.pointer, hpoised.fits.of_regions hagrees.regions, ?_⟩
  rw [hagrees.regions]
  exact hpoised.holds_fetched instruction

/-- The fault of a pass that finds a field void. -/
def voidFault (state : Offset) (field : Field) (instruction : Instruction) : Fault :=
  .execution (Offset.ofEntry (Offset.firstMicrocodeEntry + field.reader)) instruction
    (.notASymbol (state.toNat + 32 + field.bit) 3)

theorem perform_symbolRead_void {reader : Machine} (haddressable : machine.Addressable)
    (hreader : reader.Agrees machine) (hknown : (pass.known machine.regions k).Holds reader)
    {address target unused : Int32} {base : Register}
    (haddress : Register.ofOperand address = .ok base) {offset : Int}
    (hbase : (pass.known machine.regions k).lookup base = some offset) {index : Nat}
    (hoffset : offset = 2 * index) (hindex : index / 16 < machine.regions.programWords)
    (hvoid : machine.buffer.slot index = 3) (next : Offset) :
    Action.perform ⟨.symbolRead, address, target, unused, next⟩ reader =
      .error (.notASymbol (2 * index) 3) reader := by
  have hlt := machine.lt_wordCount_of_lt_programWords hindex
  refine Action.symbolRead_void haddress (hreader.wordCount ▸ hlt) ?_ ?_
  · rw [hknown.toInt_eq haddressable hbase (by omega) (by omega), hoffset]
  · rw [hreader.slot (Or.inl (hreader.regions ▸ hindex)), hvoid]

/-- An instruction that is to read a void field fails, and leaves the pass where it is. -/
theorem step_of_void (hprogram : machine.Microprogrammed) {field : Field}
    (hfield : field ∈ Field.ofSymbol pass.read) (hpoised : pass.Poised field.reader machine)
    (hvoid : machine.buffer.slot (pass.state.toNat / 2 + 16 + field.bit / 2) = 3)
    {instruction : Instruction}
    (hinstruction : Microcode.program[field.reader]? = some instruction) :
    Action.step machine =
      .error (voidFault pass.state field instruction) (machine.fetched instruction) := by
  obtain ⟨⟨index, hindex, hstate⟩, -⟩ := hpoised.fits
  have hread := pass.read.code_toNat_lt
  have hwords : machine.regions.programWords = 2 + 5 * machine.regions.entries := rfl
  have hagrees := machine.fetched_agrees instruction
  have hknown := hpoised.holds_fetched instruction
  have haddress : (pass.state.toNat : Int) + 32 + field.bit =
      2 * (pass.state.toNat / 2 + 16 + field.bit / 2 : Nat) := by
    have hbit := field.two_mul_bit_div
    omega
  have hcases : field = .write pass.read ∨ field = .move pass.read := by
    simpa [Field.ofSymbol] using hfield
  rw [step_eq_perform hprogram hpoised hinstruction, hpoised.pointer, voidFault, haddress]
  rcases hcases with rfl | rfl
  · obtain rfl : (⟨.symbolRead, Microcode.writeAddress, Microcode.newSymbol, 0,
        Offset.ofEntry (Offset.firstMicrocodeEntry + 15)⟩ : Instruction) = instruction :=
      Option.some.inj (Eq.trans rfl hinstruction)
    rw [Field.bit] at hvoid ⊢
    rw [perform_symbolRead_void hprogram.addressable hagrees hknown rfl rfl (by omega) (by omega)
      hvoid]
  · obtain rfl : (⟨.symbolRead, Microcode.moveAddress, Microcode.moveCode, 0,
        Offset.ofEntry (Offset.firstMicrocodeEntry + 18)⟩ : Instruction) = instruction :=
      Option.some.inj (Eq.trans rfl hinstruction)
    rw [Field.bit] at hvoid ⊢
    rw [perform_symbolRead_void hprogram.addressable hagrees hknown rfl rfl (by omega) (by omega)
      hvoid]

/-- A pass that has come to a void field fails from then on, and touches nothing. -/
theorem Poised.answers_of_void {field : Field} (hpoised : pass.Poised field.reader machine)
    (hprogram : start.Microprogrammed) (hfield : field ∈ Field.ofSymbol pass.read)
    (hvoid : start.buffer.slot (pass.state.toNat / 2 + 16 + field.bit / 2) = 3)
    {instruction : Instruction}
    (hinstruction : Microcode.program[field.reader]? = some instruction)
    (hmachine : machine.Untouched start) (count : Nat) :
    machine.answers count =
        List.replicate count (.error (voidFault pass.state field instruction)) ∧
      (machine.afterSteps count).Untouched start := by
  obtain ⟨index, hindex, hstate⟩ := (hpoised.fits.of_regions hmachine.regions.symm).state
  have hbit := field.bit_div_lt
  have hwords : start.regions.programWords = 2 + 5 * start.regions.entries := rfl
  have hfails : ∀ machine, pass.Poised field.reader machine ∧ machine.Untouched start →
      ∃ after, Action.step machine = .error (voidFault pass.state field instruction) after ∧
        pass.Poised field.reader after ∧ after.Untouched start := by
    rintro machine ⟨hpoised, hmachine⟩
    rw [← hmachine.slot (Or.inl (by omega)) (by omega)] at hvoid
    have hstep := step_of_void (hmachine.sameProgram.symm.microprogrammed hprogram) hfield hpoised
      hvoid hinstruction
    refine ⟨_, hstep, hpoised.fetched instruction, ?_⟩
    exact (machine.fetched_agrees instruction).untouched.trans hmachine
  obtain ⟨hanswers, hlast⟩ := Machine.answers_of_fails hfails ⟨hpoised, hmachine⟩ count
  exact ⟨hanswers, hlast.2⟩

/-- A pass that is fine up to a void field comes to the instruction that reads the field, stays
there, and never touches anything. -/
theorem Poised.answers_to_void {field : Field} (hpoised : pass.Poised 0 machine)
    (hprogram : start.Microprogrammed) (hreads : ∀ j < field.reader, pass.Reads start j)
    (hfield : field ∈ Field.ofSymbol pass.read)
    (hvoid : start.buffer.slot (pass.state.toNat / 2 + 16 + field.bit / 2) = 3)
    {instruction : Instruction}
    (hinstruction : Microcode.program[field.reader]? = some instruction)
    (hmachine : machine.Untouched start) :
    machine.answers 30 =
        (Microcode.program.take field.reader).map
            (fun instruction ↦ .ok (.executed instruction.opcode)) ++
          List.replicate (30 - field.reader) (.error (voidFault pass.state field instruction)) ∧
      ∀ count, (machine.afterSteps count).Untouched start := by
  have hreader := field.reader_le
  have hbefore : ∀ {count}, 0 + count ≤ field.reader → _ := fun hcount ↦
    hpoised.answers hprogram (Nat.le_trans hreader (by decide)) hreads hcount hmachine
  obtain ⟨hanswers, hstopped, hstill⟩ := hbefore (Nat.le_of_eq (Nat.zero_add field.reader))
  rw [Nat.zero_add] at hstopped
  have hafter := hstopped.answers_of_void hprogram hfield hvoid hinstruction hstill
  refine ⟨?_, fun count ↦ ?_⟩
  · have hsplit := machine.answers_add field.reader (30 - field.reader)
    rwa [Nat.add_sub_cancel' (Nat.le_trans hreader (by decide)), hanswers, (hafter _).1,
      List.drop_zero] at hsplit
  · by_cases hcount : 0 + count ≤ field.reader
    · exact (hbefore hcount).2.2
    · rw [show count = field.reader + (count - field.reader) by omega, machine.afterSteps_add]
      exact (hafter _).2

end Pass

namespace Machine

variable {machine : Machine}

/-- A machine on an entry with a rule for the symbol under the head makes a transition. -/
theorem HasRule.moved (hprogram : machine.Microprogrammed) {index : Nat} {symbol : Symbol}
    {rule : Rule Offset} (hrule : machine.HasRule machine.pointer index symbol rule)
    {position : Nat} (hhead : machine.head = .ok position)
    (hcell : machine.cell position = .ok symbol) (hpointer : machine.pointer ≠ Offset.halt) :
    machine.answers 31 =
        .ok (.transition
            { state := machine.pointer.state?, symbol := symbol, position := position }) ::
          Microcode.program.map (fun instruction ↦ .ok (.executed instruction.opcode)) ∧
      machine.Moved position rule (machine.afterSteps 31) := by
  obtain ⟨entered, hstep, hentered, hruns⟩ :=
    step_of_hasRule hprogram.addressable hrule hhead hcell hpointer
  obtain ⟨last, hexecutes, hdone, hlast⟩ :=
    hruns.executes hprogram (Nat.zero_add 29) (.of_entered hentered)
  have hanswers := (hruns.answers hprogram (Nat.zero_add 29) (.of_entered hentered)).1
  rw [answers_of_ok hstep, afterSteps_of_ok hstep, hexecutes.afterSteps_eq, hanswers,
    List.drop_zero]
  exact ⟨rfl, hdone.moved hprogram.addressable (head_eq_ok_iff.mp hhead).2 hlast⟩

/-- How a transition is refused for a void field: the microcode fails at the instruction that reads
the field, then and whenever it is asked to go on, and the tape and the entries are never
changed. -/
structure Aborts (machine : Machine) (reading : Reading) (field : Field) : Prop where
  answers : ∃ instruction, Microcode.program[field.reader]? = some instruction ∧
    machine.answers 31 =
      .ok (.transition reading) ::
        ((Microcode.program.take field.reader).map
            (fun instruction ↦ .ok (.executed instruction.opcode)) ++
          List.replicate (30 - field.reader)
            (.error (Pass.voidFault machine.pointer field instruction)))
  tapeBytes : ∀ count, (machine.afterSteps count).tapeBytes = machine.tapeBytes
  entryWords : ∀ count, ∀ index < machine.regions.entries,
    (machine.afterSteps count).entryWords index = machine.entryWords index

theorem Aborts.fails {reading : Reading} {field : Field} (haborts : machine.Aborts reading field) :
    ∃ fault, .error fault ∈ machine.answers 31 := by
  obtain ⟨instruction, -, hanswers⟩ := haborts.answers
  have hleft : 30 - field.reader ≠ 0 := by
    have hle := field.reader_le
    omega
  refine ⟨Pass.voidFault machine.pointer field instruction, ?_⟩
  rw [hanswers]
  exact List.mem_cons_of_mem _ (List.mem_append_right _ (List.mem_replicate.mpr ⟨hleft, rfl⟩))

/-- A transition whose pass is fine up to a void field is refused for this field. -/
theorem aborts_of_void (hprogram : machine.Microprogrammed) {index : Nat}
    (hentry : machine.entryAt machine.pointer = .ok index)
    (hopcode : (machine.entryWords index).opcode = Opcode.transition.code)
    (hpointer : machine.pointer ≠ Offset.halt) {position : Nat}
    (hhead : machine.head = .ok position) {symbol : Symbol}
    (hcell : machine.cell position = .ok symbol) {field : Field}
    (hfield : field ∈ Field.ofSymbol symbol)
    (hvoid : fieldAt (machine.entryWords index).first field.bit = 3) (rule : Rule Offset)
    (hreads : ∀ k < field.reader, Pass.Reads ⟨machine.pointer, position, symbol, rule⟩ machine k) :
    machine.Aborts { state := machine.pointer.state?, symbol := symbol, position := position }
      field := by
  obtain ⟨entered, hstep, hentered, hactive⟩ :=
    step_enters hprogram.addressable hentry hopcode hhead hcell hpointer
  obtain ⟨instruction, hinstruction⟩ : ∃ instruction,
      Microcode.program[field.reader]? = some instruction :=
    ⟨_, List.getElem?_eq_getElem (Nat.lt_of_le_of_lt field.reader_le (by decide))⟩
  have hslot := slot_of_entryAt hprogram.addressable hentry field.bit_div_lt
  rw [field.two_mul_bit_div, hvoid] at hslot
  obtain ⟨hanswers, hafter⟩ := (poised_of_entered hentered hactive hentry hhead symbol
    rule).answers_to_void hprogram hreads hfield hslot hinstruction hentered.untouched_of_setPointer
  have hnever : ∀ count, (machine.afterSteps count).Untouched machine := by
    intro count
    cases count with
    | zero => exact .refl machine
    | succ count =>
      rw [afterSteps_of_ok hstep]
      exact hafter count
  refine ⟨⟨instruction, hinstruction, ?_⟩, fun count ↦ (hnever count).tapeBytes,
    fun count index hindex ↦ ?_⟩
  · rw [answers_of_ok hstep, hanswers]
  · exact ((hnever count).sameProgram.symm.entryWords hprogram.addressable hindex).symm

/-- A machine with the microcode that is on an entry stored as a state fails in its next thirty-one
steps exactly if the field for what to write or the field for how to move is void, each for the
symbol under the head. It then fails at the first of these that the microcode reads, and nothing of
the tape or of the entries is changed; else all thirty-one steps are done, and the symbol, the head
and the instruction pointer are as the entry says. Other fields do not matter. -/
theorem transition_all_or_nothing (hprogram : machine.Microprogrammed) {index : Nat}
    (hentry : machine.entryAt machine.pointer = .ok index)
    (hopcode : (machine.entryWords index).opcode = Opcode.transition.code)
    (hpointer : machine.pointer ≠ Offset.halt) {position : Nat}
    (hhead : machine.head = .ok position) {symbol : Symbol}
    (hcell : machine.cell position = .ok symbol) :
    ((∃ fault, .error fault ∈ machine.answers 31) ↔
      fieldAt (machine.entryWords index).first (Field.write symbol).bit = 3 ∨
        fieldAt (machine.entryWords index).first (Field.move symbol).bit = 3) ∧
    if fieldAt (machine.entryWords index).first (Field.write symbol).bit = 3 then
      machine.Aborts { state := machine.pointer.state?, symbol := symbol, position := position }
        (.write symbol)
    else if fieldAt (machine.entryWords index).first (Field.move symbol).bit = 3 then
      machine.Aborts { state := machine.pointer.state?, symbol := symbol, position := position }
        (.move symbol)
    else
      ∃ rule, machine.HasRule machine.pointer index symbol rule ∧
        machine.answers 31 =
          .ok (.transition
              { state := machine.pointer.state?, symbol := symbol, position := position }) ::
            Microcode.program.map (fun instruction ↦ .ok (.executed instruction.opcode)) ∧
        machine.Moved position rule (machine.afterSteps 31) := by
  by_cases hwrite : fieldAt (machine.entryWords index).first (Field.write symbol).bit = 3
  · have haborts := aborts_of_void hprogram hentry hopcode hpointer hhead hcell
      List.mem_cons_self hwrite ⟨.blank, .stay, Offset.halt⟩ fun k hk ↦
        Pass.reads_of_lt hhead hcell (Nat.lt_trans hk (show 14 < 17 by decide)) fun heq ↦
          absurd hk (heq ▸ Nat.lt_irrefl 14)
    rw [if_pos hwrite]
    exact ⟨iff_of_true haborts.fails (Or.inl hwrite), haborts⟩
  obtain ⟨write, hwriteCode⟩ := StateRules.exists_symbol_of_fieldAt hwrite
  rw [if_neg hwrite]
  by_cases hmove : fieldAt (machine.entryWords index).first (Field.move symbol).bit = 3
  · have hslot := slot_of_entryAt hprogram.addressable hentry
      (show symbol.code.toNat < 16 from Nat.lt_trans symbol.code_toNat_lt (by decide))
    have haborts := aborts_of_void hprogram hentry hopcode hpointer hhead hcell
      (List.mem_cons_of_mem _ List.mem_cons_self) hmove ⟨write, .stay, Offset.halt⟩ fun k hk ↦
        Pass.reads_of_lt hhead hcell hk fun _ ↦ hslot.trans hwriteCode
    rw [if_pos hmove]
    exact ⟨iff_of_true haborts.fails (Or.inr hmove), haborts⟩
  obtain ⟨move, hmoveCode⟩ := StateRules.exists_move_of_fieldAt hmove
  have hrule : machine.HasRule machine.pointer index symbol
      ⟨write, move, StateRules.nextWord (machine.entryWords index) symbol⟩ :=
    ⟨hentry, hopcode, hwriteCode, hmoveCode, rfl⟩
  obtain ⟨hanswers, hmoved⟩ := hrule.moved hprogram hhead hcell hpointer
  rw [if_neg hmove]
  refine ⟨iff_of_false ?_ (not_or.mpr ⟨hwrite, hmove⟩), _, hrule, hanswers, hmoved⟩
  rintro ⟨fault, hfault⟩
  rw [hanswers] at hfault
  simp at hfault

/-- Both fields for a blank are void, and the one for what to write is read first. -/
theorem transition_all_or_nothing_on_blank :
    ∃ machine,
      ofEntries (.instruction ⟨.transition, 0x3030, 7, 7, 7⟩ ::
        Microcode.program.map Entry.instruction) 16 (Offset.ofEntry 0) = .ok machine ∧
      machine.Aborts { state := none, symbol := .blank, position := 0 } (.write .blank) := by
  obtain ⟨machine, hmachine⟩ := exists_eq_ok_of_toBool (show (ofEntries
    (.instruction ⟨.transition, 0x3030, 7, 7, 7⟩ :: Microcode.program.map Entry.instruction) 16
    (Offset.ofEntry 0)).toBool = true from rfl)
  have hbuilt := (built_of_ofEntries hmachine).1
  have hwords : machine.entryWords 0 = ⟨1235, 0x3030, 7, 7, 7⟩ := hbuilt.entryWords 0 _ rfl
  have hcells : 0 < machine.cellCount := (head_eq_ok_iff.mp hbuilt.head).2
  have hprogram : machine.Microprogrammed := by
    refine ⟨hbuilt.addressable, hbuilt.programWords, fun k instruction hinstruction ↦ ?_⟩
    refine hbuilt.entry ?_ fun hopcode ↦
      absurd hopcode (Microcode.opcode_of_mem (List.mem_of_getElem? hinstruction)).2
    rw [Offset.firstMicrocodeEntry, Nat.add_comm, List.getElem?_cons_succ, List.getElem?_map,
      hinstruction]
    rfl
  have hentry : machine.entryAt machine.pointer = .ok 0 := by
    rw [hbuilt.pointer]
    exact hbuilt.addressable.entryAt_ofEntry (hbuilt.count ▸ by decide)
  have hstate : machine.pointer.state? = none := by
    rw [hbuilt.pointer]
    rfl
  have hsteps := (transition_all_or_nothing hprogram hentry (by rw [hwords]; rfl)
    (by rw [hbuilt.pointer]; decide) hbuilt.head (hbuilt.cell 0 hcells)).2
  rw [if_pos (by rw [hwords]; decide), hstate] at hsteps
  exact ⟨machine, hmachine, hsteps⟩

end Machine

end TapeMachine
