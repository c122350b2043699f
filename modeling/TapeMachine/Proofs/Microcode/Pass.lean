import TapeMachine.Proofs.Machine.Tape
import TapeMachine.Proofs.Microcode.Trace

/-!
# One pass of the microcode

A machine is microprogrammed if it is addressable, its program word count is right and its entries
from 1 on are the microcode. On such a machine an instruction of a pass finds in registers what the
trace says, and `Pass.step` says what its step does: it is performed, the trace goes on, and outside
the registers nothing changes but the instruction pointer and, for the last three instructions, the
cell under the head, the head and the pointer to the next state.
-/

set_option autoImplicit false

namespace TapeMachine

attribute [local irreducible] Buffer.setWord Buffer.setSlot

namespace Machine

/-- Whether a machine can run the microcode. -/
structure Microprogrammed (machine : Machine) : Prop where
  addressable : machine.Addressable
  programWords : machine.buffer.word 0 = UInt32.ofNat machine.regions.programWords
  microcode : ∀ k instruction, Microcode.program[k]? = some instruction →
    machine.entry (Offset.firstMicrocodeEntry + k) = .ok (.instruction instruction)

theorem SameProgram.microprogrammed {machine other : Machine} (h : machine.SameProgram other)
    (hprogram : machine.Microprogrammed) : other.Microprogrammed := by
  refine ⟨h.addressable hprogram.addressable, ?_, fun k instruction hinstruction ↦ ?_⟩
  · rw [← h.word 0 (Nat.lt_of_lt_of_le (by decide) machine.regions.two_le_programWords)
      (by decide), hprogram.programWords, h.regions]
  · rw [← h.entry hprogram.addressable, hprogram.microcode k instruction hinstruction]

namespace Microprogrammed

variable {machine : Machine}

theorem toNat_programWords (hprogram : machine.Microprogrammed) :
    (machine.buffer.word 0).toNat = machine.regions.programWords := by
  have hwords := machine.regions.programWords_lt
  rw [hprogram.programWords, UInt32.toNat_ofNat', Regions.programWords]
  omega

/-- The program of the machine has room for the microcode. -/
theorem lt_entries (hprogram : machine.Microprogrammed) {k : Nat} {instruction : Instruction}
    (hinstruction : Microcode.program[k]? = some instruction) :
    Offset.firstMicrocodeEntry + k < machine.regions.entries :=
  lt_entries_of_entry (hprogram.microcode k instruction hinstruction)

end Microprogrammed

/-! ### Registers that a step keeps -/

variable (machine : Machine)

theorem register_advanced {register : Register} (hregister : register ∉ fetchRegisters)
    (next : Offset) : (machine.advanced next).register register = machine.register register := by
  have hnames : register ∉ [Register.next, Register.pointerAddress] := by
    intro hmem
    refine hregister ?_
    simp only [List.mem_cons, List.not_mem_nil, or_false] at hmem
    rcases hmem with rfl | rfl
    · decide
    · decide
  rw [advanced, register_setWord, register_setRegisters_of_notMem _ hnames]
  exact Regions.outsideRegisters_one _

end Machine

/-! ### The instructions of the microcode -/

theorem Microcode.program_getElem? {k : Nat} {opcode : Opcode} {first second third : Int32}
    (hstep : Microcode.steps[k]? = some (opcode, first, second, third)) :
    Microcode.program[k]? = some
      { opcode := opcode
        first := first
        second := second
        third := third
        next := Instruction.defaultNext opcode (Offset.firstMicrocodeEntry + k) } := by
  rw [Microcode.program, List.getElem?_mapIdx, hstep]
  rfl

/-- No instruction of the microcode halts or is taken for a state. -/
theorem Microcode.opcode_of_mem {instruction : Instruction}
    (hinstruction : instruction ∈ Microcode.program) :
    instruction.opcode ≠ .halt ∧ instruction.opcode ≠ .transition := by
  have hopcodes : ∀ instruction ∈ Microcode.program,
      instruction.opcode ≠ .halt ∧ instruction.opcode ≠ .transition := by decide
  exact hopcodes instruction hinstruction

theorem Microcode.next_of_fallsThrough {k : Nat} {instruction : Instruction}
    (hinstruction : Microcode.program[k]? = some instruction)
    (hfalls : instruction.opcode.fallsThrough = true) :
    instruction.next = Offset.ofEntry (Offset.firstMicrocodeEntry + k + 1) := by
  rw [Microcode.program, List.getElem?_mapIdx, Option.map_eq_some_iff] at hinstruction
  obtain ⟨step, -, rfl⟩ := hinstruction
  exact if_pos hfalls

theorem Computes.fallsThrough {known : Known} {machine : Machine} {opcode : Opcode}
    {first second third : Int32} {register : Register} {value : Int}
    (hcomputes : Computes known machine opcode first second third register value) :
    opcode.fallsThrough = true := by
  cases hcomputes <;> rfl

namespace Pass

variable (pass : Pass)

/-- The head field that a pass leaves. -/
def newHeadField : UInt32 :=
  UInt32.ofNat (62 + 2 * pass.position + 2 * pass.rule.move.code.toNat)

/-- What an instruction of a pass changes outside the registers, apart from the instruction
pointer. -/
def effect (machine : Machine) : Nat → Machine
  | 27 => machine.setCell pass.position pass.rule.write
  | 28 => machine.setWord machine.regions.headWord pass.newHeadField
  | _ => machine

theorem effect_of_lt (machine : Machine) {k : Nat} (hk : k < 27) :
    pass.effect machine k = machine := by
  unfold effect
  split
  · omega
  · omega
  · rfl

theorem sameProgram_effect (machine : Machine) (k : Nat) :
    (pass.effect machine k).SameProgram machine := by
  unfold effect
  split
  · exact machine.sameProgram_setCell _ _
  · refine machine.sameProgram_setWord _ (Or.inr ?_)
    rw [Regions.headWord_eq]
    omega
  · exact .refl machine

/-- Where an instruction of a pass leaves the instruction pointer. -/
def nextPointer (k : Nat) : Offset :=
  if k = 29 then pass.rule.next else Offset.ofEntry (Offset.firstMicrocodeEntry + k + 1)

/-- Whether a machine is about to perform an instruction of a pass, and its registers hold what the
pass has put there. -/
structure Poised (k : Nat) (machine : Machine) : Prop where
  pointer : machine.pointer = Offset.ofEntry (Offset.firstMicrocodeEntry + k)
  fits : pass.Fits machine
  known : (pass.known machine.regions k).Holds machine

/-- Whether in addition what the pass has still to read is in memory. -/
structure Runs (k : Nat) (machine : Machine) : Prop extends pass.Poised k machine where
  head : k ≤ 7 → machine.HeadAt pass.position
  cell : k ≤ 9 → machine.cell pass.position = .ok pass.read
  rule : RuleAt machine pass.state pass.read pass.rule

variable {pass} {machine : Machine} {k : Nat}

theorem Runs.reads (hruns : pass.Runs k machine) : pass.Reads machine k := by
  unfold Reads
  split
  · have hhead := hruns.head (by decide)
    unfold Machine.HeadAt at hhead
    omega
  · exact (Machine.cell_eq_ok_iff.mp (hruns.cell (by decide))).2
  · exact hruns.rule.write
  · exact hruns.rule.move
  · exact hruns.rule.next
  · trivial

/-- All through a pass the machine is in the state that was handed over. -/
theorem Runs.activeState_eq (hruns : pass.Runs k machine) (hk : k < 30) :
    machine.activeState = pass.state.state? := by
  have hentry : Offset.firstMicrocodeEntry + k < Offset.firstStateEntry := by
    unfold Offset.firstMicrocodeEntry Offset.firstStateEntry
    omega
  have hpointer : machine.pointer.state? = none := by
    have hlast : Offset.firstMicrocodeEntry + k ≤ Offset.lastEntry :=
      Nat.le_trans (Nat.le_of_lt hentry) (by decide)
    rw [hruns.pointer, Offset.state?_of_toNat (Offset.toNat_ofEntry hlast)]
    exact if_neg (Nat.not_le_of_lt hentry)
  have hregister := hruns.known _ _ (pass.lookup_known_activeState machine.regions k)
  unfold Machine.activeState
  rw [hpointer, hregister, ← toInt32_eq_ofInt, UInt32.toUInt32_toInt32]

/-- The step of a machine in a pass performs the instruction that it is at. -/
theorem step_eq_perform (hprogram : machine.Microprogrammed) (hpoised : pass.Poised k machine)
    {instruction : Instruction} (hinstruction : Microcode.program[k]? = some instruction) :
    Action.step machine =
      match Action.perform instruction (machine.fetched instruction) with
      | .error cause after => .error (.execution machine.pointer instruction cause) after
      | .ok () after =>
        match instruction.opcode with
        | .halt => .ok .halted after
        | .ret => .ok (.executed .ret) after
        | opcode => .ok (.executed opcode) (after.advanced instruction.next) := by
  have hentry : machine.entryAt machine.pointer = .ok (Offset.firstMicrocodeEntry + k) := by
    rw [hpoised.pointer]
    exact hprogram.addressable.entryAt_ofEntry (hprogram.lt_entries hinstruction)
  exact Action.step_of_instruction hentry (hprogram.addressable.reaches hentry (by decide))
    (hprogram.microcode k instruction hinstruction)

/-- An instruction that falls through leaves what performing it left, with the instruction pointer
moved on. -/
theorem step_of_fallsThrough (hprogram : machine.Microprogrammed) (hpoised : pass.Poised k machine)
    {instruction : Instruction} (hinstruction : Microcode.program[k]? = some instruction)
    (hfalls : instruction.opcode.fallsThrough = true) {done target : Machine}
    (hperform : Action.perform instruction (machine.fetched instruction) = .ok () done)
    (htarget : done.Agrees target) (hknown : (pass.known machine.regions (k + 1)).Holds done) :
    ∃ after, Action.step machine = .ok (.executed instruction.opcode) after ∧
      after.Agrees (target.setWord 1 (Offset.ofEntry (Offset.firstMicrocodeEntry + k + 1))) ∧
      (pass.known machine.regions (k + 1)).Holds after := by
  refine ⟨done.advanced (Offset.ofEntry (Offset.firstMicrocodeEntry + k + 1)), ?_, ?_, ?_⟩
  · rw [step_eq_perform hprogram hpoised hinstruction, hperform,
      Microcode.next_of_fallsThrough hinstruction hfalls]
    cases hopcode : instruction.opcode with
    | halt => rw [hopcode] at hfalls; cases hfalls
    | ret => rw [hopcode] at hfalls; cases hfalls
    | _ => rfl
  · exact (done.advanced_agrees _).trans (htarget.setWord done.one_lt_wordCount _)
  · intro register value hregister
    rw [done.register_advanced (pass.notMem_fetchRegisters hregister)]
    exact hknown register value hregister

theorem Poised.holds_fetched (hpoised : pass.Poised k machine) (instruction : Instruction) :
    (pass.known machine.regions k).Holds (machine.fetched instruction) := by
  intro register value hregister
  rw [machine.register_fetched (pass.notMem_fetchRegisters hregister)]
  exact hpoised.known register value hregister

/-- An instruction of the trace puts its value into its register. -/
theorem step_of_lt (hprogram : machine.Microprogrammed) (hpoised : pass.Poised k machine)
    (hk : k < 27) (hreads : pass.Reads machine k) {instruction : Instruction}
    (hinstruction : Microcode.program[k]? = some instruction) :
    ∃ after, Action.step machine = .ok (.executed instruction.opcode) after ∧
      after.Agrees (machine.setWord 1 (Offset.ofEntry (Offset.firstMicrocodeEntry + k + 1))) ∧
      (pass.known machine.regions (k + 1)).Holds after := by
  obtain ⟨opcode, first, second, third, register, value, hstep, htrace, hcomputes⟩ :=
    pass.computes hprogram.toNat_programWords hpoised.fits hk hreads
  obtain rfl := Option.some.inj (hinstruction.symm.trans (Microcode.program_getElem? hstep))
  have hagrees := machine.fetched_agrees
    ⟨opcode, first, second, third, Instruction.defaultNext opcode (Offset.firstMicrocodeEntry + k)⟩
  have hperform := hcomputes.perform_eq hprogram.addressable hagrees (hpoised.holds_fetched _)
    (Instruction.defaultNext opcode (Offset.firstMicrocodeEntry + k))
  refine step_of_fallsThrough hprogram hpoised hinstruction hcomputes.fallsThrough hperform
    (hagrees.setRegister_left _ _) ?_
  intro other known hother
  rw [Machine.register_setRegister]
  rw [pass.known_succ htrace, List.lookup_cons] at hother
  by_cases hsame : other = register
  · rw [if_pos hsame]
    rw [hsame, beq_self_eq_true] at hother
    cases hother
    rfl
  · rw [if_neg hsame]
    rw [beq_false_of_ne hsame] at hother
    exact hpoised.holds_fetched _ other known hother

/-- The symbol is written into the cell under the head. -/
theorem perform_symbolWrite {reader : Machine} (haddressable : machine.Addressable)
    (hfits : pass.Fits machine) (hreader : reader.Agrees machine)
    (hknown : (pass.known machine.regions 27).Holds reader) (next : Offset) :
    Action.perform ⟨.symbolWrite, Microcode.newSymbol, Microcode.cellAddress, 0, next⟩ reader =
      .ok () (reader.setCell pass.position pass.rule.write) := by
  have hslot := machine.cellSlot_lt_wordCount hfits.position
  have haddress : (reader.register 9).toInt = 2 * machine.regions.cellSlot pass.position := by
    rw [hknown.toInt_eq haddressable rfl]
    all_goals
      rw [Regions.cellSlot] at *
      omega
  have hsymbol : Symbol.ofValue? (reader.register 24).toInt = some pass.rule.write := by
    rw [hknown 24 pass.rule.write.code.toNat rfl]
    cases pass.rule.write <;> rfl
  rw [Machine.setCell, hreader.regions]
  exact Action.symbolWrite_eq rfl rfl (hreader.wordCount ▸ hslot) haddress hsymbol

/-- The new head is written, and the next state after it. -/
theorem perform_wordWrite {reader : Machine} (haddressable : machine.Addressable)
    (hreader : reader.Agrees machine) (hknown : (pass.known machine.regions 27).Holds reader)
    (next : Offset) :
    Action.perform ⟨.wordWrite, Microcode.newHead, Microcode.headAddress, 0, next⟩ reader =
      .ok () (reader.setWord reader.regions.headWord pass.newHeadField) := by
  have haddress : (reader.register 7).toInt = 32 * reader.regions.headWord := by
    have hhead := machine.headWord_lt_wordCount
    rw [hknown.toInt_eq haddressable rfl (by omega) (by omega), hreader.regions]
  have hvalue : (reader.register 23).toUInt32 = pass.newHeadField := by
    rw [hknown 23 ((62 + 2 * pass.position + 2 * pass.rule.move.code.toNat : Nat)) rfl,
      Int32.ofInt_eq_ofNat]
    rfl
  rw [← hvalue]
  exact Action.wordWrite_eq rfl rfl reader.headWord_lt_wordCount haddress

theorem perform_ret {reader : Machine}
    (hknown : (pass.known machine.regions 27).Holds reader) (next : Offset) :
    Action.perform ⟨.ret, Microcode.newState, Microcode.wordBits, 0, next⟩ reader =
      .ok () (reader.setWord 1 pass.rule.next) := by
  have haddress : (reader.register 1).toInt = 32 * (1 : Nat) := by
    rw [hknown 1 32 rfl]
    rfl
  have hvalue : (reader.register 25).toUInt32 = pass.rule.next := by
    rw [hknown 25 pass.rule.next.toNat rfl, ← toInt32_eq_ofInt, UInt32.toUInt32_toInt32]
  rw [← hvalue]
  exact Action.wordWrite_eq rfl rfl reader.one_lt_wordCount haddress

/-- One instruction of a pass: it is performed, the trace goes on, and outside the registers nothing
changes but what the instruction is there for. -/
theorem step (hprogram : machine.Microprogrammed) (hruns : pass.Runs k machine)
    {instruction : Instruction} (hinstruction : Microcode.program[k]? = some instruction) :
    ∃ after, Action.step machine = .ok (.executed instruction.opcode) after ∧
      after.Agrees ((pass.effect machine k).setWord 1 (pass.nextPointer k)) ∧
      (pass.known machine.regions (k + 1)).Holds after := by
  have hk : k < 30 := (List.getElem?_eq_some_iff.mp hinstruction).1
  by_cases htrace : k < 27
  · have hpointer : pass.nextPointer k = Offset.ofEntry (Offset.firstMicrocodeEntry + k + 1) :=
      if_neg (by omega)
    rw [hpointer, pass.effect_of_lt machine htrace]
    exact step_of_lt hprogram hruns.toPoised htrace hruns.reads hinstruction
  have hagrees := machine.fetched_agrees instruction
  have hknown := hruns.holds_fetched instruction
  have hlast : k = 27 ∨ k = 28 ∨ k = 29 := by omega
  rcases hlast with rfl | rfl | rfl
  · obtain rfl : (⟨.symbolWrite, Microcode.newSymbol, Microcode.cellAddress, 0,
        Offset.ofEntry (Offset.firstMicrocodeEntry + 28)⟩ : Instruction) = instruction :=
      Option.some.inj (Eq.trans rfl hinstruction)
    refine step_of_fallsThrough hprogram hruns.toPoised hinstruction rfl
      (perform_symbolWrite hprogram.addressable hruns.fits hagrees hknown _)
      (hagrees.setSlot _ _) fun register value hregister ↦ ?_
    rw [Machine.register_setCell]
    exact hknown register value hregister
  · obtain rfl : (⟨.wordWrite, Microcode.newHead, Microcode.headAddress, 0,
        Offset.ofEntry (Offset.firstMicrocodeEntry + 29)⟩ : Instruction) = instruction :=
      Option.some.inj (Eq.trans rfl hinstruction)
    refine step_of_fallsThrough hprogram hruns.toPoised hinstruction rfl
      (perform_wordWrite hprogram.addressable hagrees hknown _)
      (hagrees.setWord (Machine.headWord_lt_wordCount _) _) fun register value hregister ↦ ?_
    rw [Machine.register_setWord _ (Regions.outsideRegisters_headWord _)]
    exact hknown register value hregister
  · obtain rfl : (⟨.ret, Microcode.newState, Microcode.wordBits, 0,
        Offset.ofEntry 0⟩ : Instruction) = instruction :=
      Option.some.inj (Eq.trans rfl hinstruction)
    have hstep := step_eq_perform hprogram hruns.toPoised hinstruction
    rw [perform_ret hknown] at hstep
    refine ⟨_, hstep, hagrees.setWord (Machine.one_lt_wordCount _) _,
      fun register value hregister ↦ ?_⟩
    rw [Machine.register_setWord _ (Regions.outsideRegisters_one _)]
    exact hknown register value hregister

/-- A pass changes the program of a machine in nothing but the instruction pointer. -/
theorem sameProgram_of_agrees {after : Machine}
    (hafter : after.Agrees ((pass.effect machine k).setWord 1 (pass.nextPointer k))) :
    after.SameProgram machine :=
  hafter.sameProgram.trans
    (((pass.effect machine k).sameProgram_setWord _ (Or.inl rfl)).trans
      (pass.sameProgram_effect machine k))

theorem RuleAt.of_sameProgram {other : Machine} (hsame : other.SameProgram machine)
    {state : Offset} {read : Symbol} {rule : Rule Offset}
    (hstate : ∃ index < machine.regions.entries, state.toNat = 64 + 160 * index)
    (hrule : RuleAt machine state read rule) : RuleAt other state read rule := by
  obtain ⟨index, hindex, hoffset⟩ := hstate
  have hread := read.code_toNat_lt
  have hwords : machine.regions.programWords = 2 + 5 * machine.regions.entries := rfl
  rw [← hsame.regions] at hwords hindex
  refine ⟨?_, ?_, ?_⟩
  · rw [hsame.slot (by omega) (by omega), hrule.write]
  · rw [hsame.slot (by omega) (by omega), hrule.move]
  · rw [hsame.word _ (by omega) (by omega), hrule.next]

theorem Fits.of_regions {other : Machine} (hregions : other.regions = machine.regions)
    (hfits : pass.Fits machine) : pass.Fits other := by
  refine ⟨hregions ▸ hfits.state, ?_⟩
  rw [Machine.cellCount, hregions]
  exact hfits.position

/-- Between two instructions of a pass the pass goes on. -/
theorem Runs.succ (hruns : pass.Runs k machine) (hk : k < 29) {after : Machine}
    (hafter : after.Agrees ((pass.effect machine k).setWord 1 (pass.nextPointer k)))
    (hknown : (pass.known machine.regions (k + 1)).Holds after) : pass.Runs (k + 1) after := by
  have hsame := sameProgram_of_agrees hafter
  refine ⟨⟨?_, hruns.fits.of_regions hsame.regions, hsame.regions ▸ hknown⟩, fun hle ↦ ?_,
    fun hle ↦ ?_, hruns.rule.of_sameProgram hsame hruns.fits.state⟩
  · rw [hafter.pointer, Machine.pointer_setPointer]
    exact if_neg (by omega)
  · rw [pass.effect_of_lt machine (by omega)] at hafter
    unfold Machine.HeadAt
    rw [hafter.headField, Machine.headField_setPointer]
    exact hruns.head (by omega)
  · rw [pass.effect_of_lt machine (by omega)] at hafter
    rw [hafter.cell, Machine.cell_setPointer]
    exact hruns.cell (by omega)

end Pass

end TapeMachine
