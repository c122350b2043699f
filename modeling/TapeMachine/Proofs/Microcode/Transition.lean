import TapeMachine.Proofs.Execution.Run
import TapeMachine.Proofs.Machine.Validation
import TapeMachine.Proofs.Microcode.Pass

/-!
# Transitions

A machine on a state takes one step into the microcode and comes out of it thirty steps later, with
the symbol written, the head moved and the instruction pointer on the next state.
`step_of_stateAt` is the first of these steps, and `transition` all of them. Every machine on the
way is in the microcode and not halted. The first step needs no more than an entry stored as a state
(`step_enters`), and the others no more of it than a rule for the symbol under the head (`HasRule`).
-/

set_option autoImplicit false

namespace TapeMachine

attribute [local irreducible] Buffer.setWord Buffer.setSlot

/-! ### The rules of a state -/

/-- A slot is a field of the word that holds it. -/
theorem Buffer.slot_eq_fieldAt (buffer : Buffer) (word : Nat) {digit : Nat} (hdigit : digit < 16) :
    buffer.slot (16 * word + digit) = StateRules.fieldAt (buffer.word word) (2 * digit) := by
  have hword : (16 * word + digit) / 16 = word := by omega
  have hmod : (16 * word + digit) % 16 = digit := by omega
  have hslot := buffer.toNat_slot_eq_word (16 * word + digit)
  rw [hword, hmod] at hslot
  have hpow : 2 ^ (2 * digit) = 4 ^ digit := by rw [Nat.pow_mul]
  rw [StateRules.fieldAt, Nat.shiftRight_eq_div_pow, hpow, ← hslot, UInt8.ofNat_toNat]

namespace Machine

variable {machine : Machine}

/-- Whether the entry at an offset is stored as a state with a rule for a symbol. Its fields for the
other symbols may stand for nothing. -/
structure HasRule (machine : Machine) (offset : Offset) (index : Nat) (read : Symbol)
    (rule : Rule Offset) : Prop where
  entryAt : machine.entryAt offset = .ok index
  opcode : (machine.entryWords index).opcode = Opcode.transition.code
  write : StateRules.fieldAt (machine.entryWords index).first (2 * read.code.toNat) =
    rule.write.code
  move : StateRules.fieldAt (machine.entryWords index).first (8 + 2 * read.code.toNat) =
    rule.move.code
  next : StateRules.nextWord (machine.entryWords index) read = rule.next

/-- A state has a rule for every symbol. -/
theorem StateAt.hasRule {offset : Offset} {rules : StateRules}
    (hstate : machine.StateAt offset rules) (read : Symbol) :
    ∃ index, machine.HasRule offset index read (rules.get read) := by
  obtain ⟨index, hindex, hentry⟩ := hstate
  unfold Machine.entry at hentry
  rw [if_pos (entryAt_eq_ok_iff.mp hindex).2, Entry.decode_eq_ok_state_iff] at hentry
  obtain ⟨hwrite, hmove, hnext⟩ := hentry.2 read
  exact ⟨index, hindex, hentry.1, hwrite, hmove, hnext⟩

/-- The fields of the entry at an offset follow its opcode word. -/
theorem slot_of_entryAt (haddressable : machine.Addressable) {offset : Offset} {index : Nat}
    (hentry : machine.entryAt offset = .ok index) {digit : Nat} (hdigit : digit < 16) :
    machine.buffer.slot (offset.toNat / 2 + 16 + digit) =
      StateRules.fieldAt (machine.entryWords index).first (2 * digit) := by
  obtain ⟨hoffset, hlt⟩ := entryAt_eq_ok_iff.mp hentry
  have hbase := haddressable.toNat_ofEntry hlt
  have hslot : offset.toNat / 2 + 16 + digit =
      16 * ((Offset.ofEntry index).toNat / 32 + 1) + digit := by omega
  rw [hslot, Buffer.slot_eq_fieldAt _ _ hdigit]
  rfl

/-- The rule for a symbol is where the microcode looks for it. -/
theorem HasRule.ruleAt {offset : Offset} {index : Nat} {read : Symbol} {rule : Rule Offset}
    (haddressable : machine.Addressable) (hrule : machine.HasRule offset index read rule) :
    Pass.RuleAt machine offset read rule := by
  obtain ⟨hentry, -, hwrite, hmove, hnext⟩ := hrule
  have hread := read.code_toNat_lt
  refine ⟨?_, ?_, ?_⟩
  · rw [slot_of_entryAt haddressable hentry (by omega), hwrite]
  · rw [show offset.toNat / 2 + 20 + read.code.toNat =
      offset.toNat / 2 + 16 + (4 + read.code.toNat) by omega,
      slot_of_entryAt haddressable hentry (by omega), Nat.mul_add, hmove]
  · rw [← hnext, ← ofEntry_of_entryAt hentry]
    cases read with
    | zero => rfl
    | one => rfl
    | blank => rfl

/-- The rules of a state are where the microcode looks for them. -/
theorem StateAt.ruleAt {offset : Offset} {rules : StateRules} (haddressable : machine.Addressable)
    (hstate : machine.StateAt offset rules) (read : Symbol) :
    Pass.RuleAt machine offset read (rules.get read) := by
  obtain ⟨index, hrule⟩ := hstate.hasRule read
  exact hrule.ruleAt haddressable

/-! ### Into the microcode -/

/-- The words of a state begin with its opcode. -/
theorem StateAt.opcode_word {offset : Offset} {rules : StateRules} {index : Nat}
    (hindex : machine.entryAt offset = .ok index)
    (hentry : machine.entry index = .ok (.state rules)) :
    machine.buffer.word ((Offset.ofEntry index).toNat / 32) = Opcode.transition.code := by
  unfold Machine.entry at hentry
  rw [if_pos (entryAt_eq_ok_iff.mp hindex).2, Entry.decode_eq_ok_state_iff] at hentry
  exact hentry.1

theorem register_entered (machine : Machine) :
    machine.entered.register .activeState = machine.pointer.toInt32 := by
  rw [entered, register_setWord, register_setRegisters]
  · rfl
  · exact Regions.outsideRegisters_one _

/-- A machine that was handed the entry at its pointer is about to begin a pass. -/
theorem poised_of_entered {after : Machine}
    (hafter : after.Agrees (machine.setWord 1 (Offset.ofEntry Offset.firstMicrocodeEntry)))
    (hactive : after.register .activeState = machine.pointer.toInt32) {index : Nat}
    (hentry : machine.entryAt machine.pointer = .ok index) {position : Nat}
    (hhead : machine.head = .ok position) (symbol : Symbol) (rule : Rule Offset) :
    (⟨machine.pointer, position, symbol, rule⟩ : Pass).Poised 0 after := by
  refine ⟨?_, ⟨?_, ?_⟩, ?_⟩
  · rw [hafter.pointer, pointer_setPointer]
    rfl
  · rw [hafter.regions]
    exact ⟨index, (entryAt_eq_ok_iff.mp hentry).symm⟩
  · rw [hafter.cellCount]
    exact (head_eq_ok_iff.mp hhead).2
  · intro register value hregister
    change List.lookup register [(Register.activeState, (machine.pointer.toNat : Int))] = some value
      at hregister
    rw [List.lookup_cons] at hregister
    by_cases hsame : register = Register.activeState
    · rw [hsame, beq_self_eq_true] at hregister
      cases hregister
      rw [hsame, hactive, toInt32_eq_ofInt]
    · rw [beq_false_of_ne hsame] at hregister
      cases hregister

/-- A machine that was handed an entry with a rule for the symbol under the head begins a pass. -/
theorem HasRule.runs_of_entered {after : Machine}
    (hafter : after.Agrees (machine.setWord 1 (Offset.ofEntry Offset.firstMicrocodeEntry)))
    (hactive : after.register .activeState = machine.pointer.toInt32) {index : Nat}
    {symbol : Symbol} {rule : Rule Offset} (haddressable : machine.Addressable)
    (hrule : machine.HasRule machine.pointer index symbol rule) {position : Nat}
    (hhead : machine.head = .ok position) (hcell : machine.cell position = .ok symbol) :
    (⟨machine.pointer, position, symbol, rule⟩ : Pass).Runs 0 after := by
  refine ⟨poised_of_entered hafter hactive hrule.entryAt hhead symbol rule, fun _ ↦ ?_,
    fun _ ↦ ?_, ?_⟩
  · unfold HeadAt
    rw [hafter.headField, headField_setPointer]
    exact (head_eq_ok_iff.mp hhead).1
  · rw [hafter.cell, cell_setPointer, hcell]
  · exact (hrule.ruleAt haddressable).of_sameProgram
      (hafter.sameProgram.trans (machine.sameProgram_setWord _ (Or.inl rfl)))
      ⟨index, (entryAt_eq_ok_iff.mp hrule.entryAt).symm⟩

/-- A machine on a state fails if there is no symbol under its head, and nothing changes but
registers. -/
theorem step_of_stateAt_error {rules : StateRules} (haddressable : machine.Addressable)
    (hstate : machine.StateAt machine.pointer rules) {fault : Fault}
    (hread : machine.symbolUnderHead = .error fault) :
    Action.step machine = .error fault (machine.fetchedOpcode Opcode.transition.code) := by
  obtain ⟨index, hindex, hentry⟩ := hstate
  rw [Action.step_of_state hindex (haddressable.reaches hindex (by decide))
    (StateAt.opcode_word hindex hentry)]
  unfold symbolUnderHead at hread
  cases hhead : machine.head with
  | error cause =>
    rw [hhead] at hread
    cases hread
    rfl
  | ok position =>
    rw [hhead] at hread
    change machine.cell position = .error fault at hread
    dsimp only
    rw [hread]

/-- A machine in the halt state halts if there is a symbol under its head. -/
theorem step_of_stateAt_halt {rules : StateRules} (haddressable : machine.Addressable)
    (hstate : machine.StateAt machine.pointer rules) {symbol : Symbol}
    (hread : machine.symbolUnderHead = .ok symbol) (hpointer : machine.pointer = Offset.halt) :
    Action.step machine = .ok .halted (machine.fetchedOpcode Opcode.transition.code) := by
  obtain ⟨index, hindex, hentry⟩ := hstate
  obtain ⟨position, hhead, hcell⟩ := symbolUnderHead_eq_ok_iff.mp hread
  rw [Action.step_of_state hindex (haddressable.reaches hindex (by decide))
    (StateAt.opcode_word hindex hentry), hhead]
  dsimp only
  rw [hcell]
  dsimp only
  rw [if_pos hpointer]

/-- The step of a machine on an entry stored as a state, with the head on a symbol: the state is
handed over, and nothing changes but registers and the instruction pointer. -/
theorem step_enters (haddressable : machine.Addressable) {index : Nat}
    (hentry : machine.entryAt machine.pointer = .ok index)
    (hopcode : (machine.entryWords index).opcode = Opcode.transition.code) {position : Nat}
    (hhead : machine.head = .ok position) {symbol : Symbol}
    (hcell : machine.cell position = .ok symbol) (hpointer : machine.pointer ≠ Offset.halt) :
    ∃ after,
      Action.step machine =
        .ok (.transition
          { state := machine.pointer.state?, symbol := symbol, position := position }) after ∧
      after.Agrees (machine.setWord 1 (Offset.ofEntry Offset.firstMicrocodeEntry)) ∧
      after.register .activeState = machine.pointer.toInt32 := by
  have hfetched := machine.fetchedOpcode_agrees Opcode.transition.code
  refine ⟨(machine.fetchedOpcode Opcode.transition.code).entered, ?_, ?_, ?_⟩
  · rw [Action.step_of_state hentry (haddressable.reaches hentry (by decide)) hopcode, hhead]
    dsimp only
    rw [hcell]
    dsimp only
    rw [if_neg hpointer]
  · exact (entered_agrees _).trans (hfetched.setWord (one_lt_wordCount _) _)
  · rw [register_entered, hfetched.pointer]

/-- The step of a machine on an entry with a rule for the symbol under the head. -/
theorem step_of_hasRule {index : Nat} {symbol : Symbol} {rule : Rule Offset}
    (haddressable : machine.Addressable) (hrule : machine.HasRule machine.pointer index symbol rule)
    {position : Nat} (hhead : machine.head = .ok position)
    (hcell : machine.cell position = .ok symbol) (hpointer : machine.pointer ≠ Offset.halt) :
    ∃ after,
      Action.step machine =
        .ok (.transition
          { state := machine.pointer.state?, symbol := symbol, position := position }) after ∧
      after.Agrees (machine.setWord 1 (Offset.ofEntry Offset.firstMicrocodeEntry)) ∧
      (⟨machine.pointer, position, symbol, rule⟩ : Pass).Runs 0 after := by
  obtain ⟨after, hstep, hafter, hactive⟩ :=
    step_enters haddressable hrule.entryAt hrule.opcode hhead hcell hpointer
  exact ⟨after, hstep, hafter, hrule.runs_of_entered hafter hactive haddressable hhead hcell⟩

/-- The step of a machine on a state, with the head on a symbol. -/
theorem step_of_stateAt {rules : StateRules} (haddressable : machine.Addressable)
    (hstate : machine.StateAt machine.pointer rules) {position : Nat}
    (hhead : machine.head = .ok position) {symbol : Symbol}
    (hcell : machine.cell position = .ok symbol) (hpointer : machine.pointer ≠ Offset.halt) :
    ∃ after,
      Action.step machine =
        .ok (.transition
          { state := machine.pointer.state?, symbol := symbol, position := position }) after ∧
      after.Agrees (machine.setWord 1 (Offset.ofEntry Offset.firstMicrocodeEntry)) ∧
      (⟨machine.pointer, position, symbol, rules.get symbol⟩ : Pass).Runs 0 after := by
  obtain ⟨index, hrule⟩ := hstate.hasRule symbol
  exact step_of_hasRule haddressable hrule hhead hcell hpointer

/-- A machine on a state is halted in the halt state only. -/
theorem isHalted_of_stateAt {rules : StateRules} (hstate : machine.StateAt machine.pointer rules) :
    machine.isHalted = .ok (decide (machine.pointer = Offset.halt)) := by
  obtain ⟨index, hindex, hentry⟩ := hstate
  unfold isHalted
  rw [currentEntry_eq_ok_iff.mpr ⟨index, hindex, hentry⟩]
  simp [Except.map, Entry.opcode]

/-- A machine on an instruction is halted if the instruction is `Halt`. -/
theorem isHalted_of_instruction {instruction : Instruction}
    (hcurrent : machine.currentEntry = .ok (.instruction instruction)) :
    machine.isHalted = .ok (decide (instruction.opcode = .halt)) := by
  obtain ⟨index, -, hinstruction⟩ := currentEntry_eq_ok_iff.mp hcurrent
  have hopcode := (Action.entryWords_of_entry hinstruction).2
  rw [isHalted, hcurrent]
  change Except.ok (decide (instruction.opcode = .halt) ||
    (decide (instruction.opcode = .transition) && decide (machine.pointer = Offset.halt))) = _
  rw [decide_eq_false hopcode, Bool.false_and, Bool.or_false]

/-- A machine on a state counts as halted in the halt state only, and then the head is checked. -/
theorem haltsNow_of_stateAt {rules : StateRules} (hstate : machine.StateAt machine.pointer rules) :
    machine.haltsNow =
      if machine.pointer = Offset.halt then machine.head.map fun _ ↦ true else .ok false := by
  unfold haltsNow
  rw [isHalted_of_stateAt hstate]
  by_cases hpointer : machine.pointer = Offset.halt
  · cases machine.head with
    | error fault => simp [bind, Except.bind, hpointer, Except.map]
    | ok position => simp [bind, Except.bind, hpointer, Except.map, pure, Except.pure]
  · simp [bind, Except.bind, hpointer, pure, Except.pure]

/-! ### Through the microcode -/

/-- A machine in a pass is not halted. -/
theorem haltsNow_of_runs {pass : Pass} {k : Nat} (hprogram : machine.Microprogrammed)
    (hruns : pass.Runs k machine) {instruction : Instruction}
    (hinstruction : Microcode.program[k]? = some instruction) :
    machine.haltsNow = .ok false := by
  have hhalt := (Microcode.opcode_of_mem (List.mem_of_getElem? hinstruction)).1
  have hcurrent : machine.currentEntry = .ok (.instruction instruction) := by
    unfold currentEntry
    rw [hruns.pointer, hprogram.addressable.entryAt_ofEntry (hprogram.lt_entries hinstruction)]
    exact hprogram.microcode k instruction hinstruction
  unfold haltsNow
  rw [isHalted_of_instruction hcurrent, decide_eq_false hhalt]
  rfl

end Machine

namespace Pass

variable {pass : Pass} {start machine : Machine} {k : Nat}

/-- What a pass has done to the machine it started on once a number of instructions were
performed. -/
structure Progress (pass : Pass) (start : Machine) (k : Nat) (machine : Machine) : Prop where
  sameProgram : machine.SameProgram start
  headField : machine.headField = if 29 ≤ k then pass.newHeadField else start.headField
  cell : ∀ position, machine.cell position =
    if 28 ≤ k ∧ position = pass.position then .ok pass.rule.write else start.cell position

/-- The new head field names the position that the move leads to, also if it is off the tape. -/
theorem toNat_newHeadField (haddressable : machine.Addressable)
    (hposition : pass.position < machine.cellCount) :
    (pass.newHeadField.toNat : Int) = 64 + 2 * (pass.position + pass.rule.move.delta) := by
  have hcount := haddressable.cellCount_lt
  have hmove := pass.rule.move.code_toNat_lt
  rw [newHeadField, UInt32.toNat_ofNat', HeadMove.delta_eq_code_sub_one]
  omega

theorem headField_effect (pass : Pass) (machine : Machine) (k : Nat) :
    (pass.effect machine k).headField =
      if k = 28 then pass.newHeadField else machine.headField := by
  unfold effect
  split
  · rw [if_neg (by decide), machine.headField_setCell]
  · rw [if_pos rfl, machine.headField_setHeadField]
  · next hne => rw [if_neg hne]

theorem cell_effect (hfits : pass.Fits machine) (k position : Nat) :
    (pass.effect machine k).cell position =
      if k = 27 ∧ position = pass.position then .ok pass.rule.write
      else machine.cell position := by
  unfold effect
  split
  · simp only [machine.cell_setCell hfits.position, true_and]
  · rw [if_neg (by simp), machine.cell_setWord _ (Nat.le_refl _)]
  · next hne _ => rw [if_neg fun h ↦ hne h.1]

/-- A machine that has just entered the microcode is as it was but for the instruction pointer. -/
theorem Progress.of_entered {next : Offset} (hmachine : machine.Agrees (start.setWord 1 next)) :
    pass.Progress start 0 machine := by
  refine ⟨?_, ?_, fun other ↦ ?_⟩
  · exact hmachine.sameProgram.trans (start.sameProgram_setWord _ (Or.inl rfl))
  · rw [hmachine.headField, Machine.headField_setPointer, if_neg (by decide)]
  · rw [hmachine.cell, Machine.cell_setPointer, if_neg (by simp)]

/-- Each instruction of a pass adds its effect to what the pass has done. -/
theorem Progress.succ (hprogress : pass.Progress start k machine) (hfits : pass.Fits machine)
    {after : Machine}
    (hafter : after.Agrees ((pass.effect machine k).setWord 1 (pass.nextPointer k))) :
    pass.Progress start (k + 1) after := by
  refine ⟨(sameProgram_of_agrees hafter).trans hprogress.sameProgram, ?_, fun position ↦ ?_⟩
  · rw [hafter.headField, Machine.headField_setPointer, headField_effect, hprogress.headField]
    by_cases hk : k = 28
    · rw [if_pos hk, if_pos (by omega)]
    · by_cases hle : 29 ≤ k
      · rw [if_neg hk, if_pos hle, if_pos (by omega)]
      · rw [if_neg hk, if_neg hle, if_neg (by omega)]
  · rw [hafter.cell, Machine.cell_setPointer, cell_effect hfits, hprogress.cell]
    by_cases hposition : position = pass.position
    · by_cases hk : k = 27
      · rw [if_pos ⟨hk, hposition⟩, if_pos ⟨by omega, hposition⟩]
      · by_cases hle : 28 ≤ k
        · rw [if_neg (by omega), if_pos ⟨hle, hposition⟩, if_pos ⟨by omega, hposition⟩]
        · rw [if_neg (by omega), if_neg (by omega), if_neg (by omega)]
    · rw [if_neg (by omega), if_neg (by omega), if_neg (by omega)]

/-- An instruction of a pass is a step of a machine that is not halted. -/
theorem Runs.step_progress (hprogram : start.Microprogrammed) (hruns : pass.Runs k machine)
    (hk : k < 30) (hprogress : pass.Progress start k machine) :
    ∃ after, machine.haltsNow = .ok false ∧
      Action.step machine = .ok (.executed (Microcode.program.get ⟨k, hk⟩).opcode) after ∧
      after.Agrees ((pass.effect machine k).setWord 1 (pass.nextPointer k)) ∧
      (pass.known machine.regions (k + 1)).Holds after ∧ pass.Progress start (k + 1) after := by
  have hinstruction : Microcode.program[k]? = some (Microcode.program.get ⟨k, hk⟩) :=
    List.getElem?_eq_getElem hk
  have hmachine := hprogress.sameProgram.symm.microprogrammed hprogram
  obtain ⟨after, hstep, hafter, hknown⟩ := step hmachine hruns hinstruction
  exact ⟨after, Machine.haltsNow_of_runs hmachine hruns hinstruction, hstep, hafter, hknown,
    hprogress.succ hruns.fits hafter⟩

/-- The instructions of a pass that are left run to its end. -/
theorem Runs.executes (hprogram : start.Microprogrammed) {remaining : Nat} :
    ∀ {k : Nat} {machine : Machine}, k + remaining = 29 → pass.Runs k machine →
      pass.Progress start k machine →
      ∃ last, Machine.Executes (remaining + 1) machine last ∧ pass.Progress start 30 last ∧
        last.pointer = pass.rule.next := by
  induction remaining with
  | zero =>
    rintro k machine rfl hruns hprogress
    obtain ⟨after, hrunning, hstep, hafter, -, hdone⟩ :=
      hruns.step_progress hprogram (by decide) hprogress
    refine ⟨after, .step hrunning hstep (.done after), hdone, ?_⟩
    rw [hafter.pointer, Machine.pointer_setPointer]
    exact if_pos rfl
  | succ remaining ih =>
    intro k machine hk hruns hprogress
    obtain ⟨after, hrunning, hstep, hafter, hknown, hnext⟩ :=
      hruns.step_progress hprogram (by omega) hprogress
    obtain ⟨last, hexecutes, hdone, hpointer⟩ :=
      ih (by omega) (hruns.succ (by omega) hafter hknown) hnext
    exact ⟨last, .step hrunning hstep hexecutes, hdone, hpointer⟩

/-- A run that ends in the middle of a pass leaves what the pass has done so far. -/
theorem Runs.progress_of_runFrom (hprogram : start.Microprogrammed) {budget : Nat}
    (hbudget : k + budget < 30) (hruns : pass.Runs k machine)
    (hprogress : pass.Progress start k machine) (steps transitions : Nat) :
    pass.Progress start (k + budget)
      (Machine.runFrom Machine.silent budget steps transitions machine ()).machine := by
  induction budget generalizing k machine steps with
  | zero => exact hprogress
  | succ budget ih =>
    obtain ⟨after, -, hstep, hafter, hknown, hnext⟩ :=
      hruns.step_progress hprogram (by omega) hprogress
    rw [Machine.runFrom_of_executed Machine.silent budget steps transitions () hstep,
      Nat.add_left_comm, Nat.add_comm budget]
    exact ih (by omega) (hruns.succ (by omega) hafter hknown) hnext (steps + 1)

end Pass

/-- What a transition does: the symbol under the head is replaced, the head moves and the
instruction pointer goes on to the next state. -/
structure Machine.Moved (machine : Machine) (position : Nat) (rule : Rule Offset) (last : Machine) :
    Prop where
  sameProgram : last.SameProgram machine
  pointer : last.pointer = rule.next
  headAt : last.HeadAt (position + rule.move.delta)
  cell : ∀ other, last.cell other =
    if other = position then .ok rule.write else machine.cell other

/-- A pass that is done has made its transition. -/
theorem Pass.Progress.moved {pass : Pass} {start last : Machine} (haddressable : start.Addressable)
    (hposition : pass.position < start.cellCount) (hdone : pass.Progress start 30 last)
    (hpointer : last.pointer = pass.rule.next) : start.Moved pass.position pass.rule last := by
  refine ⟨hdone.sameProgram, hpointer, ?_, fun other ↦ ?_⟩
  · unfold Machine.HeadAt
    rw [hdone.headField, if_pos (by decide)]
    exact Pass.toNat_newHeadField haddressable hposition
  · rw [hdone.cell]
    simp only [show 28 ≤ 30 from by decide, true_and]

/-- The first step of a transition begins a pass. -/
theorem Machine.step_begins_pass {machine : Machine} {rules : StateRules}
    (hprogram : machine.Microprogrammed) (hstate : machine.StateAt machine.pointer rules)
    {position : Nat} (hhead : machine.head = .ok position) {symbol : Symbol}
    (hcell : machine.cell position = .ok symbol) (hpointer : machine.pointer ≠ Offset.halt) :
    ∃ reading entered, Action.step machine = .ok (.transition reading) entered ∧
      Pass.Runs ⟨machine.pointer, position, symbol, rules.get symbol⟩ 0 entered ∧
      Pass.Progress ⟨machine.pointer, position, symbol, rules.get symbol⟩ machine 0 entered := by
  obtain ⟨entered, hstep, hentered, hruns⟩ :=
    step_of_stateAt hprogram.addressable hstate hhead hcell hpointer
  exact ⟨_, entered, hstep, hruns, Pass.Progress.of_entered hentered⟩

/-- A transition is one step into the microcode and thirty through it. -/
theorem Machine.transition {machine : Machine} {rules : StateRules}
    (hprogram : machine.Microprogrammed) (hstate : machine.StateAt machine.pointer rules)
    {position : Nat} (hhead : machine.head = .ok position) {symbol : Symbol}
    (hcell : machine.cell position = .ok symbol) (hpointer : machine.pointer ≠ Offset.halt) :
    ∃ reading entered last, Action.step machine = .ok (.transition reading) entered ∧
      Executes 30 entered last ∧ machine.Moved position (rules.get symbol) last := by
  obtain ⟨reading, entered, hstep, hruns, hstart⟩ :=
    step_begins_pass hprogram hstate hhead hcell hpointer
  obtain ⟨last, hexecutes, hdone, hlast⟩ := hruns.executes hprogram (Nat.zero_add 29) hstart
  exact ⟨reading, entered, last, hstep, hexecutes,
    hdone.moved hprogram.addressable (head_eq_ok_iff.mp hhead).2 hlast⟩

/-! ### Between two transitions -/

/-- Whether a machine runs a transition table: it has the microcode, and the rules of every state
go on with a state. -/
structure Machine.Tabled (machine : Machine) : Prop where
  program : machine.Microprogrammed
  closed : machine.Closed

theorem Machine.SameProgram.tabled {machine other : Machine} (h : machine.SameProgram other)
    (htabled : machine.Tabled) : other.Tabled :=
  ⟨h.microprogrammed htabled.program, htabled.closed.of_sameProgram h htabled.program.addressable⟩

theorem Machine.tabled_of_validate {machine : Machine} (hprogram : machine.Microprogrammed)
    (hvalid : machine.validate = .ok ()) : machine.Tabled := by
  obtain ⟨entries, hentries, hstray, -⟩ := of_validate_eq_ok hvalid
  exact ⟨hprogram, closed_of_strayNext hentries hstray⟩

namespace Pass

/-- Whether a machine is in the middle of a pass that works on one of its states. -/
structure Ongoing (pass : Pass) (k : Nat) (machine : Machine) : Prop where
  lt : k < 30
  runs : pass.Runs k machine
  state : ∃ rules, machine.StateAt pass.state rules

variable {pass : Pass} {machine : Machine} {k : Nat}

/-- A pass goes on with its next instruction, and after the last with a state. -/
theorem Ongoing.step (htabled : machine.Tabled) (hongoing : pass.Ongoing k machine) :
    ∃ after, Action.step machine =
        .ok (.executed (Microcode.program.get ⟨k, hongoing.lt⟩).opcode) after ∧
      after.Agrees ((pass.effect machine k).setWord 1 (pass.nextPointer k)) ∧
      (k ≠ 29 → pass.Ongoing (k + 1) after) ∧
      (k = 29 → ∃ rules, after.StateAt after.pointer rules) := by
  obtain ⟨hk, hruns, rules, hstate⟩ := hongoing
  have haddressable := htabled.program.addressable
  obtain ⟨after, hstep, hafter, hknown⟩ :=
    Pass.step htabled.program hruns (List.getElem?_eq_getElem hk)
  have hsame := (sameProgram_of_agrees hafter).symm
  refine ⟨after, hstep, hafter, fun hgoing ↦ ?_, fun hlast ↦ ?_⟩
  · exact ⟨by omega, hruns.succ (by omega) hafter hknown, rules,
      hstate.of_sameProgram hsame haddressable⟩
  · obtain ⟨next, hnext⟩ := htabled.closed _ rules hstate pass.read
    have hrule : (rules.get pass.read).next = pass.rule.next := by
      rw [← hruns.rule.next, ← (hstate.ruleAt haddressable pass.read).next]
    refine ⟨next, ?_⟩
    rw [hafter.pointer, Machine.pointer_setPointer, nextPointer, if_pos hlast, ← hrule]
    exact hnext.of_sameProgram hsame haddressable

/-- An instruction of a pass does the same to machines that agree. -/
theorem agrees_effect (pass : Pass) {other : Machine} (hagrees : machine.Agrees other) (k : Nat) :
    (pass.effect machine k).Agrees (pass.effect other k) := by
  unfold effect
  split
  · unfold Machine.setCell
    rw [hagrees.regions]
    exact hagrees.setSlot _ _
  · rw [← hagrees.regions]
    exact hagrees.setWord machine.headWord_lt_wordCount _
  · exact hagrees

end Pass

end TapeMachine
