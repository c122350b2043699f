import TapeMachine.Proofs.Microcode.Transition

/-!
# The end of a run, announced and real

A run whose budget is used up asks the machine whether it is halted; a run with budget left takes a
step and sees. `verdictNow` and `verdictNext` are the two answers. They come about differently: the
first decodes the whole entry at the instruction pointer and then checks the head, the second reads
an opcode through registers and then looks at the head and the cell under it. `Flawed` names the
machines on which the first is not borne out by the second, one constructor for each cause:
`Flawed.differs` and `flawed_of_differs` say that there are no others.
-/

set_option autoImplicit false

namespace TapeMachine

attribute [local irreducible] Buffer.setWord Buffer.setSlot Action.step Machine.haltsNow

namespace Machine

variable {machine : Machine}

/-- What a run makes of a machine once its budget is used up: it has halted, it fails, or
nothing. -/
def verdictNow (machine : Machine) : Option (Except Fault Unit) :=
  match machine.haltsNow with
  | .ok true => some (.ok ())
  | .ok false => none
  | .error fault => some (.error fault)

/-- What a run makes of a machine by its next step: it has halted, it fails, or it goes on. -/
def verdictNext (machine : Machine) : Option (Except Fault Unit) :=
  match Action.step machine with
  | .ok .halted _ => some (.ok ())
  | .ok _ _ => none
  | .error fault _ => some (.error fault)

theorem verdictNext_of_error {fault : Fault} {after : Machine}
    (hstep : Action.step machine = .error fault after) :
    machine.verdictNext = some (.error fault) := by
  rw [verdictNext, hstep]

/-! ### What the instruction pointer is on -/

/-- What the instruction pointer can be on: no entry, an entry without an opcode, a state without
rules, a state, or an instruction. -/
inductive Current (machine : Machine) : Prop where
  | nowhere {fault : Fault} (hentry : machine.entryAt machine.pointer = .error fault)
  | unknown {index : Nat} (hentry : machine.entryAt machine.pointer = .ok index)
    (hcode : Opcode.ofCode? (machine.entryWords index).opcode = none)
  | undecodable {index : Nat} {fault : Fault}
    (hentry : machine.entryAt machine.pointer = .ok index)
    (hcode : (machine.entryWords index).opcode = Opcode.transition.code)
    (hrules : machine.entry index = .error fault)
  | state {rules : StateRules} (hstate : machine.StateAt machine.pointer rules)
  | instruction {index : Nat} {instruction : Instruction}
    (hentry : machine.entryAt machine.pointer = .ok index)
    (hinstruction : machine.entry index = .ok (.instruction instruction))

theorem entry_eq_decode {index : Nat} (hentry : machine.entryAt machine.pointer = .ok index) :
    machine.entry index = Entry.decode (machine.entryWords index) machine.pointer := by
  rw [Machine.entry, if_pos (entryAt_eq_ok_iff.mp hentry).2, ofEntry_of_entryAt hentry]

theorem current (machine : Machine) : machine.Current := by
  cases hentry : machine.entryAt machine.pointer with
  | error fault => exact .nowhere hentry
  | ok index =>
    cases hdecode : machine.entry index with
    | ok entry =>
      cases entry with
      | instruction content => exact .instruction hentry hdecode
      | state rules => exact .state ⟨index, hentry, hdecode⟩
    | error fault =>
      rw [entry_eq_decode hentry] at hdecode
      rcases Entry.decode_eq_error_cases hdecode with ⟨hcode, -⟩ | ⟨hcode, -⟩
      · exact .unknown hentry hcode
      · exact .undecodable hentry hcode ((entry_eq_decode hentry).trans hdecode)

theorem entry_of_unknown {index : Nat} (hentry : machine.entryAt machine.pointer = .ok index)
    (hcode : Opcode.ofCode? (machine.entryWords index).opcode = none) :
    machine.entry index =
      .error (.unknownOpcode machine.pointer (machine.entryWords index).opcode) := by
  rw [entry_eq_decode hentry, Entry.decode, hcode]

/-! ### Announced verdicts -/

theorem verdictNow_of_error {fault : Fault} (hcurrent : machine.currentEntry = .error fault) :
    machine.verdictNow = some (.error fault) := by
  unfold verdictNow haltsNow isHalted
  rw [hcurrent]
  rfl

theorem verdictNow_of_not_entry {fault : Fault}
    (hentry : machine.entryAt machine.pointer = .error fault) :
    machine.verdictNow = some (.error fault) := by
  refine verdictNow_of_error ?_
  rw [currentEntry, hentry]
  rfl

theorem verdictNow_of_entry_error {index : Nat} {fault : Fault}
    (hentry : machine.entryAt machine.pointer = .ok index)
    (herror : machine.entry index = .error fault) : machine.verdictNow = some (.error fault) := by
  refine verdictNow_of_error ?_
  rw [currentEntry, hentry]
  exact herror

theorem verdictNow_of_stateAt {rules : StateRules}
    (hstate : machine.StateAt machine.pointer rules) :
    machine.verdictNow =
      if machine.pointer = Offset.halt then some (machine.head.map fun _ ↦ ()) else none := by
  rw [verdictNow, haltsNow_of_stateAt hstate]
  by_cases hpointer : machine.pointer = Offset.halt
  · rw [if_pos hpointer, if_pos hpointer]
    cases machine.head with
    | error fault => rfl
    | ok position => rfl
  · rw [if_neg hpointer, if_neg hpointer]

/-- An instruction ends a run if it is `Halt`. In the place of the halt state the head is checked as
for the halt state. -/
theorem verdictNow_of_instruction {index : Nat} {instruction : Instruction}
    (hentry : machine.entryAt machine.pointer = .ok index)
    (hinstruction : machine.entry index = .ok (.instruction instruction)) :
    machine.verdictNow =
      if instruction.opcode = .halt then
        some (if machine.pointer = Offset.halt then machine.head.map fun _ ↦ () else .ok ())
      else none := by
  have hcurrent := currentEntry_eq_ok_iff.mpr ⟨index, hentry, hinstruction⟩
  unfold verdictNow haltsNow
  rw [isHalted_of_instruction hcurrent]
  by_cases hhalt : instruction.opcode = .halt
  · rw [if_pos hhalt]
    by_cases hpointer : machine.pointer = Offset.halt
    · cases machine.head with
      | error fault => simp [bind, Except.bind, hhalt, hpointer, Except.map]
      | ok position => simp [bind, Except.bind, hhalt, hpointer, Except.map, pure, Except.pure]
    · simp [bind, Except.bind, hhalt, hpointer, pure, Except.pure]
  · simp [bind, Except.bind, hhalt, pure, Except.pure]

/-! ### Verdicts of the next step -/

/-- The step of a machine on a state fails if there is no symbol under the head, whatever the rules
of the state are. -/
theorem verdictNext_of_state {index : Nat} (hentry : machine.entryAt machine.pointer = .ok index)
    (hreach : machine.Reaches 0)
    (hcode : (machine.entryWords index).opcode = Opcode.transition.code) :
    machine.verdictNext =
      match machine.symbolUnderHead with
      | .error fault => some (.error fault)
      | .ok _ => if machine.pointer = Offset.halt then some (.ok ()) else none := by
  unfold verdictNext symbolUnderHead
  rw [Action.step_of_state hentry hreach hcode]
  cases machine.head with
  | error fault => rfl
  | ok position =>
    dsimp only [bind, Except.bind]
    cases machine.cell position with
    | error fault => rfl
    | ok symbol =>
      dsimp only
      by_cases hpointer : machine.pointer = Offset.halt
      · rw [if_pos hpointer, if_pos hpointer]
      · rw [if_neg hpointer, if_neg hpointer]

theorem verdictNext_of_halt {index : Nat} {instruction : Instruction}
    (hentry : machine.entryAt machine.pointer = .ok index) (hreach : machine.Reaches 4)
    (hinstruction : machine.entry index = .ok (.instruction instruction))
    (hhalt : instruction.opcode = .halt) : machine.verdictNext = some (.ok ()) := by
  rw [verdictNext, Action.step_of_instruction hentry hreach hinstruction, Action.perform, hhalt]
  rfl

theorem reaches_of_pointer_eq_halt (hpointer : machine.pointer = Offset.halt) :
    machine.Reaches 4 := by
  unfold Reaches
  rw [hpointer]
  decide

/-- In the halt state the next step looks at the cell under the head, and not only at the head. -/
theorem verdictNext_of_stateAt_halt {rules : StateRules}
    (hstate : machine.StateAt machine.pointer rules) (hpointer : machine.pointer = Offset.halt) :
    machine.verdictNext = some (machine.symbolUnderHead.map fun _ ↦ ()) := by
  obtain ⟨index, hentry, hrules⟩ := hstate
  have hreach : machine.Reaches 0 := (reaches_of_pointer_eq_halt hpointer).mono (Nat.zero_le 4)
  rw [verdictNext_of_state hentry hreach (StateAt.opcode_word hentry hrules)]
  cases machine.symbolUnderHead with
  | error fault => rfl
  | ok symbol => exact if_pos hpointer

/-! ### Where the verdicts differ -/

/-- The machines on which a used-up budget announces an end that the next step does not bear out. -/
inductive Flawed (machine : Machine) : Prop where
  /-- A state whose rules cannot be decoded is refused at once, and a step does not look at them. -/
  | rules {index : Nat} {fault : Fault} (hentry : machine.entryAt machine.pointer = .ok index)
    (hcode : (machine.entryWords index).opcode = Opcode.transition.code)
    (hrules : machine.entry index = .error fault)
  /-- The halt state with the head on a cell without a symbol counts as halted, and a step fails. -/
  | cell {rules : StateRules} {position : Nat} {fault : Fault}
    (hstate : machine.StateAt machine.pointer rules) (hpointer : machine.pointer = Offset.halt)
    (hhead : machine.head = .ok position) (hcell : machine.cell position = .error fault)
  /-- A `Halt` instruction in the place of the halt state is refused for its head, and a step does
  not look at the head. -/
  | head {index : Nat} {instruction : Instruction} {fault : Fault}
    (hentry : machine.entryAt machine.pointer = .ok index)
    (hinstruction : machine.entry index = .ok (.instruction instruction))
    (hhalt : instruction.opcode = .halt) (hpointer : machine.pointer = Offset.halt)
    (hhead : machine.head = .error fault)
  /-- A `Halt` instruction counts as halted also where a step cannot fetch it. -/
  | halt {index : Nat} {instruction : Instruction}
    (hentry : machine.entryAt machine.pointer = .ok index)
    (hinstruction : machine.entry index = .ok (.instruction instruction))
    (hhalt : instruction.opcode = .halt) (hbeyond : ¬ machine.Reaches 4)
  /-- An entry without an opcode is refused for that, and a step does not get as far. -/
  | code {index : Nat} (hentry : machine.entryAt machine.pointer = .ok index)
    (hcode : Opcode.ofCode? (machine.entryWords index).opcode = none)
    (hbeyond : ¬ machine.Reaches 0)

/-- The tape does not overlap the entry at the instruction pointer, and so a fault of the one is
none of the other. -/
private theorem not_isFieldFault_of_symbolUnderHead {index : Nat} {fault : Fault}
    (hentry : machine.entryAt machine.pointer = .ok index)
    (hread : machine.symbolUnderHead = .error fault) :
    ¬ StateRules.IsFieldFault machine.pointer fault := by
  obtain ⟨hpointer, hindex⟩ := entryAt_eq_ok_iff.mp hentry
  rintro (⟨shift, hshift, value, rfl⟩ | ⟨code, rfl⟩)
  · rcases symbolUnderHead_eq_error_cases hread with ⟨_, _, hcause⟩ | ⟨_, hcause⟩ |
      ⟨position, _, hcause⟩
    · cases hcause
    · cases hcause
    · obtain ⟨hoffset, -⟩ := Fault.notASymbol.inj hcause
      rw [Regions.cellSlot, Regions.tapeWord_eq, Regions.programWords] at hoffset
      omega
  · rcases symbolUnderHead_eq_error_cases hread with ⟨_, _, hcause⟩ | ⟨_, hcause⟩ | ⟨_, _, hcause⟩
    · cases hcause
    · cases hcause
    · cases hcause

/-- What is wrong with the rules of a state is not what a step finds wrong with it. -/
theorem verdictNext_ne_of_undecodable {index : Nat} {fault : Fault}
    (hentry : machine.entryAt machine.pointer = .ok index)
    (hcode : (machine.entryWords index).opcode = Opcode.transition.code)
    (hrules : machine.entry index = .error fault) :
    machine.verdictNext ≠ some (.error fault) := by
  have hfield : StateRules.IsFieldFault machine.pointer fault := by
    rw [entry_eq_decode hentry] at hrules
    rcases Entry.decode_eq_error_cases hrules with ⟨hunknown, -⟩ | ⟨-, hfield⟩
    · rw [hcode, Opcode.ofCode?_code] at hunknown
      cases hunknown
    · exact hfield
  by_cases hreach : machine.Reaches 0
  · rw [verdictNext_of_state hentry hreach hcode]
    cases hread : machine.symbolUnderHead with
    | ok symbol =>
      dsimp only
      split
      · simp
      · simp
    | error cause =>
      intro heq
      cases heq
      exact not_isFieldFault_of_symbolUnderHead hentry hread hfield
  · obtain ⟨offset, bits, after, hstep⟩ := Action.step_of_not_reaches hentry hreach
    rw [verdictNext_of_error hstep]
    intro heq
    cases heq
    rcases hfield with ⟨shift, -, value, hfault⟩ | ⟨code, hfault⟩
    · cases hfault
    · cases hfault

/-- An instruction whose words registers cannot all address is not performed. -/
theorem step_fails_of_not_reaches {index : Nat} {instruction : Instruction}
    (hentry : machine.entryAt machine.pointer = .ok index)
    (hinstruction : machine.entry index = .ok (.instruction instruction))
    (hbeyond : ¬ machine.Reaches 4) : ∃ fault after, Action.step machine = .error fault after := by
  by_cases hreach : machine.Reaches 0
  · exact Action.step_of_operands_not_reached hentry hreach hbeyond hinstruction
  · obtain ⟨offset, bits, after, hstep⟩ := Action.step_of_not_reaches hentry hreach
    exact ⟨_, after, hstep⟩

theorem Flawed.differs (hflawed : machine.Flawed) :
    ∃ verdict, machine.verdictNow = some verdict ∧ machine.verdictNext ≠ some verdict := by
  cases hflawed with
  | rules hentry hcode hrules =>
    exact ⟨_, verdictNow_of_entry_error hentry hrules,
      verdictNext_ne_of_undecodable hentry hcode hrules⟩
  | cell hstate hpointer hhead hcell =>
    refine ⟨.ok (), ?_, ?_⟩
    · rw [verdictNow_of_stateAt hstate, if_pos hpointer, hhead]
      rfl
    · rw [verdictNext_of_stateAt_halt hstate hpointer, symbolUnderHead_of_head hhead, hcell]
      simp [Except.map]
  | @head index instruction fault hentry hinstruction hhalt hpointer hhead =>
    refine ⟨.error fault, ?_, ?_⟩
    · rw [verdictNow_of_instruction hentry hinstruction, if_pos hhalt, if_pos hpointer, hhead]
      rfl
    · rw [verdictNext_of_halt hentry (reaches_of_pointer_eq_halt hpointer) hinstruction hhalt]
      simp
  | halt hentry hinstruction hhalt hbeyond =>
    have hpointer : machine.pointer ≠ Offset.halt := fun hpointer ↦
      hbeyond (reaches_of_pointer_eq_halt hpointer)
    obtain ⟨fault, after, hstep⟩ := step_fails_of_not_reaches hentry hinstruction hbeyond
    refine ⟨.ok (), ?_, ?_⟩
    · rw [verdictNow_of_instruction hentry hinstruction, if_pos hhalt, if_neg hpointer]
    · rw [verdictNext_of_error hstep]
      simp
  | code hentry hcode hbeyond =>
    obtain ⟨offset, bits, after, hstep⟩ := Action.step_of_not_reaches hentry hbeyond
    refine ⟨_, verdictNow_of_entry_error hentry (entry_of_unknown hentry hcode), ?_⟩
    rw [verdictNext_of_error hstep]
    simp

/-- Where the verdict that a used-up budget announces is not that of the next step, the machine is
flawed. -/
theorem flawed_of_differs {verdict : Except Fault Unit} (hnow : machine.verdictNow = some verdict)
    (hnext : machine.verdictNext ≠ some verdict) : machine.Flawed := by
  cases machine.current with
  | nowhere hentry =>
    obtain ⟨after, hstep⟩ := Action.step_of_not_entry hentry
    rw [verdictNow_of_not_entry hentry, ← verdictNext_of_error hstep] at hnow
    exact absurd hnow hnext
  | unknown hentry hcode =>
    refine .code hentry hcode fun hreach ↦ hnext ?_
    rw [← hnow, verdictNow_of_entry_error hentry (entry_of_unknown hentry hcode)]
    exact verdictNext_of_error (Action.step_of_unknown hentry hreach rfl hcode)
  | undecodable hentry hcode hrules => exact .rules hentry hcode hrules
  | state hstate =>
    rw [verdictNow_of_stateAt hstate] at hnow
    by_cases hpointer : machine.pointer = Offset.halt
    · rw [if_pos hpointer] at hnow
      rw [← hnow, verdictNext_of_stateAt_halt hstate hpointer] at hnext
      cases hhead : machine.head with
      | error fault =>
        rw [symbolUnderHead_of_head_error hhead, hhead] at hnext
        exact absurd rfl hnext
      | ok position =>
        rw [symbolUnderHead_of_head hhead, hhead] at hnext
        cases hcell : machine.cell position with
        | error fault => exact .cell hstate hpointer hhead hcell
        | ok symbol =>
          rw [hcell] at hnext
          exact absurd rfl hnext
    · rw [if_neg hpointer] at hnow
      cases hnow
  | @instruction index instruction hentry hinstruction =>
    rw [verdictNow_of_instruction hentry hinstruction] at hnow
    by_cases hhalt : instruction.opcode = .halt
    · rw [if_pos hhalt] at hnow
      by_cases hreach : machine.Reaches 4
      · rw [← hnow, verdictNext_of_halt hentry hreach hinstruction hhalt] at hnext
        by_cases hpointer : machine.pointer = Offset.halt
        · rw [if_pos hpointer] at hnext
          cases hhead : machine.head with
          | error fault => exact .head hentry hinstruction hhalt hpointer hhead
          | ok position =>
            rw [hhead] at hnext
            exact absurd rfl hnext
        · rw [if_neg hpointer] at hnext
          exact absurd rfl hnext
      · exact .halt hentry hinstruction hhalt hreach
    · rw [if_neg hhalt] at hnow
      cases hnow

end Machine

end TapeMachine
