import TapeMachine.Proofs.Assembly.Source
import TapeMachine.Proofs.Execution.Writes
import TapeMachine.Proofs.Machine.Construction
import TapeMachine.Proofs.Offset

/-!
# The active state

`activeState` answers from two offsets, the instruction pointer and the one that was left in a
register for the microcode, and does not look at what is there. So it may name a state that the
machine does not have. If it is the register that does (`Misnames`), this goes back to a single
step, which has written to the register or to the entry of the state, or has handed over an entry
that is stored as a state and does not decode (`Meddles`): `exists_meddles` finds this step in a run
of any machine. A machine whose program was assembled begins with cleared registers and without
states, and as long as its steps write neither to the register nor to the program (`Tampers`) the
register names nothing.
-/

set_option autoImplicit false

namespace TapeMachine

attribute [local irreducible] Buffer.setWord Buffer.setSlot

/-- Whether a word is one of the entry at an offset. -/
def Offset.Covers (offset : Offset) (index : Nat) : Prop :=
  offset.toNat / 32 ≤ index ∧ index < offset.toNat / 32 + 5

/-- The entry of a state that an offset names lies behind the header of the program. -/
theorem Offset.two_le_of_state? {offset : Offset} {state : Nat}
    (hstate : offset.state? = some state) : 2 ≤ (ofState state).toNat / 32 := by
  have hoffset := entry?_eq_some_iff.mp (state?_eq_some_iff.mp hstate)
  rw [(ofState_eq_iff.mpr hstate).2]
  omega

/-- An instruction is not stored as a state. -/
theorem Entry.opcode_encode_ne {instruction : Instruction}
    (hopcode : instruction.opcode ≠ .transition) :
    (encode (.instruction instruction)).opcode ≠ Opcode.transition.code := by
  intro hcode
  have hfound := Opcode.ofCode?_eq_some_iff.mpr hcode
  rw [encode, Opcode.ofCode?_code] at hfound
  exact hopcode (Option.some.inj hfound)

namespace Machine

variable {machine after : Machine} {index state : Nat}

/-- Whether a machine has a state. -/
def HasState (machine : Machine) (state : Nat) : Prop :=
  ∃ rules, machine.entry (Offset.firstStateEntry + state) = .ok (.state rules)

/-- Whether the register for the active state names a state that the machine does not have. -/
def Misnames (machine : Machine) (state : Nat) : Prop :=
  Offset.state? (machine.register .activeState).toUInt32 = some state ∧ ¬ machine.HasState state

/-- How the next step can make the register for the active state name a state that the machine does
not have. -/
inductive Meddles (machine : Machine) (state : Nat) : Prop where
  /-- It may write to the register. -/
  | register (hwrites : machine.Overwrites (machine.regions.registerWord .activeState))
  /-- It may write to the entry of the state. -/
  | entry {index : Nat} (hwrites : machine.Overwrites index)
    (hcovers : (Offset.ofState state).Covers index)
  /-- It hands over the entry of the state, from which no rules can be decoded. -/
  | undecodable {fault : Fault}
    (hentry : machine.entryAt machine.pointer = .ok (Offset.firstStateEntry + state))
    (hcode : (machine.entryWords (Offset.firstStateEntry + state)).opcode = Opcode.transition.code)
    (hrules : machine.entry (Offset.firstStateEntry + state) = .error fault)

/-- Whether the next step may write to the register for the active state or to an entry. -/
def Tampers (machine : Machine) : Prop :=
  ∃ index, machine.Overwrites index ∧
    (index = machine.regions.registerWord .activeState ∨
      2 ≤ index ∧ index < machine.regions.programWords)

/-- The active state is the one that the instruction pointer names, and if it names none the one
that the register names. -/
theorem activeState_eq_some_iff :
    machine.activeState = some state ↔
      machine.pointer.state? = some state ∨
      machine.pointer.state? = none ∧
        Offset.state? (machine.register .activeState).toUInt32 = some state := by
  unfold activeState
  cases machine.pointer.state? with
  | none => simp
  | some found => simp

/-! ### What a step leaves of the register and of the entries -/

theorem not_routine_activeState :
    ¬ machine.Routine (machine.regions.registerWord .activeState) := by
  rintro (hone | ⟨register, hmem, hregister⟩)
  · exact machine.regions.ne_registerWord machine.regions.outsideRegisters_one _ hone.symm
  · rw [← machine.regions.registerWord_inj hregister] at hmem
    exact absurd hmem (by decide)

/-- Words of entries are not written as a matter of routine. -/
theorem not_routine_entryWord (hlow : 2 ≤ (Offset.ofEntry index).toNat / 32)
    (hindex : index < machine.regions.entries) {k : Nat} (hk : k < 5) :
    ¬ machine.Routine ((Offset.ofEntry index).toNat / 32 + k) := by
  rintro (hone | ⟨register, -, hregister⟩)
  · omega
  · exact machine.regions.ne_registerWord (Or.inl (machine.regions.entryWord_lt hindex hk)) register
      hregister

/-- Handing a state over changes no entry. -/
theorem entry_entered (hlow : 2 ≤ (Offset.ofEntry index).toNat / 32) (code : UInt32) :
    (machine.fetchedOpcode code).entered.entry index = machine.entry index := by
  have hpointer : ((machine.fetchedOpcode code).setWord 1
      (Offset.ofEntry Offset.firstMicrocodeEntry)).SameOutside machine.Routine machine :=
    (machine.sameOutside_fetchedOpcode code).setWord (Or.inl rfl) _
  rw [(entered_agrees _).entry]
  exact hpointer.entry fun hindex _ hk ↦ not_routine_entryWord hlow hindex hk

/-! ### Misnaming -/

/-- The state at the instruction pointer, once it was handed over: the register names it rightly
unless it could not be decoded. -/
theorem meddles_of_entered (hentry : machine.entryAt machine.pointer = .ok index)
    (hcode : (machine.entryWords index).opcode = Opcode.transition.code)
    (hafter : (machine.fetchedOpcode Opcode.transition.code).entered.Misnames state) :
    machine.Meddles state := by
  obtain ⟨hnames, hlacks⟩ := hafter
  have hlow := Offset.two_le_of_state? hnames
  rw [register_entered, (machine.fetchedOpcode_agrees _).pointer, UInt32.toUInt32_toInt32] at hnames
  have hpointer := Offset.entry?_eq_some_iff.mp (Offset.state?_eq_some_iff.mp hnames)
  obtain rfl : index = Offset.firstStateEntry + state := by
    have hindex := (entryAt_eq_ok_iff.mp hentry).1
    omega
  cases hrules : machine.entry (Offset.firstStateEntry + state) with
  | error fault => exact .undecodable hentry hcode hrules
  | ok entry =>
    cases entry with
    | state rules => exact absurd ⟨rules, (entry_entered hlow _).trans hrules⟩ hlacks
    | instruction content =>
      obtain ⟨hwords, hopcode⟩ := Action.entryWords_of_entry hrules
      rw [hwords] at hcode
      exact absurd hcode (Entry.opcode_encode_ne hopcode)

/-- A step after which the register misnames a state, and before which it does not, meddles. -/
theorem meddles_of_misnames (hbefore : ¬ machine.Misnames state)
    (hafter : (Action.step.leaves machine).Misnames state) : machine.Meddles state := by
  rcases machine.leaves_cases with hsame | ⟨index, hentry, hcode, hleaves⟩
  · obtain ⟨hnames, hlacks⟩ := hafter
    have hlow := Offset.two_le_of_state? hnames
    by_cases hregister : machine.Overwrites (machine.regions.registerWord .activeState)
    · exact .register hregister
    rw [hsame.register (not_or.mpr ⟨not_routine_activeState, hregister⟩)] at hnames
    -- The register named the state before, so the machine had it and has lost it.
    obtain ⟨rules, hrules⟩ := not_not.mp fun hlacked ↦ hbefore ⟨hnames, hlacked⟩
    by_contra hspares
    refine hlacks ⟨rules, (hsame.entry fun hindex k hk hwrites ↦ ?_).trans hrules⟩
    rcases hwrites with hroutine | hoverwrites
    · exact not_routine_entryWord hlow hindex hk hroutine
    · exact hspares (.entry hoverwrites ⟨Nat.le_add_right _ _, Nat.add_lt_add_left hk _⟩)
  · rw [hleaves] at hafter
    exact meddles_of_entered hentry hcode hafter

/-- A state that the register misnames at the end of a run has been misnamed ever since a step that
meddled. -/
theorem exists_meddles (hstart : ¬ machine.Misnames state) {count : Nat}
    (hend : (machine.afterSteps count).Misnames state) :
    ∃ k < count, (machine.afterSteps k).Meddles state ∧
      ∀ later, k < later → later ≤ count → (machine.afterSteps later).Misnames state := by
  induction count with
  | zero => exact absurd hend hstart
  | succ count ih =>
    by_cases hbefore : (machine.afterSteps count).Misnames state
    · obtain ⟨k, hk, hmeddles, hsince⟩ := ih hbefore
      refine ⟨k, Nat.lt_succ_of_lt hk, hmeddles, fun later hlater hle ↦ ?_⟩
      rcases Nat.le_succ_iff.mp hle with hle | rfl
      · exact hsince later hlater hle
      · exact hend
    · have hmeddles := meddles_of_misnames hbefore (machine.afterSteps_succ count ▸ hend)
      refine ⟨count, Nat.lt_succ_self count, hmeddles, fun later hlater hle ↦ ?_⟩
      obtain rfl := Nat.le_antisymm hle hlater
      exact hend

/-! ### Programs without states -/

/-- Whether a machine has nothing that is stored as a state and a cleared register for the active
state. -/
structure Generic (machine : Machine) : Prop where
  opcode : ∀ offset index, machine.entryAt offset = .ok index →
    (machine.entryWords index).opcode ≠ Opcode.transition.code
  register : machine.register .activeState = 0

/-- A step that does not tamper keeps a generic machine so. -/
theorem Generic.step (hgeneric : machine.Generic) (hspares : ¬ machine.Tampers) :
    (Action.step.leaves machine).Generic := by
  rcases machine.leaves_cases with hsame | ⟨index, hentry, hcode, -⟩
  · refine ⟨fun offset index hentry ↦ ?_, ?_⟩
    · rw [entryAt_eq_ok_iff, hsame.regions, ← entryAt_eq_ok_iff] at hentry
      obtain ⟨hoffset, hindex⟩ := entryAt_eq_ok_iff.mp hentry
      have hhigh := machine.regions.entryWord_lt hindex (by decide : 0 < 5)
      have hlow : 2 ≤ (Offset.ofEntry index).toNat / 32 := by
        rw [ofEntry_of_entryAt hentry]
        omega
      have hopcode : (Action.step.leaves machine).buffer.word ((Offset.ofEntry index).toNat / 32) =
          machine.buffer.word ((Offset.ofEntry index).toNat / 32) := by
        have hroutine := not_routine_entryWord hlow hindex (by decide : 0 < 5)
        refine hsame.word _ (not_or.mpr ⟨hroutine, fun hwrites ↦ ?_⟩)
        exact hspares ⟨_, hwrites, Or.inr ⟨hlow, hhigh⟩⟩
      exact fun hcode ↦ hgeneric.opcode offset index hentry (hopcode.symm.trans hcode)
    · rw [hsame.register (not_or.mpr ⟨not_routine_activeState, fun hwrites ↦ ?_⟩),
        hgeneric.register]
      exact hspares ⟨_, hwrites, Or.inl rfl⟩
  · exact absurd hcode (hgeneric.opcode _ _ hentry)

theorem Generic.afterSteps (hgeneric : machine.Generic) {count : Nat}
    (hspares : ∀ k < count, ¬ (machine.afterSteps k).Tampers) :
    (machine.afterSteps count).Generic := by
  induction count with
  | zero => exact hgeneric
  | succ count ih =>
    rw [afterSteps_succ]
    exact (ih fun k hk ↦ hspares k (Nat.lt_succ_of_lt hk)).step
      (hspares count (Nat.lt_succ_self count))

/-- The active state of a generic machine is what its instruction pointer says. -/
theorem Generic.activeState_eq (hgeneric : machine.Generic) :
    machine.activeState = machine.pointer.state? := by
  have hnames : Offset.state? (machine.register .activeState).toUInt32 = none := by
    rw [hgeneric.register]
    rfl
  unfold activeState
  rw [hnames]
  cases machine.pointer.state? with
  | none => rfl
  | some state => rfl

/-- A machine with an assembled program is generic. -/
theorem generic_of_assemble {source : String} {program : List Instruction} {cells : Nat}
    (hprogram : Assembly.assemble source = .ok program)
    (hmachine : ofProgram program cells = .ok machine) : machine.Generic := by
  refine ⟨fun offset index hentry ↦ ?_, register_of_ofEntries hmachine _⟩
  have hbuilt := (built_of_ofEntries hmachine).1
  have hindex := (entryAt_eq_ok_iff.mp hentry).2
  rw [hbuilt.count, List.length_map] at hindex
  have hassembled := Assembly.assembled_of_assembleLines hprogram _ (List.getElem_mem hindex)
  have hstored : (program.map Entry.instruction)[index]? = some (.instruction program[index]) := by
    rw [List.getElem?_map, List.getElem?_eq_getElem hindex]
    rfl
  rw [hbuilt.entryWords index _ hstored]
  exact Entry.opcode_encode_ne hassembled.1

/-- After any number of steps of an assembled program, faults or not, the active state is one that
the machine lacks in two cases only. The instruction pointer is at the offset of such a state; or it
is at the offset of none, and the register has misnamed the state ever since a step that meddled.
If no step tampered, the active state is what the instruction pointer says. -/
theorem activeState_of_assemble {source : String} {program : List Instruction} {cells : Nat}
    (hprogram : Assembly.assemble source = .ok program)
    (hmachine : ofProgram program cells = .ok machine) (count : Nat) :
    (∀ state,
      (machine.afterSteps count).activeState = some state ∧
        ¬ (machine.afterSteps count).HasState state ↔
      ((machine.afterSteps count).pointer.state? = some state ∧
          ¬ (machine.afterSteps count).HasState state ∨
        (machine.afterSteps count).pointer.state? = none ∧
          ∃ k < count, (machine.afterSteps k).Meddles state ∧
            ∀ later, k < later → later ≤ count → (machine.afterSteps later).Misnames state)) ∧
    ((∀ k < count, ¬ (machine.afterSteps k).Tampers) →
      (machine.afterSteps count).activeState = (machine.afterSteps count).pointer.state?) := by
  have hgeneric := generic_of_assemble hprogram hmachine
  refine ⟨fun state ↦ ?_, fun hspares ↦ (hgeneric.afterSteps hspares).activeState_eq⟩
  have hstart : ¬ machine.Misnames state := by
    rintro ⟨hnames, -⟩
    rw [hgeneric.register] at hnames
    cases hnames
  rw [activeState_eq_some_iff]
  constructor
  · rintro ⟨hpointer | ⟨hpointer, hnames⟩, hlacks⟩
    · exact Or.inl ⟨hpointer, hlacks⟩
    · exact Or.inr ⟨hpointer, exists_meddles hstart ⟨hnames, hlacks⟩⟩
  · rintro (⟨hpointer, hlacks⟩ | ⟨hpointer, k, hk, -, hsince⟩)
    · exact ⟨Or.inl hpointer, hlacks⟩
    · obtain ⟨hnames, hlacks⟩ := hsince count hk (Nat.le_refl count)
      exact ⟨Or.inr ⟨hpointer, hnames⟩, hlacks⟩

/-- A machine that runs a program is on the first of its instructions. -/
theorem start_of_ofProgram {instruction : Instruction} {rest : List Instruction} {cells : Nat}
    (hmachine : ofProgram (instruction :: rest) cells = .ok machine)
    (hopcode : instruction.opcode ≠ .transition) :
    machine.entryAt machine.pointer = .ok 0 ∧ machine.Reaches 4 ∧
      machine.entry 0 = .ok (.instruction instruction) := by
  have hbuilt := (built_of_ofEntries hmachine).1
  have hindex : 0 < machine.regions.entries := by
    rw [hbuilt.count, List.length_map, List.length_cons]
    exact Nat.succ_pos _
  have hentry : machine.entryAt machine.pointer = .ok 0 := by
    rw [hbuilt.pointer]
    exact hbuilt.addressable.entryAt_ofEntry hindex
  exact ⟨hentry, hbuilt.addressable.reaches hentry (by decide),
    hbuilt.entry rfl fun h ↦ absurd h hopcode⟩

/-- An instruction that is performed and falls through is followed by its next entry. -/
theorem step_of_perform {instruction : Instruction}
    (hentry : machine.entryAt machine.pointer = .ok index) (hreach : machine.Reaches 4)
    (hinstruction : machine.entry index = .ok (.instruction instruction))
    (hthrough : instruction.opcode.fallsThrough = true)
    (hperform : Action.perform instruction (machine.fetched instruction) = .ok () after) :
    Action.step machine = .ok (.executed instruction.opcode) (after.advanced instruction.next) ∧
      (after.advanced instruction.next).pointer = instruction.next := by
  refine ⟨?_, ((after.advanced_agrees _).pointer).trans (after.pointer_setPointer _)⟩
  rw [Action.step_of_instruction hentry hreach hinstruction, hperform]
  dsimp only
  split
  · next hopcode =>
    rw [hopcode] at hthrough
    cases hthrough
  · next hopcode =>
    rw [hopcode] at hthrough
    cases hthrough
  · rfl

/-- A program that loads a register of its own and then halts is in no state after its first
step. -/
theorem activeState_of_assemble_load :
    ∃ machine, Assembly.assemble "Load(5, 1)\nHalt" = .ok [⟨.load, 5, 1, 0, 224⟩, .halt] ∧
      ofProgram [⟨.load, 5, 1, 0, 224⟩, .halt] 16 = .ok machine ∧
      ¬ machine.Tampers ∧ (machine.afterSteps 1).activeState = none := by
  have hprogram : Assembly.assemble "Load(5, 1)\nHalt" = .ok [⟨.load, 5, 1, 0, 224⟩, .halt] := by
    decide +kernel
  obtain ⟨machine, hmachine⟩ := exists_eq_ok_of_toBool
    (show (ofProgram [⟨.load, 5, 1, 0, 224⟩, .halt] 16).toBool = true from rfl)
  obtain ⟨hentry, hreach, hload⟩ := start_of_ofProgram hmachine (by decide)
  have htarget : Register.ofOperand 1 = .ok 1 := rfl
  have hspares : ¬ machine.Tampers := by
    rintro ⟨index, hwrites, hindex⟩
    obtain ⟨register, hregister, rfl⟩ := (overwrites_iff hentry hload).mp hwrites
    obtain rfl := Except.ok.inj (htarget.symm.trans hregister)
    rw [(machine.fetched_agrees _).regions] at hindex
    rcases hindex with hactive | ⟨-, hhigh⟩
    · exact absurd (machine.regions.registerWord_inj hactive) (by decide)
    · exact machine.regions.ne_registerWord (Or.inl hhigh) 1 rfl
  obtain ⟨hstep, hpointer⟩ := step_of_perform hentry hreach hload rfl (Action.load_eq htarget 5)
  refine ⟨machine, hprogram, hmachine, hspares, ?_⟩
  have hstate := (activeState_of_assemble hprogram hmachine 1).2 fun k hk ↦
    Nat.lt_one_iff.mp hk ▸ hspares
  rw [hstate, afterSteps_of_ok hstep, Machine.afterSteps, hpointer]
  rfl

/-- A program of thirty-two instructions, none of them a state. -/
def longProgram : List Instruction :=
  ⟨.clearRegisters, 0, 0, 0, Offset.ofEntry 31⟩ :: List.replicate 31 .halt

/-- The first instruction of the long program leads to the last, which has the place of the halt
state. From there on the machine is said to be in that state. -/
theorem activeState_of_long_program :
    ∃ machine after,
      Assembly.assemble ("ClearRegisters -> 31\n" ++ String.join (List.replicate 31 "Halt\n")) =
        .ok longProgram ∧
      ofProgram longProgram 16 = .ok machine ∧
      Action.step machine = .ok (.executed .clearRegisters) after ∧
      after.activeState = some 0 ∧ after.entry 31 = .ok (.instruction .halt) ∧
      ¬ after.HasState 0 := by
  have hprogram :
      Assembly.assemble ("ClearRegisters -> 31\n" ++ String.join (List.replicate 31 "Halt\n")) =
        .ok longProgram := by
    rw [Assembly.assemble, String.toList_append, String.toList_join]
    decide +kernel
  obtain ⟨machine, hmachine⟩ :=
    exists_eq_ok_of_toBool (show (ofProgram longProgram 16).toBool = true from rfl)
  obtain ⟨hentry, hreach, hclear⟩ := start_of_ofProgram hmachine (by decide)
  obtain ⟨hstep, hpointer⟩ := step_of_perform hentry hreach hclear rfl rfl
  have hhalt := (built_of_ofEntries hmachine).1.entry
    (show (longProgram.map Entry.instruction)[31]? = some (.instruction .halt) from rfl)
    (by decide)
  rw [← (leaves_of_instruction hentry hclear hstep).entry fun hindex k hk hwrites ↦ ?_] at hhalt
  · refine ⟨machine, _, hprogram, hmachine, hstep, ?_, hhalt, ?_⟩
    · rw [activeState, hpointer]
      rfl
    · rintro ⟨rules, hrules⟩
      rw [show Offset.firstStateEntry + 0 = 31 from rfl, hhalt] at hrules
      cases hrules
  · rcases hwrites with hroutine | hoverwrites
    · exact not_routine_entryWord (by decide) hindex hk hroutine
    · obtain ⟨register, hregister⟩ := (overwrites_iff hentry hclear).mp hoverwrites
      exact machine.regions.ne_registerWord (Or.inl (machine.regions.entryWord_lt hindex hk))
        register hregister

end Machine

end TapeMachine
