import TapeMachine.Proofs.Execution.Budget
import TapeMachine.Proofs.Execution.Shown

/-!
# Machines that are halted

A step can find a machine halted in two ways, at a `Halt` instruction or in the halt state, and
`Halts` says what the machine must be like for either and what the step leaves of it. What is left
agrees with what was there, and its fetch has nothing new to write: the same step, taken again,
changes not a single byte (`Halts.again`). A run of what is left ends at once; one that is shown
may fail, for its last snapshot looks at the head and at every cell, which a `Halt` instruction does
not (`runShown_of_halted`).

Whether a step would find the machine halted can also be asked without taking it. `isHalted` answers
from the entry at the instruction pointer, whole, where a step goes by its opcode, by the head and
by the cell under it; `isHalted_foretells_step` says that the two never contradict each other.
-/

set_option autoImplicit false

namespace TapeMachine

namespace Machine

attribute [local irreducible] Buffer.setWord Buffer.setSlot

variable {machine other after : Machine}

/-! ### Fetching twice -/

/-- Machines that agree and have the same registers are the same. -/
theorem Agrees.eq_of_register (hagrees : machine.Agrees other)
    (hregister : ∀ register, machine.register register = other.register register) :
    machine = other := by
  refine ext_word hagrees.regions fun index ↦ ?_
  by_cases hindex : machine.regions.OutsideRegisters index
  · exact hagrees.word index hindex
  · obtain ⟨register, rfl⟩ := machine.regions.exists_registerWord hindex
    rw [word_registerWord, hregister, hagrees.regions, word_registerWord]

theorem setRegisters_append (machine : Machine) (first second : List (Register × Int32)) :
    machine.setRegisters (first ++ second) = (machine.setRegisters first).setRegisters second := by
  induction first generalizing machine with
  | nil => rfl
  | cons update first ih => exact ih _

/-- Writing the same registers a second time changes nothing. -/
theorem setRegisters_again (machine : Machine) (updates : List (Register × Int32)) :
    (machine.setRegisters updates).setRegisters updates = machine.setRegisters updates := by
  refine ((Agrees.refl _).setRegisters_left updates).eq_of_register fun register ↦ ?_
  rw [register_setRegisters, register_setRegisters]
  cases updates.reverse.lookup register with
  | none => rfl
  | some value => rfl

theorem fetchedOpcode_again (machine : Machine) (code : UInt32) :
    (machine.fetchedOpcode code).fetchedOpcode code = machine.fetchedOpcode code := by
  have hagrees := machine.fetchedOpcode_agrees code
  have hword := hagrees.word 0 (Regions.outsideRegisters_zero _)
  rw [fetchedOpcode, hword, hagrees.pointer]
  exact machine.setRegisters_again _

theorem fetched_again (machine : Machine) (instruction : Instruction) :
    (machine.fetched instruction).fetched instruction = machine.fetched instruction := by
  have hagrees := machine.fetched_agrees instruction
  have hword := hagrees.word 0 (Regions.outsideRegisters_zero _)
  have hfetched : machine.fetched instruction = machine.setRegisters (_ ++ _) :=
    (machine.setRegisters_append _ _).symm
  rw [fetched, fetchedOpcode, hword, hagrees.pointer, ← setRegisters_append, hfetched]
  exact machine.setRegisters_again _

/-! ### The two ways to be halted -/

/-- The machines that a step finds halted, each with the machine that the step leaves. -/
inductive Halts (machine : Machine) : Machine → Prop where
  /-- The halt state, with a symbol under the head. Its rules do not matter. -/
  | state {index : Nat} {symbol : Symbol} (hentry : machine.entryAt machine.pointer = .ok index)
    (hcode : (machine.entryWords index).opcode = Opcode.transition.code)
    (hpointer : machine.pointer = Offset.halt) (hread : machine.symbolUnderHead = .ok symbol) :
    machine.Halts (machine.fetchedOpcode Opcode.transition.code)
  /-- A `Halt` instruction that registers can address. The tape does not matter. -/
  | instruction {index : Nat} {instruction : Instruction}
    (hentry : machine.entryAt machine.pointer = .ok index)
    (hinstruction : machine.entry index = .ok (.instruction instruction))
    (hhalt : instruction.opcode = .halt) (hreach : machine.Reaches 4) :
    machine.Halts (machine.fetched instruction)

namespace Halts

theorem step (hhalts : machine.Halts after) : Action.step machine = .ok .halted after := by
  cases hhalts with
  | state hentry hcode hpointer hread =>
    obtain ⟨position, hhead, hcell⟩ := symbolUnderHead_eq_ok_iff.mp hread
    have hreach := (reaches_of_pointer_eq_halt hpointer).mono (Nat.zero_le 4)
    rw [Action.step_of_state hentry hreach hcode, hhead]
    dsimp only
    rw [hcell]
    exact if_pos hpointer
  | instruction hentry hinstruction hhalt hreach =>
    rw [Action.step_of_instruction hentry hreach hinstruction, Action.perform, hhalt]
    rfl

theorem agrees (hhalts : machine.Halts after) : after.Agrees machine := by
  cases hhalts with
  | state => exact machine.fetchedOpcode_agrees _
  | instruction => exact machine.fetched_agrees _

/-- What is left of a halted machine is halted, and is left as it is. -/
theorem again (hhalts : machine.Halts after) : after.Halts after := by
  have hagrees := hhalts.agrees
  cases hhalts with
  | state hentry hcode hpointer hread =>
    have hindex := (entryAt_eq_ok_iff.mp hentry).2
    have hagain := Halts.state (by rwa [hagrees.pointer, hagrees.entryAt])
      (by rwa [hagrees.entryWords (hagrees.regions ▸ hindex)]) (by rwa [hagrees.pointer])
      (by rwa [hagrees.symbolUnderHead])
    rwa [fetchedOpcode_again] at hagain
  | instruction hentry hinstruction hhalt hreach =>
    have hagain := Halts.instruction (by rwa [hagrees.pointer, hagrees.entryAt])
      (by rwa [hagrees.entry]) hhalt (by rwa [Reaches, hagrees.pointer])
    rwa [fetched_again] at hagain

end Halts

/-- A step on a state answers only if there is a symbol under the head, and it halts only in the
halt state. -/
theorem symbol_of_step {index : Nat} {result : Step}
    (hentry : machine.entryAt machine.pointer = .ok index)
    (hcode : (machine.entryWords index).opcode = Opcode.transition.code)
    (hstep : Action.step machine = .ok result after) :
    (∃ symbol, machine.symbolUnderHead = .ok symbol) ∧
      (result = .halted → machine.pointer = Offset.halt) := by
  by_cases hreach : machine.Reaches 0
  · rw [Action.step_of_state hentry hreach hcode] at hstep
    cases hhead : machine.head with
    | error fault =>
      rw [hhead] at hstep
      cases hstep
    | ok position =>
      rw [hhead] at hstep
      dsimp only at hstep
      rw [symbolUnderHead_of_head hhead]
      cases hcell : machine.cell position with
      | error fault =>
        rw [hcell] at hstep
        cases hstep
      | ok symbol =>
        rw [hcell] at hstep
        refine ⟨⟨symbol, rfl⟩, fun hhalted ↦ ?_⟩
        dsimp only at hstep
        split at hstep
        · next hpointer => exact hpointer
        · subst hhalted
          cases hstep
  · obtain ⟨_, _, _, hfails⟩ := Action.step_of_not_reaches hentry hreach
    rw [hfails] at hstep
    cases hstep

/-- An instruction is performed only if registers can address all of it, and it halts only if it is
`Halt`. -/
theorem reaches_of_step {index : Nat} {instruction : Instruction} {result : Step}
    (hentry : machine.entryAt machine.pointer = .ok index)
    (hinstruction : machine.entry index = .ok (.instruction instruction))
    (hstep : Action.step machine = .ok result after) :
    machine.Reaches 4 ∧ (result = .halted → instruction.opcode = .halt) := by
  by_cases hreach : machine.Reaches 4
  · refine ⟨hreach, fun hhalted ↦ ?_⟩
    subst hhalted
    rw [Action.step_of_instruction hentry hreach hinstruction] at hstep
    split at hstep
    · cases hstep
    · split at hstep
      · next hhalt => exact hhalt
      · cases hstep
      · cases hstep
  · obtain ⟨_, _, hfails⟩ := step_fails_of_not_reaches hentry hinstruction hreach
    rw [hfails] at hstep
    cases hstep

/-- A step that answers is on an entry that is stored as a state, or on an instruction. -/
theorem entry_of_step {result : Step} (hstep : Action.step machine = .ok result after) :
    ∃ index, machine.entryAt machine.pointer = .ok index ∧
      ((machine.entryWords index).opcode = Opcode.transition.code ∨
        ∃ instruction, machine.entry index = .ok (.instruction instruction)) := by
  cases machine.current with
  | nowhere hentry =>
    obtain ⟨last, hfails⟩ := Action.step_of_not_entry hentry
    rw [hfails] at hstep
    cases hstep
  | unknown hentry hcode =>
    by_cases hreach : machine.Reaches 0
    · rw [Action.step_of_unknown hentry hreach rfl hcode] at hstep
      cases hstep
    · obtain ⟨_, _, _, hfails⟩ := Action.step_of_not_reaches hentry hreach
      rw [hfails] at hstep
      cases hstep
  | undecodable hentry hcode hrules => exact ⟨_, hentry, Or.inl hcode⟩
  | state hstate =>
    obtain ⟨index, hentry, hrules⟩ := hstate
    exact ⟨index, hentry, Or.inl (StateAt.opcode_word hentry hrules)⟩
  | instruction hentry hinstruction => exact ⟨_, hentry, Or.inr ⟨_, hinstruction⟩⟩

/-- A step finds a machine halted in these two ways and no other. -/
theorem step_eq_halted_iff : Action.step machine = .ok .halted after ↔ machine.Halts after := by
  refine ⟨fun hstep ↦ ?_, Halts.step⟩
  have hhalts : ∃ last, machine.Halts last := by
    obtain ⟨index, hentry, hcode | ⟨instruction, hinstruction⟩⟩ := entry_of_step hstep
    · obtain ⟨⟨symbol, hread⟩, hpointer⟩ := symbol_of_step hentry hcode hstep
      exact ⟨_, .state hentry hcode (hpointer rfl) hread⟩
    · obtain ⟨hreach, hhalt⟩ := reaches_of_step hentry hinstruction hstep
      exact ⟨_, .instruction hentry hinstruction (hhalt rfl) hreach⟩
  obtain ⟨last, hlast⟩ := hhalts
  have hsame := hlast.step.symm.trans hstep
  cases hsame
  exact hlast

theorem exists_step_of_verdictNext (hnext : machine.verdictNext = some (.ok ())) :
    ∃ last, Action.step machine = .ok .halted last := by
  unfold verdictNext at hnext
  split at hnext
  · next last hstep => exact ⟨last, hstep⟩
  · cases hnext
  · cases hnext

/-! ### Halted for good -/

/-- A machine that a step leaves as it is, halted, is left so by any number of steps. -/
theorem answers_of_halted (hstep : Action.step machine = .ok .halted machine) (count : Nat) :
    machine.answers count = List.replicate count (.ok .halted) ∧
      machine.afterSteps count = machine := by
  induction count with
  | zero => exact ⟨rfl, rfl⟩
  | succ count ih =>
    rw [answers_of_ok hstep, afterSteps_of_ok hstep, List.replicate_succ, ih.1]
    exact ⟨rfl, ih.2⟩

/-- A run of such a machine that is shown ends before its first step, with the one snapshot that it
takes. If that cannot be taken, the run fails. -/
theorem runShown_of_halted (hstep : Action.step machine = .ok .halted machine) (rest : Nat) :
    machine.runShown (rest + 1) =
      match Snapshot.capture machine 0 with
      | .ok snapshot =>
        { result := .ok { ending := .halted, steps := 0, transitions := 0 }
          machine := machine
          record := #[snapshot] }
      | .error fault => { result := .error fault, machine := machine, record := #[] } := by
  unfold runShown runWith
  rw [runFrom_of_halted Snapshot.observer rest 0 0 #[] hstep]
  cases hsnapshot : Snapshot.capture machine 0 with
  | error fault => exact Run.addLast_of_error rfl hsnapshot
  | ok snapshot => exact Run.addLast_of_ok rfl hsnapshot

/-- A machine that a step finds halted stays halted. The machine that the step leaves has the
program and the tape that were there, and no further step changes a byte of it. A run of it that is
not shown, however long it may be, ends before its first step. A run that is shown does the same if
the head is on the tape and every cell holds a symbol, and otherwise fails on its one snapshot. -/
theorem halted_for_good (hstep : Action.step machine = .ok .halted after) :
    Action.step after = .ok .halted after ∧
    (∀ count, after.answers count = List.replicate count (.ok .halted) ∧
      after.afterSteps count = after) ∧
    after.agrees machine = true ∧
    ∀ budget, 1 ≤ budget →
      after.run budget =
        { result := .ok { ending := .halted, steps := 0, transitions := 0 }
          machine := after
          record := () } ∧
      (after.runShown budget =
        match Snapshot.capture after 0 with
        | .ok snapshot =>
          { result := .ok { ending := .halted, steps := 0, transitions := 0 }
            machine := after
            record := #[snapshot] }
        | .error fault => { result := .error fault, machine := after, record := #[] }) ∧
      ((after.runShown budget).result = (after.run budget).result ↔
        (∃ position, after.head = .ok position) ∧ after.Readable) := by
  have hhalts := step_eq_halted_iff.mp hstep
  have hagain := hhalts.again.step
  refine ⟨hagain, answers_of_halted hagain, (agrees_eq_true_iff _ _).mpr hhalts.agrees, ?_⟩
  intro budget hbudget
  obtain ⟨rest, rfl⟩ := Nat.exists_eq_add_of_le' hbudget
  have hrun : after.run (rest + 1) = _ := runFrom_of_halted silent rest 0 0 () hagain
  have hshown := runShown_of_halted hagain rest
  refine ⟨hrun, hshown, ?_⟩
  rw [← exists_capture_iff 0, hshown, hrun]
  cases Snapshot.capture after 0 with
  | error fault => simp
  | ok snapshot => simp

/-- The machine of the program that is nothing but `Halt` is halted, whatever is on its tape. -/
theorem halts_of_retaped (hmachine : ofProgram [.halt] 16 = .ok machine)
    (hretaped : other.Retaped machine) : other.Halts (other.fetched .halt) := by
  obtain ⟨hbuilt, -⟩ := built_of_ofEntries hmachine
  have haddressable := hretaped.sameProgram.symm.addressable hbuilt.addressable
  have hentry : other.entryAt other.pointer = .ok 0 := by
    rw [hretaped.sameProgram.entryAt, hretaped.pointer, hbuilt.pointer]
    exact hbuilt.addressable.entryAt_ofEntry (hbuilt.count ▸ (by decide))
  have hinstruction : other.entry 0 = .ok (.instruction .halt) := by
    rw [hretaped.sameProgram.entry haddressable]
    exact hbuilt.entry rfl (by decide)
  exact .instruction hentry hinstruction rfl (haddressable.reaches hentry (by decide))

/-- What a step leaves of a machine that was built, if it agrees with it, can be shown. -/
theorem Built.shown {entries : List Entry} {start : Offset} (hbuilt : Built entries start machine)
    (hcells : 0 < machine.cellCount) (hagrees : after.Agrees machine) :
    (∃ position, after.head = .ok position) ∧ after.Readable := by
  refine ⟨⟨0, ?_⟩, fun position hposition ↦ ⟨.blank, ?_⟩⟩
  · rw [hagrees.head]
    exact head_eq_ok_iff.mpr ⟨hbuilt.headAt, hcells⟩
  · rw [hagrees.cell]
    exact hbuilt.cell position (hagrees.cellCount ▸ hposition)

/-- A program that is nothing but `Halt`, and the machine of the table without states: one is halted
at an instruction, the other in the halt state. Both can be shown. -/
theorem halted_for_good_program_and_table :
    (∃ machine after, ofProgram [.halt] 16 = .ok machine ∧
      Action.step machine = .ok .halted after ∧ Action.step after = .ok .halted after ∧
      (after.runShown 1).result = (after.run 1).result) ∧
    ∃ machine after, ofTable [] 16 = .ok machine ∧
      Action.step machine = .ok .halted after ∧ Action.step after = .ok .halted after ∧
      (after.runShown 1).result = (after.run 1).result := by
  constructor
  · obtain ⟨machine, hmachine⟩ :=
      exists_eq_ok_of_toBool (show (ofProgram [.halt] 16).toBool = true from rfl)
    obtain ⟨hbuilt, hplan⟩ := built_of_ofEntries hmachine
    have hcells : machine.cellCount = 16 := cellCount_of_plan hplan
    have hhalts := halts_of_retaped hmachine (.refl machine)
    obtain ⟨hagain, -, -, hruns⟩ := halted_for_good hhalts.step
    exact ⟨machine, _, hmachine, hhalts.step, hagain, (hruns 1 (Nat.le_refl 1)).2.2.mpr
      (hbuilt.shown (hcells ▸ (by decide)) hhalts.agrees)⟩
  · obtain ⟨machine, hmachine⟩ :=
      exists_eq_ok_of_toBool (show (ofTable [] 16).toBool = true from rfl)
    obtain ⟨⟨rules, index, hentry, hrules⟩, hpointer, hhead⟩ := halts_of_ofTable_nil hmachine
    obtain ⟨hbuilt, -⟩ := built_of_ofTable hmachine
    have hcells := (head_eq_ok_iff.mp hhead).2
    have hhalts := Halts.state hentry (StateAt.opcode_word hentry hrules) hpointer
      ((symbolUnderHead_of_head hhead).trans (hbuilt.cell 0 hcells))
    obtain ⟨hagain, -, -, hruns⟩ := halted_for_good hhalts.step
    exact ⟨machine, _, hmachine, hhalts.step, hagain,
      (hruns 1 (Nat.le_refl 1)).2.2.mpr (hbuilt.shown hcells hhalts.agrees)⟩

/-- That program with a spoiled first cell can be loaded, and a step finds it halted. A run of what
the step leaves says so as well, but cannot be shown. -/
theorem halted_fails_shown_on_cell :
    ∃ built after, ofProgram [.halt] 16 = .ok built ∧
      ofImage built.spoiled.buffer = .ok built.spoiled ∧
      Action.step built.spoiled = .ok .halted after ∧
      (after.run 1).result = .ok { ending := .halted, steps := 0, transitions := 0 } ∧
      (after.runShown 1).result = .error (.notASymbol 1888 3) := by
  obtain ⟨built, hmachine⟩ :=
    exists_eq_ok_of_toBool (show (ofProgram [.halt] 16).toBool = true from rfl)
  obtain ⟨hbuilt, hplan⟩ := built_of_ofEntries hmachine
  have hhalts := halts_of_retaped hmachine built.retaped_spoiled
  have hagain := hhalts.again.step
  have hcells : built.cellCount = 16 := cellCount_of_plan hplan
  have hslot : built.regions.cellSlot 0 = 944 := by
    rw [Regions.cellSlot, Regions.tapeWord_eq, Regions.programWords, hbuilt.count]
    rfl
  have hhead := head_spoiled hbuilt (hcells ▸ (by decide))
  have hfails : Snapshot.capture (built.spoiled.fetched .halt) 0 = .error (.notASymbol 1888 3) := by
    unfold Snapshot.capture
    rw [hhalts.agrees.head, hhalts.agrees.tape, hhead, built.tape_spoiled hcells, hslot]
    rfl
  refine ⟨built, _, hmachine, ofImage_spoiled hbuilt, hhalts.step, ?_, ?_⟩
  · exact congrArg Run.result (runFrom_of_halted silent 0 0 0 () hagain)
  · rw [runShown_of_halted hagain 0, hfails]

/-! ### Larger budgets of runs that are shown -/

/-- The last snapshot makes no difference between an end that is announced and the same end found by
a step, which leaves the head and the tape alone. -/
theorem addLast_of_verdict {verdict : Except Fault Unit} (hnow : machine.verdictNow = some verdict)
    (hnext : machine.verdictNext = some verdict) (budget steps transitions : Nat)
    (record : Array Snapshot) :
    (runFrom Snapshot.observer (budget + 1) steps transitions machine record).addLast.result =
      (runFrom Snapshot.observer 0 steps transitions machine record).addLast.result := by
  have hlater : _ = conclude steps transitions verdict :=
    runFrom_succ_of_verdictNext Snapshot.observer budget steps transitions record hnext
  have hended : _ = conclude steps transitions verdict :=
    runFrom_zero_of_verdictNow Snapshot.observer steps transitions record hnow
  cases verdict with
  | error fault =>
    rw [Run.addLast_of_failed hlater, Run.addLast_of_failed hended, hlater, hended]
  | ok _ =>
    obtain ⟨last, hstep⟩ := exists_step_of_verdictNext hnext
    have hagrees := (step_eq_halted_iff.mp hstep).agrees
    rw [Run.result_addLast, Run.result_addLast, hlater, hended,
      runFrom_of_halted Snapshot.observer budget steps transitions record hstep, runFrom_zero]
    dsimp only
    rw [hagrees.head, hagrees.tape]

/-- A run that is shown, and that halted or failed before its last snapshot, comes to the same end
with every larger budget, unless its budget was used up on a flawed machine. Where nothing but its
last snapshot failed, a run with a larger budget can go on to a machine that can be shown. -/
theorem runShown_with_larger_budget {budget : Nat}
    (hterminal : (machine.runWith Snapshot.observer budget #[]).Terminal)
    (hsound : ∀ last, machine.stepsOn? budget = some last → ¬ last.Flawed) {larger : Nat}
    (hlarger : budget ≤ larger) :
    (machine.runShown larger).result = (machine.runShown budget).result := by
  unfold runShown
  cases hsteps : machine.stepsOn? budget with
  | none =>
    have hsame := runFrom_of_stepsOn_none Snapshot.observer hsteps hlarger 0 0 #[]
    exact congrArg (fun run ↦ run.addLast.result) hsame
  | some last =>
    obtain ⟨extra, rfl⟩ := Nat.exists_eq_add_of_le' hlarger
    unfold runWith at hterminal ⊢
    rcases runFrom_of_stepsOn Snapshot.observer hsteps 0 0 #[] with
      ⟨later, seen, hrun⟩ | ⟨stopped, -, hrun⟩
    · have hbudget := hrun 0
      rw [Nat.zero_add] at hbudget
      rw [hbudget] at hterminal ⊢
      rw [hrun, Nat.zero_add]
      cases hnow : last.verdictNow with
      | none => cases hterminal _ (runFrom_zero_of_verdictNow_none _ _ _ _ hnow)
      | some verdict =>
        have hnext : last.verdictNext = some verdict := Classical.byContradiction fun hdiffers ↦
          hsound last hsteps (flawed_of_differs hnow hdiffers)
        cases extra with
        | zero => rfl
        | succ extra => exact addLast_of_verdict hnow hnext extra budget later seen
    · have hbudget := hrun 0
      rw [Nat.zero_add] at hbudget
      rw [hrun, hbudget]

/-! ### What is foretold -/

/-- A machine that answers whether it is halted is on an entry that decodes, and what the entry
holds decides the answer. -/
theorem isHalted_cases {halted : Bool} (hhalted : machine.isHalted = .ok halted) :
    ∃ index, machine.entryAt machine.pointer = .ok index ∧
      ((∃ rules, machine.entry index = .ok (.state rules) ∧
          halted = decide (machine.pointer = Offset.halt)) ∨
        ∃ instruction, machine.entry index = .ok (.instruction instruction) ∧
          halted = decide (instruction.opcode = .halt)) := by
  cases hcurrent : machine.currentEntry with
  | error fault =>
    rw [isHalted, hcurrent] at hhalted
    cases hhalted
  | ok entry =>
    obtain ⟨index, hentry, hdecoded⟩ := currentEntry_eq_ok_iff.mp hcurrent
    refine ⟨index, hentry, ?_⟩
    cases entry with
    | state rules =>
      rw [isHalted_of_stateAt ⟨index, hentry, hdecoded⟩] at hhalted
      exact Or.inl ⟨rules, hdecoded, (Except.ok.inj hhalted).symm⟩
    | instruction content =>
      rw [isHalted_of_instruction hcurrent] at hhalted
      exact Or.inr ⟨content, hdecoded, (Except.ok.inj hhalted).symm⟩

/-- A machine that a step finds halted does not say that it is not. -/
theorem isHalted_of_step {halted : Bool} (hhalted : machine.isHalted = .ok halted)
    (hstep : Action.step machine = .ok .halted after) : halted = true := by
  obtain ⟨index, hentry, ⟨rules, hrules, rfl⟩ | ⟨instruction, hinstruction, rfl⟩⟩ :=
    isHalted_cases hhalted
  · have hcode := StateAt.opcode_word hentry hrules
    exact decide_eq_true ((symbol_of_step hentry hcode hstep).2 rfl)
  · exact decide_eq_true ((reaches_of_step hentry hinstruction hstep).2 rfl)

/-- A machine that says it is halted is found halted if the step gets as far: on a state there must
be a symbol under the head, and an instruction must be within the reach of registers. -/
theorem exists_halts_of_isHalted (hhalted : machine.isHalted = .ok true)
    (hread : ∀ index, machine.entryAt machine.pointer = .ok index →
      (machine.entryWords index).opcode = Opcode.transition.code →
      ∃ symbol, machine.symbolUnderHead = .ok symbol)
    (hreach : ∀ index instruction, machine.entryAt machine.pointer = .ok index →
      machine.entry index = .ok (.instruction instruction) → machine.Reaches 4) :
    ∃ after, machine.Halts after := by
  obtain ⟨index, hentry, ⟨rules, hrules, hpointer⟩ | ⟨instruction, hinstruction, hhalt⟩⟩ :=
    isHalted_cases hhalted
  · have hcode := StateAt.opcode_word hentry hrules
    obtain ⟨symbol, hsymbol⟩ := hread index hentry hcode
    exact ⟨_, .state hentry hcode (of_decide_eq_true hpointer.symm) hsymbol⟩
  · have hreached := hreach index instruction hentry hinstruction
    exact ⟨_, .instruction hentry hinstruction (of_decide_eq_true hhalt.symm) hreached⟩

/-- The instruction pointer of a validated machine is on an entry that decodes. -/
theorem exists_isHalted_of_validate (hvalid : machine.validate = .ok ()) :
    ∃ halted, machine.isHalted = .ok halted := by
  obtain ⟨entries, hentries, hstray, position, hhead⟩ := of_validate_eq_ok hvalid
  cases hpointer : machine.entryAt machine.pointer with
  | error fault =>
    unfold validate at hvalid
    simp [hentries, hstray, hpointer, bind, Except.bind] at hvalid
  | ok index =>
    have hdecodes := exists_mapM_eq_ok_iff.mp ⟨entries, hentries⟩ index
      (List.mem_range.mpr (entryAt_eq_ok_iff.mp hpointer).2)
    obtain ⟨entry, hentry⟩ := hdecodes
    rw [isHalted, currentEntry_eq_ok_iff.mpr ⟨index, hpointer, hentry⟩]
    exact ⟨_, rfl⟩

/-- What a machine says of being halted is never contradicted by its step, if both answer. A
validated machine that registers can address, with a symbol under its head, always answers, and says
that it is halted exactly if a step finds it so. -/
theorem isHalted_foretells_step (machine : Machine) :
    (∀ halted result after, machine.isHalted = .ok halted →
      Action.step machine = .ok result after → (halted = true ↔ result = .halted)) ∧
    (machine.Addressable → machine.validate = .ok () →
      (∃ symbol, machine.symbolUnderHead = .ok symbol) →
      ∃ halted, machine.isHalted = .ok halted ∧
        (halted = true ↔ ∃ after, Action.step machine = .ok .halted after)) := by
  constructor
  · intro halted result after hhalted hstep
    constructor
    · rintro rfl
      obtain ⟨last, hhalts⟩ := exists_halts_of_isHalted hhalted
        (fun index hentry hcode ↦ (symbol_of_step hentry hcode hstep).1)
        (fun index instruction hentry hinstruction ↦
          (reaches_of_step hentry hinstruction hstep).1)
      rw [hhalts.step] at hstep
      cases hstep
      rfl
    · rintro rfl
      exact isHalted_of_step hhalted hstep
  · intro haddressable hvalid hread
    obtain ⟨halted, hhalted⟩ := exists_isHalted_of_validate hvalid
    refine ⟨halted, hhalted, ?_, fun ⟨after, hstep⟩ ↦ isHalted_of_step hhalted hstep⟩
    rintro rfl
    obtain ⟨after, hhalts⟩ := exists_halts_of_isHalted hhalted (fun index hentry hcode ↦ hread)
      (fun index instruction hentry hinstruction ↦ haddressable.reaches hentry (by decide))
    exact ⟨after, hhalts.step⟩

/-- The machine of the table without states says that it is halted, and its step finds it so. -/
theorem isHalted_foretells_step_empty_table :
    ∃ machine after, ofTable [] 16 = .ok machine ∧ machine.isHalted = .ok true ∧
      Action.step machine = .ok .halted after ∧
      ∀ halted, machine.isHalted = .ok halted → halted = true := by
  obtain ⟨machine, hmachine⟩ :=
    exists_eq_ok_of_toBool (show (ofTable [] 16).toBool = true from rfl)
  obtain ⟨⟨rules, hstate⟩, hpointer, hhead⟩ := halts_of_ofTable_nil hmachine
  obtain ⟨hbuilt, -⟩ := built_of_ofTable hmachine
  have hread : machine.symbolUnderHead = .ok .blank :=
    (symbolUnderHead_of_head hhead).trans (hbuilt.cell 0 (head_eq_ok_iff.mp hhead).2)
  have hhalted : machine.isHalted = .ok true := by
    rw [isHalted_of_stateAt hstate, decide_eq_true hpointer]
  obtain ⟨hagree, hfound⟩ := isHalted_foretells_step machine
  obtain ⟨halted, hsaid, hiff⟩ :=
    hfound hbuilt.addressable (validate_of_ofTable hmachine) ⟨_, hread⟩
  rw [hhalted] at hsaid
  obtain ⟨after, hstep⟩ := hiff.mp (Except.ok.inj hsaid).symm
  exact ⟨machine, after, hmachine, hhalted, hstep,
    fun halted hother ↦ (hagree halted .halted after hother hstep).mpr rfl⟩

end Machine

end TapeMachine
