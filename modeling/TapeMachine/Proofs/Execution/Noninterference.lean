import TapeMachine.Proofs.Table.Build

/-!
# Registers are scratch space

Two machines of the same table with the same tape take the same steps, whatever is in their
registers: no instruction of the fetch or of the microcode reads a register that was not written
before it in the same pass. `Lockstep` relates two such machines, either both on a state or both at
the same instruction of the same pass, and every step keeps it, also one that fails.
-/

set_option autoImplicit false

namespace TapeMachine

attribute [local irreducible] Buffer.setWord Buffer.setSlot

namespace Machine

/-- Machines of a table that differ in their registers at most, and of which neither register that
is still needed differs. -/
structure Lockstep (machine other : Machine) : Prop where
  agrees : machine.Agrees other
  tabled : machine.Tabled
  phase : (∃ rules, machine.StateAt machine.pointer rules) ∨
    ∃ pass : Pass, ∃ k, pass.Ongoing k machine ∧ pass.Ongoing k other

variable {machine other : Machine}

/-- Machines that stay on their state stay in lockstep. -/
theorem lockstep_of_agrees (hagrees : machine.Agrees other) (htabled : machine.Tabled)
    {rules : StateRules} (hstate : machine.StateAt machine.pointer rules)
    {after otherAfter : Machine} (hafter : after.Agrees machine)
    (hotherAfter : otherAfter.Agrees other) :
    after.Lockstep otherAfter := by
  have hsame := hafter.symm.sameProgram
  refine ⟨hafter.trans (hagrees.trans hotherAfter.symm), hsame.tabled htabled, Or.inl ⟨rules, ?_⟩⟩
  rw [hafter.pointer]
  exact hstate.of_sameProgram hsame htabled.program.addressable

/-- A machine on a state looks at nothing but its program and its tape. -/
theorem lockstep_step_of_stateAt (hagrees : machine.Agrees other) (htabled : machine.Tabled)
    {rules : StateRules} (hstate : machine.StateAt machine.pointer rules) :
    Action.step.answer machine = Action.step.answer other ∧
      (Action.step.leaves machine).Lockstep (Action.step.leaves other) := by
  have haddressable := htabled.program.addressable
  have hotherAddressable := hagrees.addressable haddressable
  have hother : other.StateAt other.pointer rules := by
    rw [← hagrees.pointer]
    exact hstate.of_sameProgram hagrees.sameProgram haddressable
  have hstuck := lockstep_of_agrees hagrees htabled hstate
    (machine.fetchedOpcode_agrees Opcode.transition.code)
    (other.fetchedOpcode_agrees Opcode.transition.code)
  cases hread : machine.symbolUnderHead with
  | error fault =>
    have hstep := step_of_stateAt_error haddressable hstate hread
    have hotherStep := step_of_stateAt_error hotherAddressable hother
      (hagrees.symbolUnderHead ▸ hread)
    rw [Action.answer_of_error hstep, Action.answer_of_error hotherStep,
      Action.leaves_of_error hstep, Action.leaves_of_error hotherStep]
    exact ⟨rfl, hstuck⟩
  | ok symbol =>
    have hotherRead := hagrees.symbolUnderHead ▸ hread
    by_cases hhalt : machine.pointer = Offset.halt
    · have hstep := step_of_stateAt_halt haddressable hstate hread hhalt
      have hotherStep := step_of_stateAt_halt hotherAddressable hother hotherRead
        (hagrees.pointer ▸ hhalt)
      rw [Action.answer_of_ok hstep, Action.answer_of_ok hotherStep,
        Action.leaves_of_ok hstep, Action.leaves_of_ok hotherStep]
      exact ⟨rfl, hstuck⟩
    · obtain ⟨position, hhead, hcell⟩ := symbolUnderHead_eq_ok_iff.mp hread
      obtain ⟨after, hstep, hafter, hruns⟩ :=
        step_of_stateAt haddressable hstate hhead hcell hhalt
      obtain ⟨otherAfter, hotherStep, hotherAfter, hotherRuns⟩ :=
        step_of_stateAt hotherAddressable hother (hagrees.head ▸ hhead)
          (hagrees.cell position ▸ hcell) (hagrees.pointer ▸ hhalt)
      rw [Action.answer_of_ok hstep, Action.answer_of_ok hotherStep,
        Action.leaves_of_ok hstep, Action.leaves_of_ok hotherStep, hagrees.pointer]
      have hboth :=
        hafter.trans ((hagrees.setWord machine.one_lt_wordCount _).trans hotherAfter.symm)
      have hsame : machine.SameProgram after :=
        ((machine.sameProgram_setWord _ (Or.inl rfl)).symm.trans hafter.symm.sameProgram)
      have hafterState := hstate.of_sameProgram hsame haddressable
      rw [← hagrees.pointer] at hotherRuns
      have hotherState := hafterState.of_sameProgram hboth.sameProgram
        (hsame.addressable haddressable)
      exact ⟨rfl, hboth, hsame.tabled htabled, Or.inr ⟨_, 0,
        ⟨by decide, hruns, rules, hafterState⟩, ⟨by decide, hotherRuns, rules, hotherState⟩⟩⟩

/-- Every step keeps machines in lockstep, and answers the same on both. -/
theorem Lockstep.step (hlockstep : machine.Lockstep other) :
    Action.step.answer machine = Action.step.answer other ∧
      (Action.step.leaves machine).Lockstep (Action.step.leaves other) := by
  obtain ⟨hagrees, htabled, ⟨rules, hstate⟩ | ⟨pass, k, hongoing, hother⟩⟩ := hlockstep
  · exact lockstep_step_of_stateAt hagrees htabled hstate
  · obtain ⟨after, hstep, hafter, hnext, hlast⟩ := hongoing.step htabled
    obtain ⟨otherAfter, hotherStep, hotherAfter, hotherNext, -⟩ :=
      hother.step (hagrees.sameProgram.tabled htabled)
    rw [Action.answer_of_ok hstep, Action.answer_of_ok hotherStep,
      Action.leaves_of_ok hstep, Action.leaves_of_ok hotherStep]
    refine ⟨rfl, ?_, (Pass.sameProgram_of_agrees hafter).symm.tabled htabled, ?_⟩
    · have heffect := (pass.agrees_effect hagrees k).setWord (one_lt_wordCount _)
        (pass.nextPointer k)
      exact hafter.trans (heffect.trans hotherAfter.symm)
    · by_cases hk : k = 29
      · exact Or.inl (hlast hk)
      · exact Or.inr ⟨pass, k + 1, hnext hk, hotherNext hk⟩

/-- Machines in lockstep answer the same to any number of steps and stay in lockstep. -/
theorem Lockstep.answers (hlockstep : machine.Lockstep other) (count : Nat) :
    machine.answers count = other.answers count ∧
      (machine.afterSteps count).Lockstep (other.afterSteps count) := by
  induction count generalizing machine other with
  | zero => exact ⟨rfl, hlockstep⟩
  | succ count ih =>
    obtain ⟨hanswer, hnext⟩ := hlockstep.step
    obtain ⟨hanswers, hafter⟩ := ih hnext
    refine ⟨?_, hafter⟩
    rw [Machine.answers, Machine.answers, hanswer, hanswers]

/-- Machines of a table that compare as equal give the same answers to any number of steps, faults
included, and compare as equal after each of them, whatever their registers hold. -/
theorem steps_ignore_registers (hagrees : machine.agrees other = true)
    (hprogram : machine.Microprogrammed) (hvalid : machine.validate = .ok ()) {rules : StateRules}
    (hstate : machine.StateAt machine.pointer rules) (count : Nat) :
    machine.answers count = other.answers count ∧
      ∀ k ≤ count, (machine.afterSteps k).agrees (other.afterSteps k) = true := by
  have hlockstep : machine.Lockstep other :=
    ⟨(machine.agrees_eq_true_iff other).mp hagrees, tabled_of_validate hprogram hvalid,
      Or.inl ⟨rules, hstate⟩⟩
  refine ⟨(hlockstep.answers count).1, fun k _ ↦ ?_⟩
  exact (agrees_eq_true_iff _ _).mpr (hlockstep.answers k).2.agrees

/-- A machine of a table with one state, and the same machine with another value in a register that
the microcode uses. -/
theorem steps_ignore_registers_single_row :
    ∃ machine,
      ofTable [PerSymbol.ofFun fun _ ↦ { write := .one, move := .right, next := 1 }] 16 =
        .ok machine ∧
      (machine.setRegister 10 7).register 10 = 7 ∧
      machine.answers 100 = (machine.setRegister 10 7).answers 100 := by
  obtain ⟨machine, hmachine⟩ := exists_eq_ok_of_toBool (show (ofTable [PerSymbol.ofFun fun _ ↦
    { write := .one, move := .right, next := 1 }] 16).toBool = true from rfl)
  obtain ⟨rules, hstate⟩ := stateAt_of_ofTable hmachine
  have hagrees : machine.agrees (machine.setRegister 10 7) = true :=
    (agrees_eq_true_iff _ _).mpr ((Agrees.refl machine).setRegister_left 10 7).symm
  refine ⟨machine, hmachine, ?_, ?_⟩
  · rw [register_setRegister, if_pos rfl]
  · exact (steps_ignore_registers hagrees (carries_of_ofTable hmachine).program
      (validate_of_ofTable hmachine) hstate 100).1

end Machine

end TapeMachine
