import TapeMachine.Proofs.Table.Build

/-!
# Simulation of a Turing machine

A machine that carries a table shows a configuration if its instruction pointer, head field and
cells are those of the configuration. Such a machine does what the Turing machine of the table does:
thirty-one steps of it are one step there (`Shows.step`), and where the Turing machine stops it
halts or fails. `runFrom_of_stopsAt` and `runFrom_of_not_seen` carry this over to runs with any
budget.
-/

set_option autoImplicit false

namespace TapeMachine

attribute [local irreducible] Buffer.setWord Buffer.setSlot

open TapeMachine.Turing

namespace Machine

/-- Whether a machine of a table is in a configuration. -/
structure Shows (rows : List Row) (configuration : Configuration) (machine : Machine) : Prop where
  carries : machine.Carries rows
  state : configuration.state ≤ rows.length
  pointer : machine.pointer = Offset.ofState configuration.state
  headAt : machine.HeadAt configuration.head
  cell : ∀ position < machine.cellCount,
    machine.cell position = .ok (configuration.tape position)

variable {rows : List Row} {configuration : Configuration} {machine other : Machine}

namespace Shows

theorem of_agrees (hagrees : other.Agrees machine) (hshows : machine.Shows rows configuration) :
    other.Shows rows configuration := by
  refine ⟨hshows.carries.of_sameProgram hagrees.symm.sameProgram, hshows.state, ?_, ?_, ?_⟩
  · rw [hagrees.pointer, hshows.pointer]
  · unfold HeadAt
    rw [hagrees.headField]
    exact hshows.headAt
  · intro position hposition
    rw [hagrees.cell, hshows.cell position (hagrees.cellCount ▸ hposition)]

/-- The state of a configuration is a state of the program. -/
theorem stateAt (hshows : machine.Shows rows configuration) :
    ∃ rules, machine.StateAt machine.pointer rules := by
  have hlt : configuration.state < (Row.halt :: rows).length := by
    have hstate := hshows.state
    rw [List.length_cons]
    omega
  rw [hshows.pointer]
  exact ⟨_, hshows.carries.stateAt (List.getElem?_eq_getElem hlt)⟩

theorem pointer_eq_halt_iff (hshows : machine.Shows rows configuration) :
    machine.pointer = Offset.halt ↔ configuration.state = 0 := by
  rw [hshows.pointer]
  exact hshows.carries.ofState_eq_halt_iff hshows.state

theorem head_of_onTape (hshows : machine.Shows rows configuration)
    (hon : configuration.OnTape machine.cellCount) :
    machine.head = .ok configuration.head.toNat := by
  rw [head_of_headAt hshows.headAt]
  exact if_pos hon

theorem cell_of_onTape (hshows : machine.Shows rows configuration)
    (hon : configuration.OnTape machine.cellCount) :
    machine.cell configuration.head.toNat = .ok (configuration.tape configuration.head) := by
  obtain ⟨hnonneg, hlt⟩ := hon
  rw [hshows.cell _ (by omega), Int.toNat_of_nonneg hnonneg]

theorem symbolUnderHead_of_onTape (hshows : machine.Shows rows configuration)
    (hon : configuration.OnTape machine.cellCount) :
    machine.symbolUnderHead = .ok (configuration.tape configuration.head) :=
  symbolUnderHead_eq_ok_iff.mpr ⟨_, hshows.head_of_onTape hon, hshows.cell_of_onTape hon⟩

theorem tape_eq (hshows : machine.Shows rows configuration) :
    machine.tape =
      .ok ((List.range machine.cellCount).reverse.map fun position : Nat ↦
        configuration.tape position) :=
  tape_of_cell hshows.cell

theorem head_of_not_onTape (hshows : machine.Shows rows configuration)
    (hoff : ¬ configuration.OnTape machine.cellCount) :
    machine.head = .error (.offTape configuration.head machine.cellCount) := by
  rw [head_of_headAt hshows.headAt]
  exact if_neg hoff

/-! ### Where the Turing machine stops -/

/-- With the head off the tape every step fails, and nothing changes but registers. -/
theorem step_of_not_onTape (hshows : machine.Shows rows configuration)
    (hoff : ¬ configuration.OnTape machine.cellCount) :
    ∃ after, Action.step machine = .error (.offTape configuration.head machine.cellCount) after ∧
      after.Shows rows configuration := by
  obtain ⟨rules, hstate⟩ := hshows.stateAt
  have hread := symbolUnderHead_of_head_error (hshows.head_of_not_onTape hoff)
  exact ⟨_, step_of_stateAt_error hshows.carries.program.addressable hstate hread,
    hshows.of_agrees (machine.fetchedOpcode_agrees _)⟩

/-- In the halt state with the head on the tape the machine is halted. -/
theorem step_of_halt (hshows : machine.Shows rows configuration)
    (hon : configuration.OnTape machine.cellCount) (hhalt : configuration.state = 0) :
    ∃ after, Action.step machine = .ok .halted after ∧ after.Shows rows configuration := by
  obtain ⟨rules, hstate⟩ := hshows.stateAt
  exact ⟨_, step_of_stateAt_halt hshows.carries.program.addressable hstate
    (hshows.symbolUnderHead_of_onTape hon) (hshows.pointer_eq_halt_iff.mpr hhalt),
    hshows.of_agrees (machine.fetchedOpcode_agrees _)⟩

/-- What a used-up budget makes of a machine: in the halt state its head is checked. -/
theorem haltsNow_eq (hshows : machine.Shows rows configuration) :
    machine.haltsNow =
      if configuration.state = 0 then machine.head.map fun _ ↦ true else .ok false := by
  obtain ⟨rules, hstate⟩ := hshows.stateAt
  rw [haltsNow_of_stateAt hstate]
  by_cases hhalt : configuration.state = 0
  · rw [if_pos hhalt, if_pos (hshows.pointer_eq_halt_iff.mpr hhalt)]
  · rw [if_neg hhalt, if_neg fun hpointer ↦ hhalt (hshows.pointer_eq_halt_iff.mp hpointer)]

/-! ### Where it goes on -/

/-- A state that is not the halt state has a row in the table, and the next step of the Turing
machine is by its rule for the symbol under the head. -/
theorem exists_row (hshows : machine.Shows rows configuration)
    (hon : configuration.OnTape machine.cellCount) (hstate : configuration.state ≠ 0) :
    ∃ row ∈ rows, machine.StateAt machine.pointer (row.map (Rule.map Offset.ofState)) ∧
      configuration.step? rows machine.cellCount =
        some (configuration.apply (row.get (configuration.tape configuration.head))) := by
  obtain ⟨state, hsucc⟩ := Nat.exists_eq_succ_of_ne_zero hstate
  have hlt : state < rows.length := by
    have hle := hshows.state
    omega
  obtain ⟨row, hrow⟩ : ∃ row, rows[state]? = some row := ⟨_, List.getElem?_eq_getElem hlt⟩
  have hentry : (Row.halt :: rows)[configuration.state]? = some row := by
    rw [hsucc, List.getElem?_cons_succ, hrow]
  have hstateAt := hshows.carries.stateAt hentry
  rw [← hshows.pointer] at hstateAt
  refine ⟨row, List.mem_of_getElem? hrow, hstateAt, ?_⟩
  unfold Configuration.step? Configuration.rule?
  rw [if_pos hon, hsucc]
  simp [hrow]

/-- One step of the Turing machine is a transition and the thirty instructions of a pass. -/
theorem step (hshows : machine.Shows rows configuration)
    (hon : configuration.OnTape machine.cellCount) (hstate : configuration.state ≠ 0) :
    ∃ next reading entered last, configuration.step? rows machine.cellCount = some next ∧
      Action.step machine = .ok (.transition reading) entered ∧ Executes 30 entered last ∧
      last.cellCount = machine.cellCount ∧ last.Shows rows next := by
  obtain ⟨row, hrow, hstateAt, hnext⟩ := hshows.exists_row hon hstate
  obtain ⟨reading, entered, last, hstep, hexecutes, hmoved⟩ :=
    transition hshows.carries.program hstateAt (hshows.head_of_onTape hon)
      (hshows.cell_of_onTape hon) fun hpointer ↦ hstate (hshows.pointer_eq_halt_iff.mp hpointer)
  rw [PerSymbol.get_map] at hmoved
  have hcells := hmoved.sameProgram.cellCount
  refine ⟨_, reading, entered, last, hnext, hstep, hexecutes, hcells,
    hshows.carries.of_sameProgram hmoved.sameProgram.symm, ?_, hmoved.pointer, ?_, ?_⟩
  · exact hshows.carries.next row hrow _
  · have hhead : (configuration.head.toNat : Int) = configuration.head :=
      Int.toNat_of_nonneg hon.1
    have hmovedHead := hmoved.headAt
    rwa [hhead] at hmovedHead
  · intro position hposition
    have htape := hshows.cell position (hcells ▸ hposition)
    have hhead : (configuration.head.toNat : Int) = configuration.head :=
      Int.toNat_of_nonneg hon.1
    rw [hmoved.cell]
    unfold Configuration.apply
    dsimp only
    by_cases hsame : position = configuration.head.toNat
    · rw [if_pos hsame, if_pos (by omega)]
      rfl
    · rw [if_neg hsame, if_neg (by omega), htape]

end Shows

end Machine

/-! ### Runs -/

namespace Turing

/-- Whether the machine of a table stops in a configuration after a number of steps: in the halt
state, or with the head off the tape. It takes no step from there, so that this is the first
configuration of the kind. -/
structure StopsAt (rows : List Row) (cells : Nat) (start : Configuration) (count : Nat)
    (last : Configuration) : Prop where
  steps : start.steps? rows cells count = some last
  stops : last.state = 0 ∨ ¬ last.OnTape cells

/-- Whether a budget of steps is enough to see that the machine of a table stopped. A head off the
tape is only seen by a further step, except in the halt state. -/
def Seen (budget count : Nat) (last : Configuration) : Prop :=
  31 * count < budget ∨ 31 * count = budget ∧ last.state = 0

variable {rows : List Row} {cells : Nat} {start next last : Configuration} {count : Nat}

theorem stopsAt_zero_iff :
    StopsAt rows cells start 0 last ↔ start = last ∧ (last.state = 0 ∨ ¬ last.OnTape cells) := by
  constructor
  · rintro ⟨hsteps, hstops⟩
    exact ⟨Option.some.inj hsteps, hstops⟩
  · rintro ⟨rfl, hstops⟩
    exact ⟨rfl, hstops⟩

theorem steps?_succ_of_step (hnext : start.step? rows cells = some next) (count : Nat) :
    start.steps? rows cells (count + 1) = next.steps? rows cells count := by
  rw [Configuration.steps?, hnext, Option.bind_some]

theorem stopsAt_succ_iff (hnext : start.step? rows cells = some next) :
    StopsAt rows cells start (count + 1) last ↔ StopsAt rows cells next count last := by
  have hsteps := steps?_succ_of_step hnext count
  constructor
  · rintro ⟨hlast, hstops⟩
    exact ⟨hsteps ▸ hlast, hstops⟩
  · rintro ⟨hlast, hstops⟩
    exact ⟨hsteps ▸ hlast, hstops⟩

/-- There is no step from where the machine stops. -/
theorem step?_eq_none_of_stops (hstops : start.state = 0 ∨ ¬ start.OnTape cells) :
    start.step? rows cells = none := by
  unfold Configuration.step?
  by_cases hon : start.OnTape cells
  · have hhalt : start.state = 0 := hstops.resolve_right fun hoff ↦ hoff hon
    rw [if_pos hon]
    unfold Configuration.rule?
    rw [hhalt]
    rfl
  · rw [if_neg hon]

/-- A machine that stops later has not stopped yet. -/
theorem StopsAt.going (hstops : StopsAt rows cells start (count + 1) last) :
    start.OnTape cells ∧ start.state ≠ 0 := by
  have hsome := hstops.steps
  rw [Configuration.steps?] at hsome
  refine ⟨Decidable.byContradiction fun hoff ↦ ?_, fun hhalt ↦ ?_⟩
  · rw [step?_eq_none_of_stops (Or.inr hoff)] at hsome
    cases hsome
  · rw [step?_eq_none_of_stops (Or.inl hhalt)] at hsome
    cases hsome

/-- What is not seen with a budget is not seen from the next configuration with what is left of it
after a transition. -/
theorem not_seen_of_step (hnext : start.step? rows cells = some next) {budget : Nat}
    (hbudget : 31 ≤ budget)
    (hunseen : ∀ count last, StopsAt rows cells start count last → ¬ Seen budget count last)
    (hstops : StopsAt rows cells next count last) : ¬ Seen (budget - 31) count last := by
  intro hseen
  refine hunseen (count + 1) last ((stopsAt_succ_iff hnext).mpr hstops) ?_
  unfold Seen at hseen ⊢
  omega

/-- What a run reports of the configuration in which the machine stopped, after a number of steps
and transitions. -/
def report (cells steps transitions : Nat) (last : Configuration) : Except Fault Outcome :=
  if last.OnTape cells then
    .ok { ending := .halted, steps := steps, transitions := transitions }
  else .error (.offTape last.head cells)

end Turing

namespace Machine

variable {rows : List Row} {configuration last : Configuration} {machine : Machine}

namespace Shows

/-- A run goes through a transition in thirty-one steps, or ends on its way if the budget is used
up. -/
theorem runFrom_transition (hshows : machine.Shows rows configuration)
    (hon : configuration.OnTape machine.cellCount) (hstate : configuration.state ≠ 0) :
    ∃ next after, configuration.step? rows machine.cellCount = some next ∧
      after.cellCount = machine.cellCount ∧ after.Shows rows next ∧
      ∀ budget steps transitions,
        (31 ≤ budget → runFrom silent budget steps transitions machine () =
          runFrom silent (budget - 31) (steps + 31) (transitions + 1) after ()) ∧
        (0 < budget → budget < 31 → (runFrom silent budget steps transitions machine ()).result =
          .ok { ending := .exhausted
                steps := steps + budget
                transitions := transitions + 1 }) := by
  obtain ⟨next, reading, entered, after, hnext, hstep, hexecutes, hcells, hafter⟩ :=
    hshows.step hon hstate
  have hentered : ∀ budget steps transitions,
      runFrom silent (budget + 1) steps transitions machine () =
        runFrom silent budget (steps + 1) (transitions + 1) entered () :=
    fun budget steps transitions ↦ runFrom_of_transition silent _ _ _ _ hstep rfl
  refine ⟨next, after, hnext, hcells, hafter, fun budget steps transitions ↦ ⟨?_, ?_⟩⟩
  · intro hbudget
    obtain ⟨rest, rfl⟩ := Nat.exists_eq_add_of_le hbudget
    rw [show 31 + rest = 30 + rest + 1 by omega, hentered, hexecutes.runFrom_add,
      show 30 + rest + 1 - 31 = rest by omega]
  · intro hpos hlt
    obtain ⟨rest, rfl⟩ := Nat.exists_eq_succ_of_ne_zero (Nat.ne_of_gt hpos)
    rw [Nat.succ_eq_add_one, hentered, hexecutes.runFrom_of_lt silent (by omega), Nat.add_assoc,
      Nat.add_comm 1]

/-- A run from where the Turing machine has stopped. -/
theorem runFrom_of_stops {budget : Nat} (hshows : machine.Shows rows configuration)
    (hstops : configuration.state = 0 ∨ ¬ configuration.OnTape machine.cellCount)
    (hseen : 0 < budget ∨ configuration.state = 0) (steps transitions : Nat) :
    (runFrom silent budget steps transitions machine ()).result =
        report machine.cellCount steps transitions configuration ∧
      (runFrom silent budget steps transitions machine ()).machine.Shows rows configuration := by
  unfold report
  cases budget with
  | zero =>
    have hhalt : configuration.state = 0 := hseen.resolve_left (Nat.lt_irrefl 0)
    rw [runFrom_zero, hshows.haltsNow_eq, if_pos hhalt]
    refine ⟨?_, hshows⟩
    by_cases hon : configuration.OnTape machine.cellCount
    · rw [if_pos hon, hshows.head_of_onTape hon]
      rfl
    · rw [if_neg hon, hshows.head_of_not_onTape hon]
      rfl
  | succ budget =>
    by_cases hon : configuration.OnTape machine.cellCount
    · obtain ⟨after, hstep, hafter⟩ :=
        hshows.step_of_halt hon (hstops.resolve_right fun hoff ↦ hoff hon)
      rw [runFrom_of_halted silent _ _ _ _ hstep, if_pos hon]
      exact ⟨rfl, hafter⟩
    · obtain ⟨after, hstep, hafter⟩ := hshows.step_of_not_onTape hon
      rw [runFrom_of_error silent _ _ _ _ hstep, if_neg hon]
      exact ⟨rfl, hafter⟩

/-- A run that sees the Turing machine stop reports it, and leaves a machine that shows where it
stopped. -/
theorem runFrom_of_stopsAt {count budget : Nat} (hshows : machine.Shows rows configuration)
    (hstops : StopsAt rows machine.cellCount configuration count last)
    (hseen : Seen budget count last) (steps transitions : Nat) :
    (runFrom silent budget steps transitions machine ()).result =
        report machine.cellCount (steps + 31 * count) (transitions + count) last ∧
      (runFrom silent budget steps transitions machine ()).machine.Shows rows last := by
  unfold Seen at hseen
  induction count generalizing machine configuration budget steps transitions with
  | zero =>
    obtain ⟨rfl, hend⟩ := stopsAt_zero_iff.mp hstops
    exact hshows.runFrom_of_stops hend (by omega) steps transitions
  | succ count ih =>
    obtain ⟨hon, hstate⟩ := hstops.going
    obtain ⟨next, after, hnext, hcells, hafter, hrun⟩ := hshows.runFrom_transition hon hstate
    rw [stopsAt_succ_iff hnext, ← hcells] at hstops
    rw [(hrun budget steps transitions).1 (by omega), ← hcells,
      show steps + 31 * (count + 1) = steps + 31 + 31 * count by omega,
      show transitions + (count + 1) = transitions + 1 + count by omega]
    exact ih hafter hstops (by omega) (steps + 31) (transitions + 1)

/-- A run that does not see the Turing machine stop uses up its budget. -/
theorem runFrom_of_not_seen {budget : Nat} (hshows : machine.Shows rows configuration)
    (hunseen : ∀ count last, StopsAt rows machine.cellCount configuration count last →
      ¬ Seen budget count last) (steps transitions : Nat) :
    (runFrom silent budget steps transitions machine ()).result =
      .ok { ending := .exhausted
            steps := steps + budget
            transitions := transitions + (budget + 30) / 31 } := by
  induction budget using Nat.strongRecOn generalizing machine configuration steps transitions with
  | ind budget ih =>
    by_cases hstops : configuration.state = 0 ∨ ¬ configuration.OnTape machine.cellCount
    · have hnot := hunseen 0 configuration (stopsAt_zero_iff.mpr ⟨rfl, hstops⟩)
      unfold Seen at hnot
      obtain rfl : budget = 0 := by omega
      rw [runFrom_zero, hshows.haltsNow_eq, if_neg fun hhalt ↦ hnot (Or.inr ⟨rfl, hhalt⟩)]
      rfl
    · rw [not_or, Decidable.not_not] at hstops
      obtain ⟨hstate, hon⟩ := hstops
      obtain ⟨next, after, hnext, hcells, hafter, hrun⟩ := hshows.runFrom_transition hon hstate
      obtain ⟨hfull, hpartial⟩ := hrun budget steps transitions
      -- The budget ends before the transition, within it or after it.
      rcases Nat.lt_or_ge budget 31 with hlt | hge
      · rcases Nat.eq_zero_or_pos budget with rfl | hpos
        · rw [runFrom_zero, hshows.haltsNow_eq, if_neg hstate]
          rfl
        · rw [hpartial hpos hlt, show (budget + 30) / 31 = 1 by omega]
      · have hrest : ∀ count last, StopsAt rows after.cellCount next count last →
            ¬ Seen (budget - 31) count last := by
          intro count last hlast
          rw [hcells] at hlast
          exact not_seen_of_step hnext hge hunseen hlast
        rw [hfull hge, ih (budget - 31) (by omega) hafter hrest]
        congr 2
        · omega
        · omega

end Shows

end Machine

end TapeMachine
