import TapeMachine.Execution.Run
import TapeMachine.Proofs.Machine.Access

/-!
# Runs

What every step keeps is kept by a run (`runFrom_keeps`), and an observer that does not fail leaves
a run as it is (`runFrom_of_observes`). `Executes count machine last` says that a number of steps
from one machine to another each perform an instruction, from a machine that is not halted. A run
with budget enough goes through all of them, and a run with less ends among them, its budget used
up. `answers` and `afterSteps` are what any number of steps answer and where they lead, faults or
not.
-/

set_option autoImplicit false

namespace TapeMachine.Machine

-- What a step does inside does not matter here, and unification should not find out.
attribute [local irreducible] Action.step haltsNow

section Run

variable {σ : Type} (observe : Observer σ) (budget steps transitions : Nat) (record : σ)

/-! ### One step of a run -/

theorem runFrom_zero (machine : Machine) :
    runFrom observe 0 steps transitions machine record =
      { result := machine.haltsNow.map fun halted ↦
          { ending := if halted then .halted else .exhausted
            steps := steps
            transitions := transitions }
        machine := machine
        record := record } := rfl

private theorem runFrom_succ (machine : Machine) :
    runFrom observe (budget + 1) steps transitions machine record =
      match Action.step machine with
      | .error fault machine => { result := .error fault, machine := machine, record := record }
      | .ok .halted machine =>
        { result := .ok { ending := .halted, steps := steps, transitions := transitions }
          machine := machine
          record := record }
      | .ok (.executed _) machine =>
        runFrom observe budget (steps + 1) transitions machine record
      | .ok (.transition reading) machine =>
        match observe (transitions + 1) reading machine record with
        | .error fault record => { result := .error fault, machine := machine, record := record }
        | .ok () record =>
          runFrom observe budget (steps + 1) (transitions + 1) machine record := rfl

variable {machine after : Machine}

theorem runFrom_of_error {fault : Fault} (hstep : Action.step machine = .error fault after) :
    runFrom observe (budget + 1) steps transitions machine record =
      { result := .error fault, machine := after, record := record } := by
  rw [runFrom_succ, hstep]

theorem runFrom_of_halted (hstep : Action.step machine = .ok .halted after) :
    runFrom observe (budget + 1) steps transitions machine record =
      { result := .ok { ending := .halted, steps := steps, transitions := transitions }
        machine := after
        record := record } := by
  rw [runFrom_succ, hstep]

theorem runFrom_of_executed {opcode : Opcode}
    (hstep : Action.step machine = .ok (.executed opcode) after) :
    runFrom observe (budget + 1) steps transitions machine record =
      runFrom observe budget (steps + 1) transitions after record := by
  rw [runFrom_succ, hstep]

/-- A transition is told to the observer, and the run goes on if it does not fail. -/
theorem runFrom_of_transition {reading : Reading} {seen : σ}
    (hstep : Action.step machine = .ok (.transition reading) after)
    (hobserve : observe (transitions + 1) reading after record = .ok () seen) :
    runFrom observe (budget + 1) steps transitions machine record =
      runFrom observe budget (steps + 1) (transitions + 1) after seen := by
  rw [runFrom_succ, hstep]
  dsimp only
  rw [hobserve]

theorem runFrom_of_refused {reading : Reading} {fault : Fault} {seen : σ}
    (hstep : Action.step machine = .ok (.transition reading) after)
    (hobserve : observe (transitions + 1) reading after record = .error fault seen) :
    runFrom observe (budget + 1) steps transitions machine record =
      { result := .error fault, machine := after, record := seen } := by
  rw [runFrom_succ, hstep]
  dsimp only
  rw [hobserve]

end Run

/-! ### Runs that nobody observes -/

/-- The observer that no run is ended by. -/
def silent : Observer Unit := fun _ _ _ ↦ pure ()

theorem run_eq_runFrom (machine : Machine) (budget : Nat) :
    machine.run budget = runFrom silent budget 0 0 machine () := rfl

/-- What every step keeps, also one that fails, is kept by a run. -/
theorem runFrom_keeps {invariant : Machine → Prop}
    (hkeeps : ∀ machine, invariant machine → invariant (Action.step.leaves machine))
    {machine : Machine} (hmachine : invariant machine) (budget steps transitions : Nat) :
    invariant (runFrom silent budget steps transitions machine ()).machine := by
  induction budget generalizing machine steps transitions with
  | zero => exact hmachine
  | succ budget ih =>
    have hafter := hkeeps machine hmachine
    cases hstep : Action.step machine with
    | error fault after =>
      rw [Action.leaves_of_error hstep] at hafter
      rw [runFrom_of_error silent budget steps transitions () hstep]
      exact hafter
    | ok result after =>
      rw [Action.leaves_of_ok hstep] at hafter
      cases result with
      | halted =>
        rw [runFrom_of_halted silent budget steps transitions () hstep]
        exact hafter
      | executed opcode =>
        rw [runFrom_of_executed silent budget steps transitions () hstep]
        exact ih hafter _ _
      | transition reading =>
        rw [runFrom_of_transition silent budget steps transitions () hstep rfl]
        exact ih hafter _ _

/-- An observer that does not fail on any transition of a run changes nothing of it. -/
theorem runFrom_of_observes {σ : Type} {observe : Observer σ} {invariant : Machine → Prop}
    (hkeeps : ∀ machine, invariant machine → invariant (Action.step.leaves machine))
    (hobserves : ∀ machine reading after, invariant machine →
      Action.step machine = .ok (.transition reading) after →
      ∀ transition record, ∃ seen, observe transition reading after record = .ok () seen)
    {machine : Machine} (hmachine : invariant machine) (budget steps transitions : Nat)
    (record : σ) :
    (runFrom observe budget steps transitions machine record).result =
        (runFrom silent budget steps transitions machine ()).result ∧
      (runFrom observe budget steps transitions machine record).machine =
        (runFrom silent budget steps transitions machine ()).machine := by
  induction budget generalizing machine steps transitions record with
  | zero => exact ⟨rfl, rfl⟩
  | succ budget ih =>
    have hafter := hkeeps machine hmachine
    cases hstep : Action.step machine with
    | error fault after =>
      rw [runFrom_of_error observe budget steps transitions record hstep,
        runFrom_of_error silent budget steps transitions () hstep]
      exact ⟨rfl, rfl⟩
    | ok result after =>
      rw [Action.leaves_of_ok hstep] at hafter
      cases result with
      | halted =>
        rw [runFrom_of_halted observe budget steps transitions record hstep,
          runFrom_of_halted silent budget steps transitions () hstep]
        exact ⟨rfl, rfl⟩
      | executed opcode =>
        rw [runFrom_of_executed observe budget steps transitions record hstep,
          runFrom_of_executed silent budget steps transitions () hstep]
        exact ih hafter _ _ _
      | transition reading =>
        obtain ⟨seen, hseen⟩ :=
          hobserves machine reading after hmachine hstep (transitions + 1) record
        rw [runFrom_of_transition observe budget steps transitions record hstep hseen,
          runFrom_of_transition silent budget steps transitions () hstep rfl]
        exact ih hafter _ _ _

/-! ### Many instructions -/

/-- A number of steps that all perform an instruction, on machines that are not halted. -/
inductive Executes : Nat → Machine → Machine → Prop where
  | done (machine : Machine) : Executes 0 machine machine
  | step {count : Nat} {machine next last : Machine} {opcode : Opcode}
    (hrunning : machine.haltsNow = .ok false)
    (hstep : Action.step machine = .ok (.executed opcode) next)
    (hrest : Executes count next last) : Executes (count + 1) machine last

namespace Executes

variable {σ : Type} {count : Nat} {machine last : Machine}

/-- A run with budget enough is at the last machine after that many steps. -/
theorem runFrom_add (h : Executes count machine last) (observe : Observer σ)
    (budget steps transitions : Nat) (record : σ) :
    runFrom observe (count + budget) steps transitions machine record =
      runFrom observe budget (steps + count) transitions last record := by
  induction h generalizing steps with
  | done machine => rw [Nat.zero_add, Nat.add_zero]
  | step hrunning hstep hrest ih =>
    rw [Nat.add_right_comm, runFrom_of_executed observe _ _ _ _ hstep, ih, Nat.add_assoc,
      Nat.add_comm 1]

/-- A run without budget for all the steps ends among them. -/
theorem runFrom_of_lt (h : Executes count machine last) (observe : Observer σ) {budget : Nat}
    (hbudget : budget < count) (steps transitions : Nat) (record : σ) :
    (runFrom observe budget steps transitions machine record).result =
      .ok { ending := .exhausted, steps := steps + budget, transitions := transitions } := by
  induction h generalizing budget steps with
  | done machine => exact absurd hbudget (Nat.not_lt_zero _)
  | step hrunning hstep hrest ih =>
    cases budget with
    | zero =>
      rw [runFrom_zero, hrunning]
      rfl
    | succ budget =>
      rw [runFrom_of_executed observe _ _ _ _ hstep, ih (Nat.lt_of_succ_lt_succ hbudget),
        Nat.add_assoc, Nat.add_comm 1]

end Executes

/-! ### Many steps -/

/-- The machine after a number of steps, going on after faults. -/
def afterSteps (machine : Machine) : Nat → Machine
  | 0 => machine
  | count + 1 => afterSteps (Action.step.leaves machine) count

/-- What a number of steps answer, going on after faults. -/
def answers (machine : Machine) : Nat → List (Except Fault Step)
  | 0 => []
  | count + 1 => Action.step.answer machine :: answers (Action.step.leaves machine) count

variable {machine after : Machine}

/-- What the first of some steps answers, and what the others answer on the machine it leaves. -/
theorem answers_of_ok {result : Step} (hstep : Action.step machine = .ok result after)
    (count : Nat) : machine.answers (count + 1) = .ok result :: after.answers count := by
  rw [answers, Action.answer_of_ok hstep, Action.leaves_of_ok hstep]

theorem afterSteps_of_ok {result : Step} (hstep : Action.step machine = .ok result after)
    (count : Nat) : machine.afterSteps (count + 1) = after.afterSteps count := by
  rw [afterSteps, Action.leaves_of_ok hstep]

theorem answers_of_error {fault : Fault} (hstep : Action.step machine = .error fault after)
    (count : Nat) : machine.answers (count + 1) = .error fault :: after.answers count := by
  rw [answers, Action.answer_of_error hstep, Action.leaves_of_error hstep]

theorem afterSteps_of_error {fault : Fault} (hstep : Action.step machine = .error fault after)
    (count : Nat) : machine.afterSteps (count + 1) = after.afterSteps count := by
  rw [afterSteps, Action.leaves_of_error hstep]

theorem answers_add (machine : Machine) (count more : Nat) :
    machine.answers (count + more) =
      machine.answers count ++ (machine.afterSteps count).answers more := by
  induction count generalizing machine with
  | zero => rw [Nat.zero_add, answers, afterSteps, List.nil_append]
  | succ count ih =>
    rw [Nat.add_right_comm, answers, ih, answers, afterSteps, List.cons_append]

theorem afterSteps_add (machine : Machine) (count more : Nat) :
    machine.afterSteps (count + more) = (machine.afterSteps count).afterSteps more := by
  induction count generalizing machine with
  | zero => rw [Nat.zero_add, afterSteps]
  | succ count ih => rw [Nat.add_right_comm, afterSteps, ih, afterSteps]

/-- The last of some steps is taken on the machine that the others lead to. -/
theorem afterSteps_succ (machine : Machine) (count : Nat) :
    machine.afterSteps (count + 1) = Action.step.leaves (machine.afterSteps count) :=
  machine.afterSteps_add count 1

/-- A machine whose steps fail and leave it failing answers with the same fault from then on. -/
theorem answers_of_fails {invariant : Machine → Prop} {fault : Fault}
    (hfails : ∀ machine, invariant machine →
      ∃ after, Action.step machine = .error fault after ∧ invariant after)
    (hmachine : invariant machine) (count : Nat) :
    machine.answers count = List.replicate count (.error fault) ∧
      invariant (machine.afterSteps count) := by
  induction count generalizing machine with
  | zero => exact ⟨rfl, hmachine⟩
  | succ count ih =>
    obtain ⟨after, hstep, hafter⟩ := hfails machine hmachine
    rw [answers_of_error hstep, afterSteps_of_error hstep, List.replicate_succ, (ih hafter).1]
    exact ⟨rfl, (ih hafter).2⟩

/-- Steps that all perform an instruction lead to where they lead. -/
theorem Executes.afterSteps_eq {count : Nat} {machine last : Machine}
    (hexecutes : Executes count machine last) : machine.afterSteps count = last := by
  induction hexecutes with
  | done machine => rfl
  | step hrunning hstep hrest ih => rw [afterSteps_of_ok hstep, ih]

end TapeMachine.Machine
