import TapeMachine.Execution.Step

/-!
# Runs

A run takes steps until the machine halts, a step fails, or the budget of steps is used up; then
the machine counts as halted if the next step would have found it so. An observer is told of every
transition as soon as it has been handed to the microcode. It keeps a record of its own, and ends
the run by failing.
-/

set_option autoImplicit false

namespace TapeMachine

/-- How many steps a run takes if nothing else is said. -/
def defaultBudget : Nat := 10000

/-- How a run that did not fail came to its end. -/
inductive Ending where
  | halted
  | exhausted
  deriving DecidableEq

/-- The end of a run, with the steps it took and the transitions among them. -/
structure Outcome where
  ending : Ending
  steps : Nat
  transitions : Nat
  deriving DecidableEq

/-- What is told of each transition: its number, counted from 1, what the head reads, and the
machine. It may change a record of type `σ`, and may fail. -/
abbrev Observer (σ : Type) := Nat → Reading → Machine → EStateM Fault σ Unit

/-- A finished run: how it ended, the machine it left and the observer's record. -/
structure Run (σ : Type) where
  result : Except Fault Outcome
  machine : Machine
  record : σ

namespace Machine

/-- Whether a machine whose budget is used up counts as halted. In the halt state the head must be
on the tape. -/
def haltsNow (machine : Machine) : Except Fault Bool := do
  if ← machine.isHalted then
    if machine.pointer = Offset.halt then
      let _ ← machine.head
    return true
  else return false

/-- A run with a budget of further steps, after a number of steps and transitions. -/
def runFrom {σ : Type} (observe : Observer σ) :
    (budget steps transitions : Nat) → Machine → σ → Run σ
  | 0, steps, transitions, machine, record =>
    let result := machine.haltsNow.map fun halted ↦
      { ending := if halted then .halted else .exhausted
        steps := steps
        transitions := transitions }
    { result := result, machine := machine, record := record }
  | budget + 1, steps, transitions, machine, record =>
    match Action.step machine with
    | .error fault machine => { result := .error fault, machine := machine, record := record }
    | .ok .halted machine =>
      { result := .ok { ending := .halted, steps := steps, transitions := transitions }
        machine := machine
        record := record }
    | .ok (.executed _) machine =>
      runFrom observe budget (steps + 1) transitions machine record
    | .ok (.transition reading) machine =>
      match observe (transitions + 1) reading machine record with
      | .error fault record => { result := .error fault, machine := machine, record := record }
      | .ok () record =>
        runFrom observe budget (steps + 1) (transitions + 1) machine record

/-- A run with an observer. -/
def runWith {σ : Type} (observe : Observer σ) (budget : Nat) (machine : Machine) (record : σ) :
    Run σ :=
  runFrom observe budget 0 0 machine record

/-- A run that nobody observes. -/
def run (machine : Machine) (budget : Nat) : Run Unit :=
  runWith (fun _ _ _ ↦ pure ()) budget machine ()

end Machine

end TapeMachine
