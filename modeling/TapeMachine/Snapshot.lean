import TapeMachine.Execution.Run
import TapeMachine.Text.Numeral

/-!
# Snapshots

A snapshot shows the configuration of a machine in three lines: the tape from its highest cell
down with the number of the step, a caret under the head, and the state under the caret.
`Machine.runShown` is a run that takes a snapshot before every transition and one at the end.
-/

set_option autoImplicit false

namespace TapeMachine

/-- The configuration of a machine, as it is shown. The column of the head counts cells from the
left. -/
structure Snapshot where
  symbols : List Symbol
  column : Nat
  state : Option Nat
  step : Nat
  deriving DecidableEq

namespace Snapshot

/-- The snapshot of a machine, labelled with a step. -/
def capture (machine : Machine) (step : Nat) : Except Fault Snapshot := do
  let position ← machine.head
  let symbols ← machine.tape
  return { symbols := symbols
           column := machine.cellCount - 1 - position
           state := machine.activeState
           step := step }

/-- Cells are separated by bars. -/
def cellsText (symbols : List Symbol) : List Char :=
  (symbols.map Symbol.toChar).intersperse '|'

/-- A cell and its bar are two characters wide. -/
def indent (snapshot : Snapshot) : List Char :=
  List.replicate (2 * snapshot.column) ' '

def stateText : Option Nat → List Char
  | some state => Text.digits state
  | none => ['?']

/-- The characters of the three lines, with a line feed after the first two. -/
def characters (snapshot : Snapshot) : List Char :=
  cellsText snapshot.symbols ++ [' ', ' ', ' ', ' ', ':'] ++ Text.digits snapshot.step ++ ['\n']
    ++ snapshot.indent ++ ['^', '\n']
    ++ snapshot.indent ++ stateText snapshot.state

def text (snapshot : Snapshot) : String := String.ofList snapshot.characters

/-- Takes a snapshot of each transition, labelled with the number of transitions before it. -/
def observer : Observer (Array Snapshot) := fun transition _ machine snapshots ↦
  match capture machine (transition - 1) with
  | .ok snapshot => .ok () (snapshots.push snapshot)
  | .error fault => .error fault snapshots

end Snapshot

/-- Ends a run with a snapshot, labelled with the number of its transitions. A run whose last
snapshot cannot be taken fails. -/
def Run.addLast (run : Run (Array Snapshot)) : Run (Array Snapshot) :=
  match run.result with
  | .error _ => run
  | .ok outcome =>
    match Snapshot.capture run.machine outcome.transitions with
    | .ok snapshot => { run with record := run.record.push snapshot }
    | .error fault => { run with result := .error fault }

/-- A run that shows a snapshot before every transition and one at its end. -/
def Machine.runShown (machine : Machine) (budget : Nat) : Run (Array Snapshot) :=
  (machine.runWith Snapshot.observer budget #[]).addLast

end TapeMachine
