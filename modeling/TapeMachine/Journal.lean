import TapeMachine.Catalog
import TapeMachine.Execution.Run
import TapeMachine.Table.Generator

/-!
# The journal

Building, loading, saving and running machines leaves notes behind. A note is data, and `Note.text`
is its wording; `Noting` is a computation that may fail and keeps the notes it has made until then.
-/

set_option autoImplicit false

namespace TapeMachine

/-- How much a note matters. -/
inductive Level where
  | info
  | warning
  | detail
  deriving DecidableEq

def Level.name : Level → String
  | info => "INFO"
  | warning => "WARN"
  | detail => "DEBUG"

/-- Something worth noting. -/
inductive Note where
  | builtTable (states : Nat) (regions : Regions)
  | drewTable (states : Nat) (seed : UInt64)
  | builtProgram (instructions : Nat)
  | loaded (regions : Regions)
  | saved (size : Nat) (path : String)
  | read (reading : Reading)
  | ended (outcome : Outcome)
  deriving DecidableEq

namespace Note

def level : Note → Level
  | read _ => .detail
  | ended outcome =>
    match outcome.ending with
    | .halted => .info
    | .exhausted => .warning
  | _ => .info

/-- The state of a reading, if there is one. -/
def stateText : Option Nat → String
  | some state => s!"Some({state})"
  | none => "None"

/-- The wording of a note. -/
def text : Note → String
  | builtTable states regions =>
    s!"built a {states}-state machine: {regions.entries} entries, {regions.cells} tape symbols, "
      ++ s!"{regions.size} bytes"
  | drewTable states seed => s!"generated a random {states}-state table from seed {seed}"
  | builtProgram instructions => s!"built a {instructions}-instruction program"
  | loaded regions =>
    s!"loaded a machine of {regions.size} bytes: {regions.entries} entries, "
      ++ s!"{regions.cells} tape symbols"
  | saved size path => s!"saved {size} bytes to {path}"
  | read reading =>
    s!"state {stateText reading.state} reads {reading.symbol.name} at position {reading.position}"
  | ended outcome =>
    match outcome.ending with
    | .halted =>
      s!"halted after {outcome.steps} steps and {outcome.transitions} transitions"
    | .exhausted =>
      s!"no halt within {outcome.steps} steps ({outcome.transitions} transitions)"

/-- A note after its level, as it stands in a journal. -/
def line (note : Note) : String := note.level.name ++ " " ++ note.text

end Note

/-- A computation that makes notes and may fail. -/
abbrev Noting (ε : Type) := EStateM ε (Array Note)

namespace Noting

variable {ε α σ : Type}

/-- Makes a note. -/
def note (note : Note) : Noting ε Unit := modify fun notes ↦ notes.push note

/-- A result that was found without making notes. -/
def result : Except ε α → Noting ε α
  | .ok value => pure value
  | .error error => throw error

/-- Builds the machine of a table. -/
def table (rows : List Row) (cells : Nat) : Noting Fault Machine := do
  let machine ← result (Machine.ofTable rows cells)
  note (.builtTable rows.length machine.regions)
  return machine

/-- Builds the machine of a random table. A table that was drawn is noted also if its machine is
refused. -/
def randomTable (states cells : Nat) (seed : UInt64) : Noting RandomFailure Machine :=
  match Machine.ofSeed states cells seed with
  | .error .overflow => throw .overflow
  | .error (.refused fault) => do
    note (.drewTable states seed)
    throw (.refused fault)
  | .ok machine => do
    note (.drewTable states seed)
    note (.builtTable states machine.regions)
    return machine

/-- Builds the machine of a program. -/
def program (program : List Instruction) (cells : Nat) : Noting Fault Machine := do
  let machine ← result (Machine.ofProgram program cells)
  note (.builtProgram program.length)
  return machine

/-- Builds a ready-made machine with an input on its tape. -/
def catalog (item : Catalog) (input : TapeInput) : Noting Fault Machine := do
  let machine ← table item.rows Catalog.cells
  result (machine.after (Action.place input.text input.position input.head))

/-- Loads the machine with an image. -/
def image (image : Buffer) : Noting ImageError Machine := do
  let machine ← result (Machine.ofImage image)
  note (.loaded machine.regions)
  return machine

/-- Takes a step of a machine; a transition is noted. -/
def step (machine : Machine) : EStateM.Result Fault Machine Step × Array Note :=
  match Action.step machine with
  | .ok (.transition reading) after => (.ok (.transition reading) after, #[.read reading])
  | other => (other, #[])

/-- An observer that notes every transition before it looks at it. -/
def observer (observe : Observer σ) : Observer (Array Note × σ) :=
  fun transition reading machine (notes, record) ↦
    match observe transition reading machine record with
    | .ok () record => .ok () (notes.push (.read reading), record)
    | .error fault record => .error fault (notes.push (.read reading), record)

/-- Runs a machine; every transition and the end of the run are noted. -/
def run (observe : Observer σ) (budget : Nat) (machine : Machine) (record : σ) :
    Run σ × Array Note :=
  let run := machine.runWith (observer observe) budget (#[], record)
  let notes := match run.result with
    | .ok outcome => run.record.1.push (.ended outcome)
    | .error _ => run.record.1
  ({ result := run.result, machine := run.machine, record := run.record.2 }, notes)

end Noting

end TapeMachine
