import TapeMachine.CommandLine.Options
import TapeMachine.Dump
import TapeMachine.Snapshot
import TapeMachine.Storage
import TapeMachine.Table.Generator

/-!
# Sessions of the command line

A session gets a machine, runs it, and stores what has become of it. It needs files, and a seed in
case none is given; all it prints is in its report.
-/

set_option autoImplicit false

namespace TapeMachine.CommandLine

/-- What a session printed, and the code it exits with. -/
structure Report where
  output : String := ""
  errors : String := ""
  exitCode : UInt8 := 0
  deriving DecidableEq

/-- The report of a session whose machine cannot be had. -/
def Report.refused (message : String) : Report :=
  { errors := message ++ "\n", exitCode := 1 }

/-- The report of a session that is aborted because a table takes more bytes than a list can. Only
the reason is reported, not what is printed around it. -/
def Report.aborted : Report :=
  { errors := "capacity overflow\n", exitCode := 101 }

/-- A machine after it was run: what was printed, and the fault that ended the run if one did. -/
structure Executed where
  machine : Machine
  output : String
  fault? : Option Fault

/-- A random machine starts in the middle of its tape. -/
def buildRandom (states : Nat) (seed : UInt64) : Except RandomFailure Machine := do
  let machine ← Machine.ofSeed states Catalog.cells seed
  (machine.after (Action.setHead (Catalog.cells / 2))).mapError .refused

/-- The machine of a source, or the report of a session that has none. -/
def openSource {m : Type → Type} [Monad m] [Files m] (freshSeed : UInt64) :
    Source → m (Except Report Machine)
  | .catalog item =>
    return (item.build item.input).mapError fun fault ↦
      .refused s!"cannot build {item.name}: {fault.message}"
  | .file path =>
    return (← Storage.load path).mapError fun error ↦ .refused error.message
  | .random states seed? =>
    return (buildRandom states (seed?.getD freshSeed)).mapError fun failure ↦
      match failure with
      | .overflow => .aborted
      | .refused fault =>
        .refused s!"cannot build a random {states}-state table: {fault.message}"

/-- The line that reports a step. -/
def stepLine : Step → String
  | .executed opcode => s!"Executed {opcode.name}\n"
  | .transition _ => "Transition\n"
  | .halted => "Halted\n"

/-- The line that reports the end of a run. -/
def outcomeLine (outcome : Outcome) : String :=
  let counts := s!"{outcome.steps} steps ({outcome.transitions} transitions)\n"
  match outcome.ending with
  | .halted => "Halted after " ++ counts
  | .exhausted => "No halt within " ++ counts

/-- One step, reported with a snapshot unless the session is quiet. -/
def executeStep (quiet : Bool) (machine : Machine) : Executed :=
  match Action.step machine with
  | .error fault machine => { machine := machine, output := "", fault? := some fault }
  | .ok step machine =>
    if quiet then { machine := machine, output := "", fault? := none }
    else
      match Snapshot.capture machine 0 with
      | .ok snapshot =>
        { machine := machine, output := stepLine step ++ snapshot.text ++ "\n", fault? := none }
      | .error fault => { machine := machine, output := stepLine step, fault? := some fault }

/-- A whole run, shown unless the session is quiet. -/
def executeRun (quiet : Bool) (budget : Nat) (machine : Machine) : Executed :=
  if quiet then
    let run := machine.run budget
    let fault? := match run.result with
      | .ok _ => none
      | .error fault => some fault
    { machine := run.machine, output := "", fault? := fault? }
  else
    let run := machine.runShown budget
    let shown := String.join (run.record.toList.map fun snapshot ↦ snapshot.text ++ "\n")
    match run.result with
    | .ok outcome =>
      { machine := run.machine, output := shown ++ outcomeLine outcome, fault? := none }
    | .error fault => { machine := run.machine, output := shown, fault? := some fault }

/-- What the options ask to be executed. -/
def execute (options : Options) (machine : Machine) : Executed :=
  if options.noExec then { machine := machine, output := "", fault? := none }
  else if options.singleStep then executeStep options.quiet machine
  else executeRun options.quiet options.maxSteps machine

/-- A whole session. It exits with code 1 if a machine cannot be had or stored, and with code 2 if
its run fails, in which case it stores nothing; a session that is aborted has a code of its own. -/
def run {m : Type → Type} [Monad m] [Files m] (options : Options) (freshSeed : UInt64) :
    m Report := do
  match ← openSource freshSeed options.source with
  | .error report => return report
  | .ok machine =>
    let executed := execute options machine
    let dump := if options.dump then executed.machine.dump ++ "\n" else ""
    match executed.fault? with
    | some fault =>
      return { output := executed.output
               errors := s!"Fault: {fault.message}\n" ++ dump
               exitCode := 2 }
    | none =>
      let output := executed.output ++ dump
      match options.output? with
      | none => return { output := output }
      | some path =>
        match ← Storage.save path executed.machine with
        | .ok () => return { output := output }
        | .error error =>
          return { output := output, errors := error.message ++ "\n", exitCode := 1 }

end TapeMachine.CommandLine
