import TapeMachine.Proofs.Execution.Run
import TapeMachine.Proofs.Machine.Validation
import TapeMachine.Snapshot

/-!
# Snapshots of runs

A run that is shown takes a snapshot of every transition and one of its end. A snapshot can be taken
of a machine that has its head on the tape and a symbol in every cell (`exists_capture_iff`); a run
that is not shown may well end without looking at either. The label of a snapshot decides nothing
(`capture_add`). If the last snapshot cannot be taken, the outcome of the run is lost
(`Run.addLast_of_error`).
-/

set_option autoImplicit false

namespace TapeMachine

/-- A snapshot with its label counted on from a number of transitions. -/
def Snapshot.resuming (transitions : Nat) (snapshot : Snapshot) : Snapshot :=
  { snapshot with step := transitions + snapshot.step }

namespace Machine

variable {machine : Machine}

theorem exists_capture_iff (step : Nat) :
    (∃ snapshot, Snapshot.capture machine step = .ok snapshot) ↔
      (∃ position, machine.head = .ok position) ∧ machine.Readable := by
  rw [readable_iff_tape]
  unfold Snapshot.capture
  cases machine.head with
  | error fault => simp [bind, Except.bind]
  | ok position =>
    cases machine.tape with
    | error fault => simp [bind, Except.bind]
    | ok symbols => simp [bind, Except.bind, pure, Except.pure]

/-- The label of a snapshot decides nothing but what is shown as the label. -/
theorem capture_add (machine : Machine) (transitions step : Nat) :
    Snapshot.capture machine (transitions + step) =
      (Snapshot.capture machine step).map (Snapshot.resuming transitions) := by
  unfold Snapshot.capture
  cases machine.head with
  | error fault => rfl
  | ok position =>
    cases machine.tape with
    | error fault => rfl
    | ok symbols => rfl

end Machine

namespace Run

variable {run : Run (Array Snapshot)} {outcome : Outcome} {fault : Fault}

theorem addLast_of_failed (hresult : run.result = .error fault) : run.addLast = run := by
  unfold addLast
  rw [hresult]

theorem addLast_of_ok {snapshot : Snapshot} (hresult : run.result = .ok outcome)
    (hsnapshot : Snapshot.capture run.machine outcome.transitions = .ok snapshot) :
    run.addLast = { run with record := run.record.push snapshot } := by
  unfold addLast
  rw [hresult]
  dsimp only
  rw [hsnapshot]

/-- An outcome without a last snapshot is lost. -/
theorem addLast_of_error (hresult : run.result = .ok outcome)
    (hfails : Snapshot.capture run.machine outcome.transitions = .error fault) :
    run.addLast = { run with result := .error fault } := by
  unfold addLast
  rw [hresult]
  dsimp only
  rw [hfails]

/-- An outcome that is left was reached before the last snapshot, which was taken. -/
theorem of_addLast_eq_ok (hresult : run.addLast.result = .ok outcome) :
    ∃ snapshot, run.result = .ok outcome ∧
      Snapshot.capture run.machine outcome.transitions = .ok snapshot := by
  cases hreached : run.result with
  | error fault =>
    rw [addLast_of_failed hreached, hreached] at hresult
    cases hresult
  | ok reached =>
    cases hsnapshot : Snapshot.capture run.machine reached.transitions with
    | error fault =>
      rw [addLast_of_error hreached hsnapshot] at hresult
      cases hresult
    | ok snapshot =>
      rw [addLast_of_ok hreached hsnapshot] at hresult
      cases hreached.symm.trans hresult
      exact ⟨snapshot, rfl, hsnapshot⟩

theorem machine_addLast (run : Run (Array Snapshot)) : run.addLast.machine = run.machine := by
  unfold addLast
  split
  · rfl
  · split
    · rfl
    · rfl

/-- An outcome is kept if there is a head and a tape to show. -/
theorem result_addLast (run : Run (Array Snapshot)) :
    run.addLast.result = run.result.bind fun outcome ↦
      run.machine.head.bind fun _ ↦ run.machine.tape.map fun _ ↦ outcome := by
  unfold addLast Snapshot.capture
  cases hresult : run.result with
  | error fault => exact hresult
  | ok outcome =>
    cases run.machine.head with
    | error fault => rfl
    | ok position =>
      cases run.machine.tape with
      | error fault => rfl
      | ok symbols => rfl

end Run

end TapeMachine
