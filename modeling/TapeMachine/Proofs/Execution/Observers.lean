import TapeMachine.Proofs.Execution.Budget

/-!
# What observers are told

The transitions of a run are the same whoever observes it (`handovers`). An observer that does not
fail on them is told of each of them once, in order and numbered from 1 on (`runFrom_of_tell`), and
their number is what the run reports (`transitions_of_runFrom`).
-/

set_option autoImplicit false

namespace TapeMachine

/-- What an observer is told of a transition apart from its number. -/
structure Handover where
  reading : Reading
  machine : Machine

/-- Tells an observer of transitions one after the other, numbered from a number on. -/
def Observer.tell {σ : Type} (observe : Observer σ) : Nat → List Handover → EStateM Fault σ Unit
  | _, [] => pure ()
  | number, handover :: handovers => do
    observe number handover.reading handover.machine
    observe.tell (number + 1) handovers

namespace Observer

variable {σ : Type} {observe : Observer σ} {number : Nat} {handover : Handover}
  {handovers : List Handover} {record seen : σ}

theorem tell_cons_of_ok {middle : σ}
    (hobserve : observe number handover.reading handover.machine record = .ok () middle) :
    observe.tell number (handover :: handovers) record =
      observe.tell (number + 1) handovers middle := by
  change EStateM.bind _ _ record = _
  unfold EStateM.bind
  rw [hobserve]

theorem exists_of_tell_cons
    (htell : observe.tell number (handover :: handovers) record = .ok () seen) :
    ∃ middle, observe number handover.reading handover.machine record = .ok () middle ∧
      observe.tell (number + 1) handovers middle = .ok () seen := by
  cases hobserve : observe number handover.reading handover.machine record with
  | ok _ middle => exact ⟨middle, rfl, tell_cons_of_ok hobserve ▸ htell⟩
  | error fault middle =>
    change EStateM.bind _ _ record = _ at htell
    unfold EStateM.bind at htell
    rw [hobserve] at htell
    cases htell

theorem exists_tell_of_never_fails
    (hobserves : ∀ number reading machine record,
      ∃ seen, observe number reading machine record = .ok () seen)
    (number : Nat) (handovers : List Handover) (record : σ) :
    ∃ seen, observe.tell number handovers record = .ok () seen := by
  induction handovers generalizing number record with
  | nil => exact ⟨record, rfl⟩
  | cons handover handovers ih =>
    obtain ⟨middle, hmiddle⟩ := hobserves number handover.reading handover.machine record
    rw [tell_cons_of_ok hmiddle]
    exact ih (number + 1) middle

end Observer

namespace Machine

attribute [local irreducible] Buffer.setWord Buffer.setSlot Action.step haltsNow

/-- The transitions of a run with a budget, each with the machine that was just handed to the
microcode. -/
def handovers : Nat → Machine → List Handover
  | 0, _ => []
  | budget + 1, machine =>
    match Action.step machine with
    | .error _ _ => []
    | .ok .halted _ => []
    | .ok (.executed _) after => handovers budget after
    | .ok (.transition reading) after => ⟨reading, after⟩ :: handovers budget after

variable {machine after last : Machine} {budget : Nat}

theorem handovers_zero : handovers 0 machine = [] := rfl

theorem handovers_of_stepOn_none (hstep : machine.stepOn? = none) :
    handovers budget machine = [] := by
  unfold stepOn? at hstep
  cases budget with
  | zero => rfl
  | succ budget =>
    unfold handovers
    cases hresult : Action.step machine with
    | error fault after => rfl
    | ok result after =>
      rw [hresult] at hstep
      cases result with
      | halted => rfl
      | executed opcode => cases hstep
      | transition reading => cases hstep

theorem handovers_of_executed {opcode : Opcode}
    (hstep : Action.step machine = .ok (.executed opcode) after) :
    handovers (budget + 1) machine = handovers budget after := by
  rw [handovers, hstep]

theorem handovers_of_transition {reading : Reading}
    (hstep : Action.step machine = .ok (.transition reading) after) :
    handovers (budget + 1) machine = ⟨reading, after⟩ :: handovers budget after := by
  rw [handovers, hstep]

namespace Executes

variable {count : Nat}

/-- Instructions are not told of. -/
theorem handovers_eq (h : Executes count machine last) (budget : Nat) :
    handovers budget machine = handovers (budget - count) last := by
  induction h generalizing budget with
  | done machine => rfl
  | step hrunning hstep hrest ih =>
    cases budget with
    | zero => rw [Nat.zero_sub]; rfl
    | succ budget => rw [handovers_of_executed hstep, ih, Nat.add_sub_add_right]

theorem stepsOn_eq (h : Executes count machine last) : machine.stepsOn? count = some last := by
  induction h with
  | done machine => rfl
  | step hrunning hstep hrest ih =>
    rw [stepsOn?_succ_eq, stepOn?_of_executed hstep, Option.bind_some, ih]

end Executes

/-- An observer that does not fail on the transitions of a run is told of them in order, and changes
nothing of the run. -/
theorem runFrom_of_tell {σ : Type} {observe : Observer σ} {transitions : Nat} {record seen : σ}
    (htell : observe.tell (transitions + 1) (handovers budget machine) record = .ok () seen)
    (steps : Nat) :
    runFrom observe budget steps transitions machine record =
      { result := (runFrom silent budget steps transitions machine ()).result
        machine := (runFrom silent budget steps transitions machine ()).machine
        record := seen } := by
  induction budget generalizing machine steps transitions record with
  | zero =>
    cases htell
    rfl
  | succ budget ih =>
    cases hstep : Action.step machine with
    | error fault after =>
      rw [handovers, hstep] at htell
      cases htell
      rw [runFrom_of_error observe budget steps transitions seen hstep,
        runFrom_of_error silent budget steps transitions () hstep]
    | ok result after =>
      cases result with
      | halted =>
        rw [handovers, hstep] at htell
        cases htell
        rw [runFrom_of_halted observe budget steps transitions seen hstep,
          runFrom_of_halted silent budget steps transitions () hstep]
      | executed opcode =>
        rw [handovers_of_executed hstep] at htell
        rw [runFrom_of_executed observe budget steps transitions record hstep,
          runFrom_of_executed silent budget steps transitions () hstep]
        exact ih htell (steps + 1)
      | transition reading =>
        rw [handovers_of_transition hstep] at htell
        obtain ⟨middle, hmiddle, hrest⟩ := Observer.exists_of_tell_cons htell
        rw [runFrom_of_transition observe budget steps transitions record hstep hmiddle,
          runFrom_of_transition silent budget steps transitions () hstep rfl]
        exact ih hrest (steps + 1)

theorem runWith_of_tell {σ : Type} {observe : Observer σ} {record seen : σ}
    (htell : observe.tell 1 (handovers budget machine) record = .ok () seen) :
    machine.runWith observe budget record =
      { result := (machine.run budget).result
        machine := (machine.run budget).machine
        record := seen } :=
  runFrom_of_tell htell 0

/-- A run that does not fail reports how many transitions it had. -/
theorem transitions_of_runFrom {steps transitions : Nat} {outcome : Outcome}
    (hresult : (runFrom silent budget steps transitions machine ()).result = .ok outcome) :
    outcome.transitions = transitions + (handovers budget machine).length := by
  induction budget generalizing machine steps transitions with
  | zero =>
    rw [runFrom_zero] at hresult
    cases hhalts : machine.haltsNow with
    | error fault =>
      rw [hhalts] at hresult
      cases hresult
    | ok halted =>
      rw [hhalts] at hresult
      cases hresult
      rfl
  | succ budget ih =>
    cases hstep : Action.step machine with
    | error fault after =>
      rw [runFrom_of_error silent budget steps transitions () hstep] at hresult
      cases hresult
    | ok result after =>
      cases result with
      | halted =>
        rw [runFrom_of_halted silent budget steps transitions () hstep] at hresult
        rw [handovers, hstep]
        cases hresult
        rfl
      | executed opcode =>
        rw [runFrom_of_executed silent budget steps transitions () hstep] at hresult
        rw [handovers_of_executed hstep, ih hresult]
      | transition reading =>
        rw [runFrom_of_transition silent budget steps transitions () hstep rfl] at hresult
        rw [handovers_of_transition hstep, ih hresult, List.length_cons, Nat.add_right_comm,
          Nat.add_assoc]

end Machine

end TapeMachine
