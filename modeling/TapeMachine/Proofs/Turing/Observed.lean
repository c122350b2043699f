import TapeMachine.Proofs.Execution.Observers
import TapeMachine.Proofs.Turing.Shown

/-!
# What is seen of a machine

The state that a machine is in is that of the Turing machine of its table, also in the middle of a
transition (`Shows.activeState_of_stepsOn`). Between the hand-over of a state and the pass that
follows, where observers are told, the machine displays the whole configuration that the transition
begins in (`Shows.handovers_display`). The snapshots of a run are those of the configurations.
-/

set_option autoImplicit false

namespace TapeMachine

attribute [local irreducible] Buffer.setWord Buffer.setSlot

open TapeMachine.Turing

/-- A configuration with the head on a tape of a number of cells, as it is shown. -/
def Turing.Configuration.snapshot (cells step : Nat) (configuration : Configuration) : Snapshot :=
  { symbols := (List.range cells).reverse.map fun position : Nat ↦ configuration.tape position
    column := cells - 1 - configuration.head.toNat
    state := some configuration.state
    step := step }

/-! ### Passes -/

/-- Steps within a pass go on with it. -/
theorem Pass.Runs.stepsOn {pass : Pass} {start machine after : Machine} {k count : Nat}
    (hprogram : start.Microprogrammed) (hruns : pass.Runs k machine)
    (hprogress : pass.Progress start k machine) (hcount : k + count < 30)
    (hsteps : machine.stepsOn? count = some after) :
    pass.Runs (k + count) after ∧ pass.Progress start (k + count) after := by
  induction count generalizing after with
  | zero =>
    cases hsteps
    exact ⟨hruns, hprogress⟩
  | succ count ih =>
    obtain ⟨middle, hmiddle, hlast⟩ := Option.bind_eq_some_iff.mp hsteps
    obtain ⟨hrunsMiddle, hprogressMiddle⟩ := ih (by omega) hmiddle
    obtain ⟨next, -, hstep, hnext, hknown, hprogressNext⟩ :=
      hrunsMiddle.step_progress hprogram (by omega) hprogressMiddle
    rw [Machine.stepOn?_of_executed hstep] at hlast
    cases hlast
    exact ⟨hrunsMiddle.succ (by omega) hnext hknown, hprogressNext⟩

namespace Machine

variable {rows : List Row} {configuration : Configuration} {machine after : Machine}

/-! ### Displays -/

/-- Whether what a machine of a number of cells answers about its state, its head and its tape is a
configuration. -/
structure Displays (cells : Nat) (configuration : Configuration) (machine : Machine) : Prop where
  cellCount : machine.cellCount = cells
  onTape : configuration.OnTape cells
  state : machine.activeState = some configuration.state
  head : machine.head = .ok configuration.head.toNat
  tape : machine.tape = .ok ((List.range cells).reverse.map fun position : Nat ↦
    configuration.tape position)

theorem Displays.capture_eq {cells : Nat} (hdisplays : machine.Displays cells configuration)
    (step : Nat) : Snapshot.capture machine step = .ok (configuration.snapshot cells step) := by
  unfold Snapshot.capture
  rw [hdisplays.head, hdisplays.tape, hdisplays.state, hdisplays.cellCount]
  rfl

namespace Shows

theorem activeState_eq (hshows : machine.Shows rows configuration) :
    machine.activeState = some configuration.state := by
  unfold activeState
  rw [hshows.pointer, hshows.carries.state?_ofState hshows.state]

theorem displays (hshows : machine.Shows rows configuration)
    (hon : configuration.OnTape machine.cellCount) :
    machine.Displays machine.cellCount configuration :=
  ⟨rfl, hon, hshows.activeState_eq, hshows.head_of_onTape hon, hshows.tape_eq⟩

/-- Where the Turing machine stops there is no step. -/
theorem stepOn_none_of_stops (hshows : machine.Shows rows configuration)
    (hstops : configuration.state = 0 ∨ ¬ configuration.OnTape machine.cellCount) :
    machine.stepOn? = none := by
  unfold stepOn?
  by_cases hon : configuration.OnTape machine.cellCount
  · obtain ⟨after, hstep, -⟩ :=
      hshows.step_of_halt hon (hstops.resolve_right fun hoff ↦ hoff hon)
    rw [hstep]
  · obtain ⟨after, hstep, -⟩ := hshows.step_of_not_onTape hon
    rw [hstep]

/-- A transition hands the state of the configuration to a pass. -/
theorem exists_pass (hshows : machine.Shows rows configuration)
    (hon : configuration.OnTape machine.cellCount) (hstate : configuration.state ≠ 0)
    {reading : Reading} (hstep : Action.step machine = .ok (.transition reading) after) :
    ∃ pass : Pass, pass.state = Offset.ofState configuration.state ∧ pass.Runs 0 after ∧
      pass.Progress machine 0 after := by
  obtain ⟨row, -, hstateAt, -⟩ := hshows.exists_row hon hstate
  obtain ⟨_, entered, hentered, hruns, hprogress⟩ :=
    step_begins_pass hshows.carries.program hstateAt (hshows.head_of_onTape hon)
      (hshows.cell_of_onTape hon) fun hpointer ↦ hstate (hshows.pointer_eq_halt_iff.mp hpointer)
  rw [hstep] at hentered
  cases hentered
  exact ⟨_, hshows.pointer, hruns, hprogress⟩

/-- All through a transition the machine is in the state that the transition begins in. -/
theorem activeState_of_runs (hshows : machine.Shows rows configuration) {pass : Pass} {k : Nat}
    (hpass : pass.state = Offset.ofState configuration.state) (hruns : pass.Runs k after)
    (hk : k < 30) : after.activeState = some configuration.state := by
  rw [hruns.activeState_eq hk, hpass, hshows.carries.state?_ofState hshows.state]

theorem activeState_of_transition (hshows : machine.Shows rows configuration)
    (hon : configuration.OnTape machine.cellCount) (hstate : configuration.state ≠ 0)
    {entered : Machine} {reading : Reading}
    (hstep : Action.step machine = .ok (.transition reading) entered) {count : Nat}
    (hcount : count < 30) (hsteps : entered.stepsOn? count = some after) :
    after.activeState = some configuration.state := by
  obtain ⟨pass, hpass, hruns, hprogress⟩ := hshows.exists_pass hon hstate hstep
  obtain ⟨hrunsAfter, -⟩ := hruns.stepsOn hshows.carries.program hprogress (by omega) hsteps
  exact hshows.activeState_of_runs hpass hrunsAfter (by omega)

/-- A pass begins on what the machine showed before. -/
theorem displays_of_progress (hshows : machine.Shows rows configuration)
    (hon : configuration.OnTape machine.cellCount) {pass : Pass}
    (hpass : pass.state = Offset.ofState configuration.state) (hruns : pass.Runs 0 after)
    (hprogress : pass.Progress machine 0 after) :
    after.Displays machine.cellCount configuration := by
  have hcells := hprogress.sameProgram.cellCount
  have hheadAt : after.HeadAt configuration.head := by
    unfold HeadAt
    rw [hprogress.headField]
    exact hshows.headAt
  have hcell : ∀ position < after.cellCount,
      after.cell position = .ok (configuration.tape position) := by
    intro position hposition
    rw [hprogress.cell, if_neg (by simp)]
    exact hshows.cell position (hcells ▸ hposition)
  refine ⟨hcells, hon, hshows.activeState_of_runs hpass hruns (by decide), ?_, ?_⟩
  · rw [head_of_headAt hheadAt, hcells]
    exact if_pos hon
  · rw [tape_of_cell hcell, hcells]

/-! ### The state at every instant -/

/-- The state that the machine is in is that of the Turing machine, which takes a step for
thirty-one of its steps. -/
theorem activeState_of_stepsOn (hshows : machine.Shows rows configuration) {count : Nat}
    (hsteps : machine.stepsOn? count = some after) :
    ∃ last, configuration.steps? rows machine.cellCount (count / 31) = some last ∧
      after.activeState = some last.state := by
  induction count using Nat.strongRecOn generalizing machine configuration with
  | ind count ih =>
    cases count with
    | zero =>
      cases hsteps
      exact ⟨configuration, rfl, hshows.activeState_eq⟩
    | succ rest =>
      rw [stepsOn?_succ_eq] at hsteps
      have hgoing : ¬ (configuration.state = 0 ∨ ¬ configuration.OnTape machine.cellCount) := by
        intro hstops
        rw [hshows.stepOn_none_of_stops hstops] at hsteps
        cases hsteps
      obtain ⟨hstate, hon⟩ := not_or.mp hgoing
      rw [Decidable.not_not] at hon
      obtain ⟨next, reading, entered, last, hnext, hstep, hexecutes, hcells, hlast⟩ :=
        hshows.step hon hstate
      rw [stepOn?_of_transition hstep, Option.bind_some] at hsteps
      rcases Nat.lt_or_ge rest 30 with hlt | hge
      · have hzero : (rest + 1) / 31 = 0 := by omega
        rw [hzero]
        exact ⟨configuration, rfl, hshows.activeState_of_transition hon hstate hstep hlt hsteps⟩
      · obtain ⟨more, rfl⟩ := Nat.exists_eq_add_of_le hge
        rw [stepsOn?_add, hexecutes.stepsOn_eq, Option.bind_some] at hsteps
        have hblock : (30 + more + 1) / 31 = more / 31 + 1 := by omega
        rw [hblock, steps?_succ_of_step hnext, ← hcells]
        exact ih more (by omega) hlast hsteps

/-! ### What observers are told -/

theorem handovers_eq_nil_of_stops (hshows : machine.Shows rows configuration)
    (hstops : configuration.state = 0 ∨ ¬ configuration.OnTape machine.cellCount) (budget : Nat) :
    handovers budget machine = [] :=
  handovers_of_stepOn_none (hshows.stepOn_none_of_stops hstops)

/-- An observer is told of a transition before it has changed anything, and of the next ones as
soon as the budget is enough for the pass. -/
theorem handovers_transition (hshows : machine.Shows rows configuration)
    (hon : configuration.OnTape machine.cellCount) (hstate : configuration.state ≠ 0) :
    ∃ next handover last, configuration.step? rows machine.cellCount = some next ∧
      handover.machine.Displays machine.cellCount configuration ∧
      last.cellCount = machine.cellCount ∧ last.Shows rows next ∧
      ∀ budget, handovers (budget + 1) machine = handover :: handovers (budget - 30) last := by
  obtain ⟨next, reading, entered, last, hnext, hstep, hexecutes, hcells, hlast⟩ :=
    hshows.step hon hstate
  obtain ⟨pass, hpass, hruns, hprogress⟩ := hshows.exists_pass hon hstate hstep
  refine ⟨next, ⟨reading, entered⟩, last, hnext,
    hshows.displays_of_progress hon hpass hruns hprogress, hcells, hlast, fun budget ↦ ?_⟩
  rw [handovers_of_transition hstep, hexecutes.handovers_eq]

/-- An observer is told of a transition if the budget is enough for those before it, and the machine
displays the configuration in which the transition begins. -/
theorem handovers_display (hshows : machine.Shows rows configuration) (budget index : Nat) :
    (index < (handovers budget machine).length ↔ 31 * index < budget ∧
      ∃ next, configuration.steps? rows machine.cellCount (index + 1) = some next) ∧
    ∀ handover, (handovers budget machine)[index]? = some handover →
      ∃ last, configuration.steps? rows machine.cellCount index = some last ∧
        handover.machine.Displays machine.cellCount last := by
  -- What is left of the budget after the pass is the budget of the rest of the run.
  induction budget using Nat.strongRecOn generalizing index machine configuration with
  | ind budget ih =>
    cases budget with
    | zero =>
      rw [handovers_zero]
      exact ⟨by simp, fun handover hhandover ↦ by cases hhandover⟩
    | succ budget =>
      by_cases hstops : configuration.state = 0 ∨ ¬ configuration.OnTape machine.cellCount
      · have hsteps : configuration.steps? rows machine.cellCount (index + 1) = none := by
          rw [Configuration.steps?, step?_eq_none_of_stops hstops, Option.bind_none]
        rw [hshows.handovers_eq_nil_of_stops hstops, hsteps]
        exact ⟨by simp, fun handover hhandover ↦ by cases hhandover⟩
      · rw [not_or, Decidable.not_not] at hstops
        obtain ⟨hstate, hon⟩ := hstops
        obtain ⟨next, handover, last, hnext, hdisplays, hcells, hlast, htold⟩ :=
          hshows.handovers_transition hon hstate
        rw [htold, List.length_cons]
        cases index with
        | zero =>
          refine ⟨iff_of_true (Nat.succ_pos _) ⟨by omega, next, steps?_succ_of_step hnext 0⟩,
            fun other hother ↦ ?_⟩
          cases hother
          exact ⟨configuration, rfl, hdisplays⟩
        | succ index =>
          obtain ⟨hlength, hgiven⟩ := ih (budget - 30) (by omega) hlast index
          have hbudget : 31 * (index + 1) < budget + 1 ↔ 31 * index < budget - 30 := by omega
          rw [steps?_succ_of_step hnext, steps?_succ_of_step hnext, Nat.add_lt_add_iff_right,
            hbudget, List.getElem?_cons_succ, ← hcells]
          exact ⟨hlength, hgiven⟩

/-! ### Snapshots -/

/-- A run that halts leaves the machine where the Turing machine stops after as many steps as it
had transitions. -/
theorem exists_stopsAt_of_halted (hshows : machine.Shows rows configuration) {budget : Nat}
    {outcome : Outcome} (hresult : (machine.run budget).result = .ok outcome)
    (hhalted : outcome.ending = .halted) :
    ∃ last, StopsAt rows machine.cellCount configuration outcome.transitions last ∧
      last.OnTape machine.cellCount ∧ (machine.run budget).machine.Shows rows last := by
  rw [run_eq_runFrom] at hresult ⊢
  by_cases hseen : ∃ count last, StopsAt rows machine.cellCount configuration count last ∧
      Seen budget count last
  · obtain ⟨count, last, hstops, hbudget⟩ := hseen
    obtain ⟨hreport, hlast⟩ := hshows.runFrom_of_stopsAt hstops hbudget 0 0
    rw [hresult, report] at hreport
    by_cases hon : last.OnTape machine.cellCount
    · rw [if_pos hon, Nat.zero_add, Nat.zero_add] at hreport
      obtain rfl := Except.ok.inj hreport
      exact ⟨last, hstops, hon, hlast⟩
    · rw [if_neg hon] at hreport
      cases hreport
  · have hunseen : ∀ count last, StopsAt rows machine.cellCount configuration count last →
        ¬ Seen budget count last :=
      fun count last hstops hbudget ↦ hseen ⟨count, last, hstops, hbudget⟩
    rw [hshows.runFrom_of_not_seen hunseen 0 0] at hresult
    obtain rfl := Except.ok.inj hresult
    cases hhalted

end Shows

end Machine

/-- Snapshots that can be taken are taken one after the other. -/
theorem Snapshot.exists_tell_observer {handovers : List Handover} {step : Nat}
    (hcapture : ∀ index handover, handovers[index]? = some handover →
      ∃ shot, capture handover.machine (step + index) = .ok shot) (record : Array Snapshot) :
    ∃ shots : List Snapshot,
      observer.tell (step + 1) handovers record = .ok () (record ++ shots.toArray) ∧
      shots.length = handovers.length ∧
      ∀ index handover, handovers[index]? = some handover →
        ∃ shot, capture handover.machine (step + index) = .ok shot ∧ shots[index]? = some shot := by
  induction handovers generalizing step record with
  | nil =>
    refine ⟨[], congrArg (EStateM.Result.ok ()) Array.append_empty.symm, rfl, ?_⟩
    intro index handover hhandover
    cases hhandover
  | cons handover handovers ih =>
    obtain ⟨shot, hshot⟩ := hcapture 0 handover rfl
    rw [Nat.add_zero] at hshot
    have hobserve : observer (step + 1) handover.reading handover.machine record =
        .ok () (record.push shot) := by
      unfold observer
      rw [Nat.add_sub_cancel, hshot]
    have hnext : ∀ index, step + (index + 1) = step + 1 + index := by omega
    have hrest : ∀ index other, handovers[index]? = some other →
        ∃ shot, capture other.machine (step + 1 + index) = .ok shot := by
      intro index other hother
      rw [← hnext]
      exact hcapture (index + 1) other hother
    obtain ⟨shots, htell, hlength, hshots⟩ := ih hrest (record.push shot)
    refine ⟨shot :: shots, ?_, by rw [List.length_cons, hlength, List.length_cons], ?_⟩
    · rw [Observer.tell_cons_of_ok hobserve, htell]
      simp
    · intro index other hother
      cases index with
      | zero =>
        cases hother
        exact ⟨shot, hshot, rfl⟩
      | succ index =>
        rw [hnext]
        exact hshots index other hother

namespace Machine

variable {rows : List Row} {cells : Nat} {configuration : Configuration} {machine placed : Machine}

/-- A run that is shown and halts has taken snapshots of all configurations up to the one in which
the Turing machine stops. -/
theorem Shows.record_runShown (hshows : machine.Shows rows configuration) {budget : Nat}
    (hcells : (machine.run budget).machine.cellCount = machine.cellCount) {outcome : Outcome}
    (hresult : (machine.run budget).result = .ok outcome) (hhalted : outcome.ending = .halted) :
    (machine.runShown budget).record.size = outcome.transitions + 1 ∧
    ∀ index ≤ outcome.transitions,
      ∃ last, configuration.steps? rows machine.cellCount index = some last ∧
        (machine.runShown budget).record[index]? =
          some (last.snapshot machine.cellCount index) := by
  have hspec := hshows.handovers_display budget
  have hcount : (handovers budget machine).length = outcome.transitions := by
    rw [transitions_of_runFrom hresult, Nat.zero_add]
  have hcapture : ∀ index handover, (handovers budget machine)[index]? = some handover →
      ∃ shot, Snapshot.capture handover.machine (0 + index) = .ok shot := by
    intro index handover hhandover
    obtain ⟨last, -, hdisplays⟩ := (hspec index).2 handover hhandover
    exact ⟨_, hdisplays.capture_eq _⟩
  obtain ⟨shots, htell, hlength, hshots⟩ := Snapshot.exists_tell_observer hcapture #[]
  obtain ⟨final, hstops, hon, hfinal⟩ := hshows.exists_stopsAt_of_halted hresult hhalted
  have hdisplays := hfinal.displays (hcells.symm ▸ hon)
  have hrecord : (machine.runShown budget).record =
      (shots ++ [final.snapshot machine.cellCount outcome.transitions]).toArray := by
    have hran := runWith_of_tell htell
    have hreached : (machine.runWith Snapshot.observer budget #[]).result = .ok outcome :=
      (congrArg Run.result hran).trans hresult
    have hlast : Snapshot.capture (machine.runWith Snapshot.observer budget #[]).machine
        outcome.transitions = .ok (final.snapshot machine.cellCount outcome.transitions) := by
      rw [hran, hdisplays.capture_eq, hcells]
    unfold runShown
    rw [Run.addLast_of_ok hreached hlast, hran]
    simp
  rw [hrecord]
  refine ⟨by simp [hlength, hcount], fun index hindex ↦ ?_⟩
  rw [List.getElem?_toArray]
  rcases Nat.lt_or_eq_of_le hindex with hlt | rfl
  · have hhandover := List.getElem?_eq_getElem (hcount.symm ▸ hlt)
    obtain ⟨last, hlast, hshown⟩ := (hspec index).2 _ hhandover
    obtain ⟨shot, hshot, hgiven⟩ := hshots index _ hhandover
    rw [hshown.capture_eq, Nat.zero_add] at hshot
    cases hshot
    exact ⟨last, hlast, by rw [List.getElem?_append_left (by omega), hgiven]⟩
  · refine ⟨final, hstops.steps, ?_⟩
    rw [List.getElem?_append_right (by omega), hlength, hcount, Nat.sub_self]
    rfl

theorem Sound.run_of_runShown {start : Machine} (hsound : Sound start machine)
    (htabled : start.Tabled) {budget : Nat} {outcome : Outcome}
    (hresult : (machine.runShown budget).result = .ok outcome) :
    (machine.run budget).result = .ok outcome := by
  rw [(hsound.runShown_eq htabled budget).2] at hresult
  cases hrun : (machine.run budget).result with
  | error fault =>
    rw [hrun] at hresult
    cases hresult
  | ok found =>
    rw [hrun] at hresult
    cases hhead : (machine.run budget).machine.head with
    | error fault =>
      rw [hhead] at hresult
      cases hresult
    | ok position =>
      rw [hhead] at hresult
      exact hresult

/-- The machine of a table, with a text placed on its tape, is at every instant in the state of the
Turing machine of the table, which takes a step for thirty-one of its steps. An observer that never
fails is told of the transitions one after the other, numbered from 1 on, and of each while the
machine displays the configuration that it begins in. A run that is shown and halts therefore takes
a snapshot of every configuration, labelled with the number of steps before it. -/
theorem observed_of_ofTable (hmachine : ofTable rows cells = .ok machine) {text : String}
    {position head : Nat}
    (hplace : machine.after (Action.place text position head) = .ok placed) :
    (∀ count after, placed.stepsOn? count = some after →
      ∃ last, (initial rows text position head).steps? rows machine.cellCount (count / 31) =
          some last ∧ after.activeState = some last.state) ∧
    (∀ budget, ∃ told : List Handover,
      (∀ index, index < told.length ↔ 31 * index < budget ∧
        ∃ next, (initial rows text position head).steps? rows machine.cellCount (index + 1) =
          some next) ∧
      (∀ index handover, told[index]? = some handover →
        ∃ last, (initial rows text position head).steps? rows machine.cellCount index = some last ∧
          handover.machine.Displays machine.cellCount last) ∧
      ∀ {σ : Type} (observe : Observer σ),
        (∀ number reading machine record,
          ∃ seen, observe number reading machine record = .ok () seen) →
        ∀ record, observe.tell 1 told record =
          .ok () (placed.runWith observe budget record).record) ∧
    ∀ budget outcome, (placed.runShown budget).result = .ok outcome → outcome.ending = .halted →
      (placed.runShown budget).record.size = outcome.transitions + 1 ∧
      ∀ index ≤ outcome.transitions,
        ∃ last, (initial rows text position head).steps? rows machine.cellCount index = some last ∧
          (placed.runShown budget).record[index]? =
            some (last.snapshot machine.cellCount index) := by
  obtain ⟨hshows, hcells⟩ :=
    shows_initial (carries_of_ofTable hmachine) (pointer_of_ofTable hmachine) hplace
  obtain ⟨htabled, hsound⟩ := sound_of_place hmachine hplace
  rw [← hcells]
  refine ⟨fun count after hsteps ↦ hshows.activeState_of_stepsOn hsteps, fun budget ↦ ?_, ?_⟩
  · have hspec := hshows.handovers_display budget
    refine ⟨handovers budget placed, fun index ↦ (hspec index).1, fun index ↦ (hspec index).2, ?_⟩
    intro σ observe hobserves record
    obtain ⟨seen, htell⟩ :=
      Observer.exists_tell_of_never_fails hobserves 1 (handovers budget placed) record
    rw [runWith_of_tell htell, htell]
  · intro budget outcome hresult hhalted
    have hcount : (placed.run budget).machine.cellCount = placed.cellCount :=
      (hsound.run htabled budget).intact.sameProgram.cellCount.trans hcells.symm
    exact hshows.record_runShown hcount (hsound.run_of_runShown htabled hresult) hhalted

/-- A table with one state that writes a one, moves right and halts: an observer is told of the one
transition, and both configurations are shown. -/
theorem observed_of_ofTable_single_row :
    ∃ machine placed,
      ofTable [PerSymbol.ofFun fun _ ↦ { write := .one, move := .right, next := 0 }] 16 =
        .ok machine ∧
      machine.after (Action.place "0" 0 0) = .ok placed ∧
      placed.activeState = some 1 ∧
      (placed.runWith (fun number _ _ numbers ↦ .ok () (numbers ++ [number])) 31 []).record = [1] ∧
      (placed.runShown 31).record =
        #[⟨List.replicate 15 .blank ++ [.zero], 15, some 1, 0⟩,
          ⟨List.replicate 15 .blank ++ [.one], 14, some 0, 1⟩] := by
  obtain ⟨machine, placed, hmachine, hcount, hplace⟩ := exists_placed
    [PerSymbol.ofFun fun _ ↦ { write := .one, move := .right, next := 0 }] "0" 0 0 rfl
  obtain ⟨hactive, htold, hshown⟩ := observed_of_ofTable hmachine hplace
  rw [hcount] at hactive htold hshown
  refine ⟨machine, placed, hmachine, hplace, ?_, ?_, ?_⟩
  · obtain ⟨last, hlast, hstate⟩ := hactive 0 placed rfl
    cases hlast
    exact hstate
  · obtain ⟨told, hlength, -, hobserved⟩ := htold 31
    have hone : told.length = 1 := by
      have hfirst := (hlength 0).mpr ⟨by decide, _, rfl⟩
      have hsecond := (hlength 1).mp.mt fun hsome ↦ absurd hsome.1 (by decide)
      omega
    obtain ⟨handover, rfl⟩ := List.length_eq_one_iff.mp hone
    have hrecord := hobserved (fun number _ _ numbers ↦ .ok () (numbers ++ [number]))
      (fun number _ _ numbers ↦ ⟨numbers ++ [number], rfl⟩) []
    exact (EStateM.Result.ok.inj hrecord).2.symm
  · obtain ⟨hshows, hcells⟩ :=
      shows_initial (carries_of_ofTable hmachine) (pointer_of_ofTable hmachine) hplace
    obtain ⟨htabled, hsound⟩ := sound_of_place hmachine hplace
    have hsixteen : placed.cellCount = 16 := hcells.trans hcount
    have hafter : (placed.run 31).machine.cellCount = 16 :=
      (hsound.run htabled 31).intact.sameProgram.cellCount.trans hcount
    obtain ⟨hresult, hlast⟩ := hshows.runFrom_of_stopsAt
      (by rw [hsixteen]; exact ⟨rfl, Or.inl rfl⟩) (Or.inr ⟨rfl, rfl⟩ : Seen 31 1 _) 0 0
    rw [← run_eq_runFrom] at hresult hlast
    have hloud := hsound.runShown_of_head htabled
      (hlast.head_of_onTape (by rw [hafter]; decide))
    rw [hresult, report, hsixteen, if_pos (by decide)] at hloud
    obtain ⟨hsize, hshots⟩ := hshown 31 _ hloud rfl
    obtain ⟨first, hfirst, hfirstShot⟩ := hshots 0 (by decide)
    obtain ⟨second, hsecond, hsecondShot⟩ := hshots 1 (by decide)
    cases hfirst
    cases hsecond
    refine Array.ext_getElem? fun index ↦ ?_
    rcases index with _ | _ | rest
    · exact hfirstShot
    · exact hsecondShot
    · exact Array.getElem?_eq_none (by rw [hsize]; exact Nat.le_add_left 2 rest)

end Machine

end TapeMachine
