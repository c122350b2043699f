import TapeMachine.Proofs.Execution.Safety
import TapeMachine.Proofs.Execution.Shown
import TapeMachine.Proofs.Turing.Placed

/-!
# Runs that are shown

A run that is shown takes snapshots, and a snapshot cannot be taken while the head is off the tape.
No transition begins like that, so that the snapshots of the transitions do not disturb a run of a
sound machine (`Sound.runShown_eq`); the one at its end may. It does where a run that is not shown
overlooks that the head left the tape, its budget being used up before the next step looks:
`runFrom_of_overlooked` and `head_of_not_overlooked` say when that is.
-/

set_option autoImplicit false

namespace TapeMachine

attribute [local irreducible] Buffer.setWord Buffer.setSlot

open TapeMachine.Turing

/-- The last snapshot takes the place of an outcome with the fault of the head, if it has one. -/
theorem Run.result_addLast_of_readable (run : Run (Array Snapshot))
    (hreadable : run.machine.Readable) :
    run.addLast.result =
      run.result.bind fun outcome ↦ run.machine.head.map fun _ ↦ outcome := by
  obtain ⟨symbols, hsymbols⟩ := Machine.readable_iff_tape.mp hreadable
  rw [Run.result_addLast, hsymbols]
  rfl

namespace Machine

variable {start machine after : Machine}

namespace Sound

/-- A transition begins with the head on the tape, and does not move it. -/
theorem head_of_transition (hsound : Sound start machine) (htabled : start.Tabled)
    {reading : Reading} (hstep : Action.step machine = .ok (.transition reading) after) :
    ∃ position, after.head = .ok position := by
  have htabledNow := hsound.tabled htabled
  have haddressable := htabledNow.program.addressable
  rcases hsound.phase with ⟨rules, hstate⟩ | ⟨pass, k, hongoing⟩
  · rcases hsound.intact.head_cases with ⟨position, hhead⟩ | ⟨fault, -, hhead⟩
    · obtain ⟨symbol, hcell⟩ := hsound.intact.readable position (head_eq_ok_iff.mp hhead).2
      by_cases hhalt : machine.pointer = Offset.halt
      · rw [step_of_stateAt_halt haddressable hstate
          (symbolUnderHead_eq_ok_iff.mpr ⟨position, hhead, hcell⟩) hhalt] at hstep
        cases hstep
      · obtain ⟨entered, hentered, hagrees, -⟩ :=
          Machine.step_of_stateAt haddressable hstate hhead hcell hhalt
        rw [hentered] at hstep
        cases hstep
        exact ⟨position, by rw [hagrees.head, head_setPointer, hhead]⟩
    · rw [step_of_stateAt_error haddressable hstate (symbolUnderHead_of_head_error hhead)] at hstep
      cases hstep
  · obtain ⟨next, hnext, -⟩ := hongoing.step htabledNow
    rw [hnext] at hstep
    cases hstep

theorem run (hsound : Sound start machine) (htabled : start.Tabled) (budget : Nat) :
    Sound start (machine.run budget).machine :=
  runFrom_keeps (fun _ hmachine ↦ (hmachine.step htabled).2) hsound budget 0 0

/-- A run that is shown does to a sound machine what it does without being shown. It also reports
the same, unless the head is off the tape at its end. -/
theorem runShown_eq (hsound : Sound start machine) (htabled : start.Tabled) (budget : Nat) :
    (machine.runShown budget).machine = (machine.run budget).machine ∧
    (machine.runShown budget).result =
      (machine.run budget).result.bind fun outcome ↦
        (machine.run budget).machine.head.map fun _ ↦ outcome := by
  have hobserves : ∀ machine reading after, Sound start machine →
      Action.step machine = .ok (.transition reading) after → ∀ transition record,
      ∃ seen, Snapshot.observer transition reading after record = .ok () seen := by
    intro machine reading after hmachine hstep transition record
    have hafter := (hmachine.step htabled).2
    rw [Action.leaves_of_ok hstep] at hafter
    have hhead := hmachine.head_of_transition htabled hstep
    obtain ⟨snapshot, hsnapshot⟩ :=
      (exists_capture_iff (transition - 1)).mpr ⟨hhead, hafter.intact.readable⟩
    unfold Snapshot.observer
    rw [hsnapshot]
    exact ⟨_, rfl⟩
  obtain ⟨hresult, hmachine⟩ := runFrom_of_observes
    (fun _ hmachine ↦ (hmachine.step htabled).2) hobserves hsound budget 0 0 #[]
  rw [← run_eq_runFrom] at hresult hmachine
  have hreadable := (hsound.run htabled budget).intact.readable
  rw [← hmachine] at hreadable
  constructor
  · exact (Run.machine_addLast _).trans hmachine
  · have hshown := Run.result_addLast_of_readable _ hreadable
    rwa [hresult, hmachine] at hshown

theorem runShown_of_head (hsound : Sound start machine) (htabled : start.Tabled)
    {budget position : Nat} (hhead : (machine.run budget).machine.head = .ok position) :
    (machine.runShown budget).result = (machine.run budget).result := by
  rw [(hsound.runShown_eq htabled budget).2, hhead]
  cases (machine.run budget).result with
  | error fault => rfl
  | ok outcome => rfl

end Sound

end Machine

/-! ### Heads that are overlooked -/

/-- Whether a run with a budget ends without noticing that the head left the tape: its last step is
the one that moved the head, or the one after it, which goes on with the next state. In the halt
state the head is looked at in any case. -/
def Turing.Overlooked (budget count : Nat) (last : Configuration) : Prop :=
  31 * count = budget + 1 ∨ 31 * count = budget ∧ last.state ≠ 0

namespace Machine

variable {rows : List Row} {cells : Nat} {configuration next last : Configuration}
  {machine placed : Machine}

namespace Shows

/-- A run that ends within a transition leaves the head where it was until the thirtieth step, which
moves it. -/
theorem headAt_of_partial (hshows : machine.Shows rows configuration)
    (hon : configuration.OnTape machine.cellCount) (hstate : configuration.state ≠ 0)
    (hnext : configuration.step? rows machine.cellCount = some next) {budget : Nat}
    (hpos : 0 < budget) (hlt : budget < 31) (steps transitions : Nat) :
    (runFrom silent budget steps transitions machine ()).machine.cellCount = machine.cellCount ∧
      (runFrom silent budget steps transitions machine ()).machine.HeadAt
        (if budget = 30 then next.head else configuration.head) := by
  obtain ⟨row, -, hstateAt, hrule⟩ := hshows.exists_row hon hstate
  have hhead := hshows.head_of_onTape hon
  obtain ⟨reading, entered, hstep, hruns, hstart⟩ :=
    step_begins_pass hshows.carries.program hstateAt hhead (hshows.cell_of_onTape hon)
      fun hpointer ↦ hstate (hshows.pointer_eq_halt_iff.mp hpointer)
  rw [PerSymbol.get_map] at hruns hstart
  obtain ⟨rest, rfl⟩ := Nat.exists_eq_succ_of_ne_zero (Nat.ne_of_gt hpos)
  rw [Nat.succ_eq_add_one, runFrom_of_transition silent rest steps transitions () hstep rfl]
  have hprogress := hruns.progress_of_runFrom hshows.carries.program (by omega : 0 + rest < 30)
    hstart (steps + 1) (transitions + 1)
  refine ⟨hprogress.sameProgram.cellCount, ?_⟩
  unfold HeadAt
  rw [hprogress.headField]
  by_cases hmoved : rest = 29
  · rw [if_pos (by omega), if_pos (by omega), Pass.toNat_newHeadField
      hshows.carries.program.addressable (head_eq_ok_iff.mp hhead).2]
    obtain rfl := Option.some.inj (hrule.symm.trans hnext)
    have hnonneg : (configuration.head.toNat : Int) = configuration.head :=
      Int.toNat_of_nonneg hon.1
    change 64 + 2 * ((configuration.head.toNat : Int) + _) = 64 + 2 * (configuration.head + _)
    rw [hnonneg]
    rfl
  · rw [if_neg (by omega), if_neg (by omega)]
    exact hshows.headAt

/-- A run that ends within a transition leaves the head on the tape, unless it is moved off it. -/
theorem exists_head_of_partial (hshows : machine.Shows rows configuration)
    (hon : configuration.OnTape machine.cellCount) (hstate : configuration.state ≠ 0)
    (hnext : configuration.step? rows machine.cellCount = some next) {budget : Nat}
    (hpos : 0 < budget) (hlt : budget < 31)
    (hmoved : budget = 30 → next.OnTape machine.cellCount) (steps transitions : Nat) :
    ∃ position, (runFrom silent budget steps transitions machine ()).machine.head =
      .ok position := by
  obtain ⟨hcount, hat⟩ := hshows.headAt_of_partial hon hstate hnext hpos hlt steps transitions
  rw [head_of_headAt hat, hcount]
  by_cases hlast : budget = 30
  · rw [if_pos hlast]
    exact ⟨_, if_pos (hmoved hlast)⟩
  · rw [if_neg hlast]
    exact ⟨_, if_pos hon⟩

/-- A run that overlooks the head uses up its budget, and leaves the head off the tape. -/
theorem runFrom_of_overlooked {count budget : Nat} (hshows : machine.Shows rows configuration)
    (hstops : StopsAt rows machine.cellCount configuration count last)
    (hoff : ¬ last.OnTape machine.cellCount) (hoverlooked : Overlooked budget count last)
    (steps transitions : Nat) :
    (runFrom silent budget steps transitions machine ()).result =
        .ok { ending := .exhausted
              steps := steps + budget
              transitions := transitions + (budget + 30) / 31 } ∧
      (runFrom silent budget steps transitions machine ()).machine.head =
        .error (.offTape last.head machine.cellCount) := by
  unfold Overlooked at hoverlooked
  induction count generalizing machine configuration budget steps transitions with
  | zero =>
    obtain ⟨rfl, -⟩ := stopsAt_zero_iff.mp hstops
    obtain ⟨rfl, hstate⟩ : budget = 0 ∧ configuration.state ≠ 0 := by omega
    rw [runFrom_zero, hshows.haltsNow_eq, if_neg hstate]
    exact ⟨rfl, hshows.head_of_not_onTape hoff⟩
  | succ count ih =>
    obtain ⟨hon, hstate⟩ := hstops.going
    obtain ⟨next, after, hnext, hcells, hafter, hrun⟩ := hshows.runFrom_transition hon hstate
    obtain ⟨hfull, hpartial⟩ := hrun budget steps transitions
    rw [stopsAt_succ_iff hnext] at hstops
    rcases Nat.lt_or_ge budget 31 with hlt | hge
    · -- The head is moved by the last step of the budget.
      obtain ⟨rfl, rfl⟩ : budget = 30 ∧ count = 0 := by omega
      obtain ⟨rfl, -⟩ := stopsAt_zero_iff.mp hstops
      obtain ⟨hcount, hat⟩ :=
        hshows.headAt_of_partial hon hstate hnext (by decide) hlt steps transitions
      rw [if_pos rfl] at hat
      refine ⟨hpartial (by decide) hlt, ?_⟩
      rw [head_of_headAt hat, hcount]
      exact if_neg hoff
    · rw [← hcells] at hstops hoff
      have hrest : 31 * count = budget - 31 + 1 ∨ 31 * count = budget - 31 ∧ last.state ≠ 0 := by
        omega
      obtain ⟨hresult, hhead⟩ := ih hafter hstops hoff hrest (steps + 31) (transitions + 1)
      have hsteps : steps + 31 + (budget - 31) = steps + budget := by omega
      have htransitions : transitions + 1 + (budget - 31 + 30) / 31 =
          transitions + (budget + 30) / 31 := by omega
      rw [hfull hge, hresult, hhead, hcells, hsteps, htransitions]
      exact ⟨rfl, rfl⟩

/-- Shown, such a run reports the head. -/
theorem runShown_of_overlooked {start : Machine} {count budget : Nat}
    (hshows : machine.Shows rows configuration) (hsound : Sound start machine)
    (htabled : start.Tabled) (hstops : StopsAt rows machine.cellCount configuration count last)
    (hoff : ¬ last.OnTape machine.cellCount) (hoverlooked : Overlooked budget count last) :
    (machine.run budget).result =
        .ok { ending := .exhausted, steps := budget, transitions := (budget + 30) / 31 } ∧
      (machine.runShown budget).result = .error (.offTape last.head machine.cellCount) := by
  obtain ⟨hexhausted, hhead⟩ := hshows.runFrom_of_overlooked hstops hoff hoverlooked 0 0
  rw [← run_eq_runFrom, Nat.zero_add, Nat.zero_add] at hexhausted
  rw [← run_eq_runFrom] at hhead
  refine ⟨hexhausted, ?_⟩
  rw [(hsound.runShown_eq htabled budget).2, hexhausted, hhead]
  rfl

/-- A run that neither sees the Turing machine stop nor overlooks its head leaves the head on the
tape. -/
theorem head_of_not_overlooked {budget : Nat} (hshows : machine.Shows rows configuration)
    (hunseen : ∀ count last, StopsAt rows machine.cellCount configuration count last →
      ¬ Seen budget count last)
    (hnoticed : ∀ count last, StopsAt rows machine.cellCount configuration count last →
      ¬ last.OnTape machine.cellCount → ¬ Overlooked budget count last)
    (steps transitions : Nat) :
    ∃ position, (runFrom silent budget steps transitions machine ()).machine.head =
      .ok position := by
  induction budget using Nat.strongRecOn generalizing machine configuration steps transitions with
  | ind budget ih =>
    by_cases hstops : configuration.state = 0 ∨ ¬ configuration.OnTape machine.cellCount
    · -- A machine that has stopped is seen or overlooked with any budget.
      have hstart : StopsAt rows machine.cellCount configuration 0 configuration :=
        stopsAt_zero_iff.mpr ⟨rfl, hstops⟩
      have hnot := hunseen 0 configuration hstart
      unfold Seen at hnot
      have hoff : ¬ configuration.OnTape machine.cellCount := by
        refine hstops.resolve_left fun hhalt ↦ hnot ?_
        omega
      refine absurd ?_ (hnoticed 0 configuration hstart hoff)
      unfold Overlooked
      omega
    · rw [not_or, Decidable.not_not] at hstops
      obtain ⟨hstate, hon⟩ := hstops
      obtain ⟨next, after, hnext, hcells, hafter, hrun⟩ := hshows.runFrom_transition hon hstate
      rcases Nat.lt_or_ge budget 31 with hlt | hge
      · rcases Nat.eq_zero_or_pos budget with rfl | hpos
        · exact ⟨_, hshows.head_of_onTape hon⟩
        · refine hshows.exists_head_of_partial hon hstate hnext hpos hlt (fun hlast ↦ ?_) _ _
          refine Decidable.byContradiction fun hoff ↦ ?_
          have hone := (stopsAt_succ_iff hnext).mpr (stopsAt_zero_iff.mpr ⟨rfl, Or.inr hoff⟩)
          refine hnoticed 1 next hone hoff ?_
          unfold Overlooked
          omega
      · have hrestUnseen : ∀ count last, StopsAt rows after.cellCount next count last →
            ¬ Seen (budget - 31) count last := by
          intro count last hlast
          rw [hcells] at hlast
          exact not_seen_of_step hnext hge hunseen hlast
        have hrestNoticed : ∀ count last, StopsAt rows after.cellCount next count last →
            ¬ last.OnTape after.cellCount → ¬ Overlooked (budget - 31) count last := by
          intro count last hlast hoff hoverlooked
          rw [hcells] at hoff
          rw [hcells, ← stopsAt_succ_iff hnext] at hlast
          refine hnoticed (count + 1) last hlast hoff ?_
          unfold Overlooked at hoverlooked ⊢
          omega
        rw [(hrun budget steps transitions).1 hge]
        exact ih (budget - 31) (by omega) hafter hrestUnseen hrestNoticed _ _

/-- A run that sees the Turing machine stop reports the same when it is shown. -/
theorem runShown_of_seen {start : Machine} {count budget : Nat}
    (hshows : machine.Shows rows configuration) (hsound : Sound start machine)
    (htabled : start.Tabled) (hstops : StopsAt rows machine.cellCount configuration count last)
    (hseen : Seen budget count last) :
    (machine.runShown budget).result = (machine.run budget).result := by
  obtain ⟨hreport, hlast⟩ := hshows.runFrom_of_stopsAt hstops hseen 0 0
  rw [← run_eq_runFrom] at hreport hlast
  by_cases hon : last.OnTape machine.cellCount
  · rw [hsound.intact.sameProgram.cellCount,
      ← (hsound.run htabled budget).intact.sameProgram.cellCount] at hon
    exact hsound.runShown_of_head htabled (hlast.head_of_onTape hon)
  · rw [(hsound.runShown_eq htabled budget).2, hreport, report, if_neg hon]
    rfl

/-- So does one that does not, unless it overlooks the head. -/
theorem runShown_of_not_overlooked {start : Machine} {budget : Nat}
    (hshows : machine.Shows rows configuration) (hsound : Sound start machine)
    (htabled : start.Tabled)
    (hnoticed : ∀ count last, StopsAt rows machine.cellCount configuration count last →
      ¬ last.OnTape machine.cellCount → ¬ Overlooked budget count last) :
    (machine.runShown budget).result = (machine.run budget).result := by
  by_cases hseen : ∃ count last, StopsAt rows machine.cellCount configuration count last ∧
      Seen budget count last
  · obtain ⟨count, last, hstops, hbudget⟩ := hseen
    exact hshows.runShown_of_seen hsound htabled hstops hbudget
  · rw [not_exists] at hseen
    have hunseen : ∀ count last, StopsAt rows machine.cellCount configuration count last →
        ¬ Seen budget count last :=
      fun count last hstops hbudget ↦ hseen count ⟨last, hstops, hbudget⟩
    obtain ⟨found, hfound⟩ := hshows.head_of_not_overlooked hunseen hnoticed 0 0
    exact hsound.runShown_of_head htabled hfound

end Shows

/-! ### Machines of tables -/

/-- The machine of a table is sound, with any text placed on its tape. -/
theorem sound_of_place (hmachine : ofTable rows cells = .ok machine) {text : String}
    {position head : Nat}
    (hplace : machine.after (Action.place text position head) = .ok placed) :
    machine.Tabled ∧ Sound machine placed := by
  obtain ⟨hbuilt, -⟩ := built_of_ofTable hmachine
  have hprogram := (carries_of_ofTable hmachine).program
  have htabled := tabled_of_validate hprogram (validate_of_ofTable hmachine)
  have hsound : Sound machine machine :=
    ⟨⟨.refl machine, rfl, fun position hposition ↦ ⟨_, hbuilt.cell position hposition⟩, 0,
      by omega, by omega, hbuilt.headAt⟩, Or.inl (stateAt_of_ofTable hmachine)⟩
  have hplaced := hsound.leaves htabled (.place text position head)
  rw [Call.leaves, Action.leaves_of_after hplace] at hplaced
  exact ⟨htabled, hplaced⟩

/-- A table with one state, which goes on to the left. -/
def leftward : List Row := [PerSymbol.ofFun fun _ ↦ { write := .zero, move := .left, next := 1 }]

theorem exists_leftward :
    ∃ machine placed, ofTable leftward 16 = .ok machine ∧ machine.cellCount = 16 ∧
      machine.after (Action.place "" 0 0) = .ok placed :=
  exists_placed leftward "" 0 0 rfl

/-- Showing a run of the machine of a table, with a text placed on its tape, changes nothing of the
machine that the run leaves. It changes nothing of what the run reports either, unless the run
overlooks that the head left the tape: then it reports that its budget is used up, and the head off
the tape when it is shown. -/
theorem runShown_of_ofTable (hmachine : ofTable rows cells = .ok machine) {text : String}
    {position head : Nat}
    (hplace : machine.after (Action.place text position head) = .ok placed) (budget : Nat) :
    (placed.runShown budget).machine = (placed.run budget).machine ∧
    ((∀ count last,
      StopsAt rows machine.cellCount (initial rows text position head) count last →
      ¬ last.OnTape machine.cellCount → ¬ Overlooked budget count last) →
      (placed.runShown budget).result = (placed.run budget).result) ∧
    ∀ count last,
      StopsAt rows machine.cellCount (initial rows text position head) count last →
      ¬ last.OnTape machine.cellCount → Overlooked budget count last →
      (placed.run budget).result =
          .ok { ending := .exhausted, steps := budget, transitions := (budget + 30) / 31 } ∧
        (placed.runShown budget).result = .error (.offTape last.head machine.cellCount) := by
  obtain ⟨hshows, hcells⟩ :=
    shows_initial (carries_of_ofTable hmachine) (pointer_of_ofTable hmachine) hplace
  obtain ⟨htabled, hsound⟩ := sound_of_place hmachine hplace
  rw [← hcells]
  exact ⟨(hsound.runShown_eq htabled budget).1,
    fun hnoticed ↦ hshows.runShown_of_not_overlooked hsound htabled hnoticed,
    fun count last hstops hoff hoverlooked ↦
      hshows.runShown_of_overlooked hsound htabled hstops hoff hoverlooked⟩

/-- With forty steps the head of that machine is seen to have left the tape, whether or not the run
is shown. -/
theorem runShown_of_ofTable_leftward :
    ∃ machine placed, ofTable leftward 16 = .ok machine ∧
      machine.after (Action.place "" 0 0) = .ok placed ∧
      (placed.runShown 40).machine = (placed.run 40).machine ∧
      (placed.runShown 40).result = (placed.run 40).result := by
  obtain ⟨machine, placed, hmachine, -, hplace⟩ := exists_leftward
  obtain ⟨hsame, hresult, -⟩ := runShown_of_ofTable hmachine hplace 40
  refine ⟨machine, placed, hmachine, hplace, hsame, hresult fun count last hstops hoff ↦ ?_⟩
  unfold Overlooked
  omega

/-- With thirty-one steps the head has left the tape and is overlooked, unless the run is shown. -/
theorem runShown_of_leftward_differs :
    ∃ machine placed, ofTable leftward 16 = .ok machine ∧
      machine.after (Action.place "" 0 0) = .ok placed ∧
      (placed.run 31).result =
        .ok { ending := .exhausted, steps := 31, transitions := 1 } ∧
      (placed.runShown 31).result = .error (.offTape (-1) 16) := by
  obtain ⟨machine, placed, hmachine, hcount, hplace⟩ := exists_leftward
  obtain ⟨hshows, hcells⟩ :=
    shows_initial (carries_of_ofTable hmachine) (pointer_of_ofTable hmachine) hplace
  obtain ⟨htabled, hsound⟩ := sound_of_place hmachine hplace
  have hsixteen : placed.cellCount = 16 := hcells.trans hcount
  have hstops : StopsAt leftward placed.cellCount (initial leftward "" 0 0) 1
      ((initial leftward "" 0 0).apply { write := .zero, move := .left, next := 1 }) := by
    rw [hsixteen]
    exact ⟨rfl, Or.inr (by decide)⟩
  have hoverlooked := hshows.runShown_of_overlooked hsound htabled hstops
    (by rw [hsixteen]; decide) (Or.inr ⟨rfl, by decide⟩)
  rw [hsixteen] at hoverlooked
  exact ⟨machine, placed, hmachine, hplace, hoverlooked⟩

end Machine

end TapeMachine
