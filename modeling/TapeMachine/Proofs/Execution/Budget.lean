import TapeMachine.Proofs.Execution.Verdict
import TapeMachine.Proofs.Machine.Image
import TapeMachine.Proofs.Table.Build

/-!
# Budgets of runs

A run ends in one of two ways. Either one of its steps halts or fails, or its observer ends it: then
a larger budget changes nothing. Or its budget is used up, and the verdict on the machine is
announced without a step (`verdictNow`); a run with a larger budget goes by the step instead
(`verdictNext`). The end of a run is therefore the same for all larger budgets, unless it is
announced on a flawed machine.
-/

set_option autoImplicit false

namespace TapeMachine

/-- Whether a run came to another end than that of its budget. -/
def Run.Terminal {σ : Type} (run : Run σ) : Prop :=
  ∀ outcome, run.result = .ok outcome → outcome.ending = .halted

/-- Whether a run was ended by a failure of its observer. -/
def Run.Refused {σ : Type} (observe : Observer σ) (run : Run σ) : Prop :=
  ∃ number reading record fault,
    observe number reading run.machine record = .error fault run.record ∧
      run.result = .error fault

namespace Machine

attribute [local irreducible] Buffer.setWord Buffer.setSlot Action.step haltsNow

/-- The machine after a step that neither halts nor fails. -/
def stepOn? (machine : Machine) : Option Machine :=
  match Action.step machine with
  | .ok .halted _ => none
  | .ok _ after => some after
  | .error _ _ => none

/-- The machine after a number of steps that neither halt nor fail. -/
def stepsOn? (machine : Machine) : Nat → Option Machine
  | 0 => some machine
  | count + 1 => (machine.stepsOn? count).bind stepOn?

/-- What a run reports of a verdict, after a number of steps and transitions. -/
def conclude (steps transitions : Nat) (verdict : Except Fault Unit) : Except Fault Outcome :=
  verdict.map fun _ ↦ { ending := .halted, steps := steps, transitions := transitions }

variable {machine next last : Machine} {verdict other : Except Fault Unit} {count : Nat}

theorem stepOn?_of_executed {opcode : Opcode}
    (hstep : Action.step machine = .ok (.executed opcode) next) : machine.stepOn? = some next := by
  rw [stepOn?, hstep]

theorem stepOn?_of_transition {reading : Reading}
    (hstep : Action.step machine = .ok (.transition reading) next) :
    machine.stepOn? = some next := by
  rw [stepOn?, hstep]

theorem stepsOn?_add (count more : Nat) :
    machine.stepsOn? (count + more) =
      (machine.stepsOn? count).bind fun middle ↦ middle.stepsOn? more := by
  induction more with
  | zero => exact (Option.bind_fun_some _).symm
  | succ more ih => rw [← Nat.add_assoc, stepsOn?, ih, Option.bind_assoc]; rfl

/-- The first step comes before the others. -/
theorem stepsOn?_succ_eq (count : Nat) :
    machine.stepsOn? (count + 1) = machine.stepOn?.bind fun next ↦ next.stepsOn? count := by
  rw [Nat.add_comm, stepsOn?_add]
  rfl

theorem conclude_inj {steps transitions : Nat}
    (heq : conclude steps transitions verdict = conclude steps transitions other) :
    verdict = other := by
  cases verdict with
  | error fault =>
    cases other with
    | error cause => exact congrArg Except.error (Except.error.inj heq)
    | ok _ => cases heq
  | ok _ =>
    cases other with
    | error cause => cases heq
    | ok _ => rfl

/-! ### The next step of a run -/

section Step

variable {σ : Type} (observe : Observer σ) (budget steps transitions : Nat) (record : σ)

/-- A used-up budget has the verdict announced. -/
theorem runFrom_zero_of_verdictNow (hnow : machine.verdictNow = some verdict) :
    (runFrom observe 0 steps transitions machine record).result =
      conclude steps transitions verdict := by
  unfold verdictNow at hnow
  rw [runFrom_zero]
  dsimp only
  split at hnow
  · next hhalts =>
    cases hnow
    rw [hhalts]
    rfl
  · cases hnow
  · next hfails =>
    cases hnow
    rw [hfails]
    rfl

theorem runFrom_zero_of_verdictNow_none (hnow : machine.verdictNow = none) :
    (runFrom observe 0 steps transitions machine record).result =
      .ok { ending := .exhausted, steps := steps, transitions := transitions } := by
  unfold verdictNow at hnow
  rw [runFrom_zero]
  dsimp only
  split at hnow
  · cases hnow
  · next hruns =>
    rw [hruns]
    rfl
  · cases hnow

/-- With budget left the step is asked. -/
theorem runFrom_succ_of_verdictNext (hnext : machine.verdictNext = some verdict) :
    (runFrom observe (budget + 1) steps transitions machine record).result =
      conclude steps transitions verdict := by
  unfold verdictNext at hnext
  split at hnext
  · next after hstep =>
    cases hnext
    rw [runFrom_of_halted observe budget steps transitions record hstep]
    rfl
  · cases hnext
  · next fault after hstep =>
    cases hnext
    rw [runFrom_of_error observe budget steps transitions record hstep]
    rfl

/-- The verdict is open exactly if the machine steps on. -/
theorem verdictNext_eq_none_iff : machine.verdictNext = none ↔ machine.stepOn? ≠ none := by
  unfold verdictNext stepOn?
  cases Action.step machine with
  | error fault after => simp
  | ok result after =>
    cases result with
    | halted => simp
    | executed opcode => simp
    | transition reading => simp

/-- With budget left a run either goes on with the machine that the step leads to, or has ended and
needs no more budget. -/
theorem runFrom_succ_cases (machine : Machine) :
    (∃ next later seen, machine.stepOn? = some next ∧ ∀ budget,
      runFrom observe (budget + 1) steps transitions machine record =
        runFrom observe budget (steps + 1) later next seen) ∨
    ∃ stopped : Run σ, (machine.stepOn? = none ∨ stopped.Refused observe) ∧ ∀ budget,
      runFrom observe (budget + 1) steps transitions machine record = stopped := by
  unfold stepOn?
  cases hstep : Action.step machine with
  | error fault after =>
    exact Or.inr ⟨_, Or.inl rfl, fun budget ↦ runFrom_of_error observe _ _ _ _ hstep⟩
  | ok result after =>
    cases result with
    | halted => exact Or.inr ⟨_, Or.inl rfl, fun budget ↦ runFrom_of_halted observe _ _ _ _ hstep⟩
    | executed opcode =>
      exact Or.inl ⟨_, _, _, rfl, fun budget ↦ runFrom_of_executed observe _ _ _ _ hstep⟩
    | transition reading =>
      cases hobserve : observe (transitions + 1) reading after record with
      | ok _ seen =>
        exact Or.inl ⟨_, _, _, rfl, fun budget ↦
          runFrom_of_transition observe _ _ _ _ hstep hobserve⟩
      | error fault seen =>
        exact Or.inr ⟨_, Or.inr ⟨_, _, _, _, hobserve, rfl⟩, fun budget ↦
          runFrom_of_refused observe _ _ _ _ hstep hobserve⟩

end Step

/-! ### Many steps of a run -/

section Steps

variable {σ : Type} (observe : Observer σ)

/-- A run gets to the machine that steps on lead to as soon as its budget allows for them, unless
its observer has ended it. -/
theorem runFrom_of_stepsOn (hsteps : machine.stepsOn? count = some last) (steps transitions : Nat)
    (record : σ) :
    (∃ later seen, ∀ budget,
      runFrom observe (budget + count) steps transitions machine record =
        runFrom observe budget (steps + count) later last seen) ∨
    ∃ stopped : Run σ, stopped.Refused observe ∧ ∀ budget,
      runFrom observe (budget + count) steps transitions machine record = stopped := by
  induction count generalizing machine steps transitions record with
  | zero =>
    cases hsteps
    exact Or.inl ⟨transitions, record, fun budget ↦ rfl⟩
  | succ count ih =>
    rw [stepsOn?_succ_eq] at hsteps
    obtain ⟨next, hnext, hrest⟩ := Option.bind_eq_some_iff.mp hsteps
    have hcount : steps + (count + 1) = steps + 1 + count := by omega
    simp only [← Nat.add_assoc, hcount]
    rcases runFrom_succ_cases observe steps transitions record machine with
      ⟨other, later, seen, hother, hrun⟩ | ⟨stopped, hnone | hrefused, hrun⟩
    · cases hnext.symm.trans hother
      simp only [hrun]
      exact ih hrest (steps + 1) later seen
    · cases hnext.symm.trans hnone
    · exact Or.inr ⟨stopped, hrefused, fun budget ↦ hrun (budget + count)⟩

/-- A run that ends within some steps needs no larger budget. -/
theorem runFrom_of_stepsOn_none (hsteps : machine.stepsOn? count = none) {larger : Nat}
    (hlarger : count ≤ larger) (steps transitions : Nat) (record : σ) :
    runFrom observe larger steps transitions machine record =
      runFrom observe count steps transitions machine record := by
  induction count generalizing larger machine steps transitions record with
  | zero => cases hsteps
  | succ count ih =>
    obtain ⟨rest, rfl⟩ := Nat.exists_eq_add_of_le' (Nat.le_trans (Nat.le_add_left 1 count) hlarger)
    rcases runFrom_succ_cases observe steps transitions record machine with
      ⟨next, later, seen, hnext, hrun⟩ | ⟨stopped, -, hrun⟩
    · rw [stepsOn?_succ_eq, hnext, Option.bind_some] at hsteps
      rw [hrun, hrun]
      exact ih hsteps (Nat.le_of_succ_le_succ hlarger) (steps + 1) later seen
    · rw [hrun, hrun]

end Steps

/-- Nothing but its own steps ends a run that nobody observes. -/
theorem run_of_stepsOn (hsteps : machine.stepsOn? count = some last) :
    ∃ transitions, ∀ budget,
      machine.run (count + budget) = runFrom silent budget count transitions last () := by
  rcases runFrom_of_stepsOn silent hsteps 0 0 () with
    ⟨later, seen, hrun⟩ | ⟨stopped, ⟨_, _, _, _, hrefused, -⟩, -⟩
  · refine ⟨later, fun budget ↦ ?_⟩
    rw [run_eq_runFrom, Nat.add_comm, hrun, Nat.zero_add]
  · cases hrefused

/-- A run that ends with its budget, though not because of it, announces a verdict on the machine
that it leaves. -/
theorem exists_verdictNow_of_terminal (hterminal : (machine.run count).Terminal)
    (hsteps : machine.stepsOn? count = some last) : ∃ verdict, last.verdictNow = some verdict := by
  obtain ⟨transitions, hrun⟩ := run_of_stepsOn hsteps
  cases hnow : last.verdictNow with
  | some verdict => exact ⟨verdict, rfl⟩
  | none =>
    have hexhausted := runFrom_zero_of_verdictNow_none silent count transitions () hnow
    rw [← hrun, Nat.add_zero] at hexhausted
    cases hterminal _ hexhausted

/-! ### The machine of the empty table -/

/-- A machine of the table without states is in the halt state, with its head on the first cell. -/
theorem halts_of_ofTable_nil (hmachine : ofTable [] 16 = .ok machine) :
    (∃ rules, machine.StateAt machine.pointer rules) ∧ machine.pointer = Offset.halt ∧
      machine.head = .ok 0 := by
  obtain ⟨hbuilt, -⟩ := built_of_ofTable hmachine
  have hpointer : machine.pointer = Offset.halt := pointer_of_ofTable hmachine
  have hstate : machine.StateAt Offset.halt _ :=
    (carries_of_ofTable hmachine).stateAt (show (Row.halt :: [])[0]? = some _ from rfl)
  refine ⟨⟨_, hpointer ▸ hstate⟩, hpointer, head_eq_ok_iff.mpr ⟨hbuilt.headAt, ?_⟩⟩
  rw [cellCount_of_ofTable hmachine]
  decide

/-! ### Larger budgets -/

/-- A run that is not shown, and that halted or failed, comes to the same end with every larger
budget, unless its budget was used up on a flawed machine. On a flawed machine the end is not to be
relied on: with one step more the run goes on, or comes to another end. -/
theorem run_with_larger_budget {budget : Nat} (hterminal : (machine.run budget).Terminal) :
    ((∀ last, machine.stepsOn? budget = some last → ¬ last.Flawed) →
      ∀ larger, budget ≤ larger → (machine.run larger).result = (machine.run budget).result) ∧
    ∀ last, machine.stepsOn? budget = some last → last.Flawed →
      machine.stepsOn? (budget + 1) ≠ none ∨
        (machine.run (budget + 1)).result ≠ (machine.run budget).result := by
  constructor
  · intro hsound larger hlarger
    cases hsteps : machine.stepsOn? budget with
    | none => exact congrArg Run.result (runFrom_of_stepsOn_none silent hsteps hlarger 0 0 ())
    | some last =>
      obtain ⟨transitions, hrun⟩ := run_of_stepsOn hsteps
      obtain ⟨verdict, hnow⟩ := exists_verdictNow_of_terminal hterminal hsteps
      have hnext : last.verdictNext = some verdict := Classical.byContradiction fun hdiffers ↦
        hsound last hsteps (flawed_of_differs hnow hdiffers)
      have hall : ∀ extra, (machine.run (budget + extra)).result =
          conclude budget transitions verdict := by
        intro extra
        rw [hrun]
        cases extra with
        | zero => exact runFrom_zero_of_verdictNow silent budget transitions () hnow
        | succ extra => exact runFrom_succ_of_verdictNext silent extra budget transitions () hnext
      obtain ⟨extra, rfl⟩ := Nat.exists_eq_add_of_le hlarger
      rw [hall extra, ← hall 0, Nat.add_zero]
  · intro last hsteps hflawed
    obtain ⟨transitions, hrun⟩ := run_of_stepsOn hsteps
    obtain ⟨verdict, hnow, hdiffers⟩ := hflawed.differs
    have hresult := runFrom_zero_of_verdictNow silent budget transitions () hnow
    rw [← hrun, Nat.add_zero] at hresult
    cases hnext : last.verdictNext with
    | none =>
      left
      rw [stepsOn?, hsteps, Option.bind_some]
      exact verdictNext_eq_none_iff.mp hnext
    | some other =>
      right
      rw [hrun, runFrom_succ_of_verdictNext silent 0 budget transitions () hnext, hresult]
      intro heq
      rw [hnext, conclude_inj heq] at hdiffers
      exact hdiffers rfl

/-- A machine of the table without states is halted with any budget. -/
theorem run_with_larger_budget_halt_state :
    ∃ machine, ofTable [] 16 = .ok machine ∧ (machine.run 0).Terminal ∧
      ∀ larger, (machine.run larger).result = (machine.run 0).result := by
  obtain ⟨machine, hmachine⟩ :=
    exists_eq_ok_of_toBool (show (ofTable [] 16).toBool = true from rfl)
  obtain ⟨⟨rules, hstate⟩, hpointer, hhead⟩ := halts_of_ofTable_nil hmachine
  have hnow : machine.verdictNow = some (.ok ()) := by
    rw [verdictNow_of_stateAt hstate, if_pos hpointer, hhead]
    rfl
  have hnext : machine.verdictNext = some (.ok ()) := by
    rw [verdictNext_of_stateAt_halt hstate hpointer, symbolUnderHead_of_head hhead,
      (built_of_ofTable hmachine).1.cell 0 (head_eq_ok_iff.mp hhead).2]
    rfl
  have hresult := runFrom_zero_of_verdictNow silent 0 0 () hnow
  have hterminal : (machine.run 0).Terminal := by
    intro outcome houtcome
    rw [run_eq_runFrom, hresult] at houtcome
    cases houtcome
    rfl
  refine ⟨machine, hmachine, hterminal, fun larger ↦ ?_⟩
  refine (run_with_larger_budget hterminal).1 (fun last hlast hflawed ↦ ?_) larger
    (Nat.zero_le larger)
  cases hlast
  obtain ⟨verdict, hverdict, hdiffers⟩ := hflawed.differs
  rw [hnow] at hverdict
  rw [hnext] at hdiffers
  exact hdiffers hverdict

/-! ### A cell without a symbol -/

/-- In the halt state with the head on a cell without a symbol, a machine is halted without budget,
and fails with any. -/
theorem run_of_halt_of_cell_error {rules : StateRules} {position : Nat} {fault : Fault}
    (hstate : machine.StateAt machine.pointer rules) (hpointer : machine.pointer = Offset.halt)
    (hhead : machine.head = .ok position) (hcell : machine.cell position = .error fault) :
    (machine.run 0).result = .ok { ending := .halted, steps := 0, transitions := 0 } ∧
      ∀ budget, (machine.run (budget + 1)).result = .error fault := by
  have hnow : machine.verdictNow = some (.ok ()) := by
    rw [verdictNow_of_stateAt hstate, if_pos hpointer, hhead]
    rfl
  have hnext : machine.verdictNext = some (.error fault) := by
    rw [verdictNext_of_stateAt_halt hstate hpointer, symbolUnderHead_of_head hhead, hcell]
    rfl
  exact ⟨runFrom_zero_of_verdictNow silent 0 0 () hnow,
    fun budget ↦ runFrom_succ_of_verdictNext silent budget 0 0 () hnext⟩

/-- A machine with three, which is the code of no symbol, in its first cell and blanks in the
fifteen cells after it. -/
def spoiled (machine : Machine) : Machine :=
  machine.setWord (machine.regions.tapeWord + 2) 0xAAAAAAAB

theorem retaped_spoiled (machine : Machine) : machine.spoiled.Retaped machine := by
  refine ⟨rfl, fun index hindex ↦ machine.word_setWord_of_ne _ ?_⟩
  change index ≤ machine.regions.tapeWord at hindex
  omega

theorem headField_spoiled (machine : Machine) : machine.spoiled.headField = machine.headField :=
  machine.headField_setWord_of_ne _ (by rw [Regions.headWord]; omega)

theorem slot_spoiled (machine : Machine) {position : Nat} (hposition : position < machine.cellCount)
    (hsixteen : position < 16) :
    (machine.spoiled.buffer.slot (machine.regions.cellSlot position)).toNat =
      0xAAAAAAAB / 4 ^ position % 4 := by
  have hindex := machine.cellSlot_lt_wordCount hposition
  have hdivide : machine.regions.cellSlot position / 16 = machine.regions.tapeWord + 2 := by
    rw [Regions.cellSlot]
    omega
  have hdigit : machine.regions.cellSlot position % 16 = position := by
    rw [Regions.cellSlot]
    omega
  rw [Buffer.toNat_slot_eq_word, hdivide, hdigit, spoiled,
    machine.word_setWord_self _ (hdivide ▸ hindex)]
  rfl

theorem cell_spoiled (machine : Machine) (hcells : 0 < machine.cellCount) :
    machine.spoiled.cell 0 = .error (.notASymbol (2 * machine.regions.cellSlot 0 : Nat) 3) := by
  have hslot : machine.spoiled.buffer.slot (machine.regions.cellSlot 0) = 3 :=
    UInt8.toNat.inj (machine.slot_spoiled hcells (by decide))
  unfold cell checkPosition
  rw [if_pos (show 0 < machine.spoiled.cellCount from hcells)]
  simp only [bind, Except.bind]
  rw [show machine.spoiled.regions = machine.regions from rfl, hslot]
  rfl

/-- The cells beside it hold blanks. -/
theorem cell_spoiled_of_pos (machine : Machine) {position : Nat} (hpos : 0 < position)
    (hsixteen : position < 16) (hposition : position < machine.cellCount) :
    machine.spoiled.cell position = .ok .blank := by
  have htwo : ∀ position < 16, 0 < position → 0xAAAAAAAB / 4 ^ position % 4 = 2 := by decide
  have hslot : machine.spoiled.buffer.slot (machine.regions.cellSlot position) = 2 := by
    refine UInt8.toNat.inj ?_
    rw [machine.slot_spoiled hposition hsixteen, htwo position hsixteen hpos]
    rfl
  unfold cell checkPosition
  rw [if_pos (show position < machine.spoiled.cellCount from hposition)]
  simp only [bind, Except.bind]
  rw [show machine.spoiled.regions = machine.regions from rfl, hslot]
  rfl

theorem tape_spoiled (machine : Machine) (hcells : machine.cellCount = 16) :
    machine.spoiled.tape = .error (.notASymbol (2 * machine.regions.cellSlot 0 : Nat) 3) := by
  unfold tape
  rw [show machine.spoiled.cellCount = 16 from hcells]
  refine mapM_eq_error_iff.mpr ⟨(List.range' 1 15).reverse, 0, [], rfl, ?_,
    machine.cell_spoiled (by omega)⟩
  intro position hposition
  rw [List.mem_reverse, List.mem_range'_1] at hposition
  exact ⟨_, machine.cell_spoiled_of_pos (by omega) (by omega) (by omega)⟩

theorem head_spoiled {entries : List Entry} {start : Offset} (hbuilt : Built entries start machine)
    (hcells : 0 < machine.cellCount) : machine.spoiled.head = .ok 0 := by
  refine head_eq_ok_iff.mpr ⟨?_, hcells⟩
  unfold HeadAt
  rw [headField_spoiled]
  exact hbuilt.headAt

/-- A machine that was built can be loaded with its first cell spoiled. -/
theorem ofImage_spoiled {entries : List Entry} {start : Offset}
    (hbuilt : Built entries start machine) :
    ofImage machine.spoiled.buffer = .ok machine.spoiled := by
  have hretaped := machine.retaped_spoiled
  refine ofImage_buffer ?_ ?_
  · rw [hretaped.word 0 (Nat.zero_le _), hbuilt.programWords, hretaped.regions]
  · rw [hretaped.word _ (Nat.le_refl _), hretaped.regions, hbuilt.tapeWords]

/-- The machine of the empty table with a spoiled cell under its head can be loaded, and its end
depends on the budget. -/
theorem larger_budget_fails_on_cell :
    ∃ built, ofTable [] 16 = .ok built ∧ ofImage built.spoiled.buffer = .ok built.spoiled ∧
      (built.spoiled.run 0).result = .ok { ending := .halted, steps := 0, transitions := 0 } ∧
      (built.spoiled.run 1).result = .error (.notASymbol 6848 3) := by
  obtain ⟨built, hmachine⟩ := exists_eq_ok_of_toBool (show (ofTable [] 16).toBool = true from rfl)
  obtain ⟨⟨rules, hstate⟩, hpointer, hhead⟩ := halts_of_ofTable_nil hmachine
  obtain ⟨hbuilt, -⟩ := built_of_ofTable hmachine
  have hretaped := built.retaped_spoiled
  have hcells := (head_eq_ok_iff.mp hhead).2
  have hspoiledState : built.spoiled.StateAt built.spoiled.pointer rules := by
    rw [hretaped.pointer]
    exact hstate.of_sameProgram hretaped.sameProgram.symm hbuilt.addressable
  obtain ⟨hnone, hsome⟩ := run_of_halt_of_cell_error hspoiledState
    (hretaped.pointer.trans hpointer) (head_spoiled hbuilt hcells) (built.cell_spoiled hcells)
  have hslot : built.regions.cellSlot 0 = 3424 := by
    rw [Regions.cellSlot, Regions.tapeWord_eq, Regions.programWords, hbuilt.count]
    rfl
  refine ⟨built, hmachine, ofImage_spoiled hbuilt, hnone, ?_⟩
  rw [hsome 0, hslot]
  rfl

end Machine

end TapeMachine
