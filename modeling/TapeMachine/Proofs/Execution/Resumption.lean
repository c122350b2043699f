import TapeMachine.Proofs.Execution.Observers
import TapeMachine.Proofs.Execution.Shown
import TapeMachine.Proofs.Turing.Placed

/-!
# Runs that are resumed

A run that ends because its budget is used up can be resumed: a run on the machine that it left does
what the rest of a longer run would have done, wherever the cut falls. The second run counts from
nothing, and `resuming` adds what the first one counted to what the second reports and to what its
observer is told. What observers are told is itself kept by an observer (`Observer.logging`), so
that the law of runs is also the law of what they tell. A run that is shown has an observer as well,
and the snapshots of the two runs are those of the longer one, but for the one that was taken where
it was cut.
-/

set_option autoImplicit false

open TapeMachine.Turing

namespace TapeMachine

/-- The end of a run that resumes an earlier one, counted from the beginning of the earlier one. -/
def Outcome.resuming (outcome earlier : Outcome) : Outcome :=
  { ending := outcome.ending
    steps := earlier.steps + outcome.steps
    transitions := earlier.transitions + outcome.transitions }

/-- The end of a run before its first step. -/
def Outcome.zero : Outcome := { ending := .exhausted, steps := 0, transitions := 0 }

/-- A run that resumes an earlier one, counted from the beginning of the earlier one. A fault is the
same for both. -/
def Run.resuming {σ : Type} (run : Run σ) (earlier : Outcome) : Run σ :=
  { run with result := run.result.map fun outcome ↦ outcome.resuming earlier }

theorem Run.resuming_zero {σ : Type} (run : Run σ) : run.resuming Outcome.zero = run := by
  obtain ⟨result, machine, record⟩ := run
  cases result with
  | error fault => rfl
  | ok outcome => simp [Run.resuming, Outcome.resuming, Outcome.zero, Except.map]

theorem Outcome.resuming_inj {outcome other earlier : Outcome} :
    outcome.resuming earlier = other.resuming earlier ↔ outcome = other := by
  obtain ⟨ending, steps, transitions⟩ := outcome
  obtain ⟨otherEnding, otherSteps, otherTransitions⟩ := other
  simp [Outcome.resuming]

/-- What a resumed run reports tells what the earlier one and the two together do. -/
theorem Run.result_resuming_eq_ok_iff {σ : Type} {run : Run σ} {outcome earlier : Outcome} :
    (run.resuming earlier).result = .ok (outcome.resuming earlier) ↔ run.result = .ok outcome := by
  unfold Run.resuming
  cases run.result with
  | error fault => simp [Except.map]
  | ok found => simp [Except.map, Outcome.resuming_inj]

/-- A run with another record. -/
def Run.mapRecord {σ τ : Type} (image : σ → τ) (run : Run σ) : Run τ :=
  { result := run.result, machine := run.machine, record := image run.record }

namespace Observer

variable {σ τ : Type}

/-- A call of an observer: the number of a transition, and what the observer is told of it. -/
abbrev Call := Nat × Handover

/-- A call with its number counted on from a number of transitions. -/
def Call.resuming (transitions : Nat) (call : Call) : Call := (transitions + call.1, call.2)

theorem Call.resuming_zero : Call.resuming 0 = id := by
  funext ⟨number, handover⟩
  unfold Call.resuming
  rw [Nat.zero_add]
  rfl

/-- An observer that is told the numbers of transitions counted on from a number of them. -/
def resuming (observe : Observer σ) (transitions : Nat) : Observer σ :=
  fun number ↦ observe (transitions + number)

/-- An observer that keeps a log of its calls, also of one that it fails on. -/
def logging (observe : Observer σ) : Observer (List Call × σ) :=
  fun number reading machine (calls, record) ↦
    match observe number reading machine record with
    | .ok () seen => .ok () (calls ++ [(number, ⟨reading, machine⟩)], seen)
    | .error fault seen => .error fault (calls ++ [(number, ⟨reading, machine⟩)], seen)

/-- Whether an observer lets every run go on. -/
def NeverFails (observe : Observer σ) : Prop :=
  ∀ number reading machine record, ∃ seen, observe number reading machine record = .ok () seen

/-- Whether an observer does to the image of a record what another does to the record. The first is
told the numbers of transitions, which begin with 1, counted on from a number of them. -/
def Mirrors (mirror : Observer τ) (observe : Observer σ) (transitions : Nat) (image : σ → τ) :
    Prop :=
  ∀ number reading machine record, 0 < number →
    mirror (transitions + number) reading machine (image record) =
      match observe number reading machine record with
      | .ok () seen => .ok () (image seen)
      | .error fault seen => .error fault (image seen)

theorem mirrors_resuming (observe : Observer σ) (transitions : Nat) :
    observe.Mirrors (observe.resuming transitions) transitions id := by
  intro number reading machine record _
  unfold resuming
  cases hobserve : observe (transitions + number) reading machine record with
  | ok _ seen => simp [hobserve]
  | error fault seen => simp [hobserve]

theorem mirrors_logging (observe : Observer σ) : observe.Mirrors observe.logging 0 Prod.snd := by
  rintro number reading machine ⟨calls, record⟩ -
  rw [Nat.zero_add]
  unfold logging
  cases hobserve : observe number reading machine record with
  | ok _ seen => simp only [hobserve]
  | error fault seen => simp only [hobserve]

/-- An observer that never fails is as good as none. -/
theorem NeverFails.mirrors {observe : Observer σ} (hobserve : observe.NeverFails) :
    Machine.silent.Mirrors observe 0 fun _ ↦ () := by
  intro number reading machine record _
  obtain ⟨seen, hseen⟩ := hobserve number reading machine record
  rw [hseen]
  rfl

/-- The logs of two observers differ only in how the transitions are numbered. A log that was begun
with earlier calls goes on with the calls that the other has from nothing. -/
theorem Mirrors.logging {mirror : Observer τ} {observe : Observer σ} {transitions : Nat}
    {image : σ → τ} (hmirrors : mirror.Mirrors observe transitions image) (earlier : List Call) :
    mirror.logging.Mirrors observe.logging transitions
      fun (calls, record) ↦ (earlier ++ calls.map (Call.resuming transitions), image record) := by
  rintro number reading machine ⟨calls, record⟩ hnumber
  have hmirror := hmirrors number reading machine record hnumber
  unfold Observer.logging
  cases hobserve : observe number reading machine record with
  | ok _ seen =>
    rw [hobserve] at hmirror
    simp [hobserve, hmirror, Call.resuming]
  | error fault seen =>
    rw [hobserve] at hmirror
    simp [hobserve, hmirror, Call.resuming]

end Observer

/-! ### Snapshots -/

/-- Snapshots are the same with their labels counted on. -/
theorem Snapshot.mirrors_observer (transitions : Nat) (earlier : Array Snapshot) :
    observer.Mirrors observer transitions fun later ↦
      earlier ++ later.map (resuming transitions) := by
  intro number reading machine record hnumber
  obtain ⟨count, rfl⟩ := Nat.exists_eq_add_of_lt hnumber
  unfold observer
  rw [Nat.zero_add, Nat.add_sub_cancel, ← Nat.add_assoc, Nat.add_sub_cancel, Machine.capture_add]
  cases capture machine count with
  | error fault => rfl
  | ok snapshot => simp [Except.map]

/-- The last snapshot, too, is the same with its label counted on. -/
theorem Run.addLast_resuming (run : Run (Array Snapshot)) (earlier : Outcome)
    (snapshots : Array Snapshot) :
    ((run.resuming earlier).mapRecord fun later ↦
        snapshots ++ later.map (Snapshot.resuming earlier.transitions)).addLast =
      (run.addLast.resuming earlier).mapRecord fun later ↦
        snapshots ++ later.map (Snapshot.resuming earlier.transitions) := by
  obtain ⟨result, machine, record⟩ := run
  cases result with
  | error fault => rfl
  | ok outcome =>
    have hcapture := machine.capture_add earlier.transitions outcome.transitions
    unfold addLast mapRecord resuming
    simp only [Except.map, Outcome.resuming] at hcapture ⊢
    rw [hcapture]
    cases Snapshot.capture machine outcome.transitions with
    | error fault => rfl
    | ok snapshot => simp

/-- Whether a step answers that a state was handed to the microcode. -/
def Step.isTransition : Except Fault Step → Bool
  | .ok (.transition _) => true
  | _ => false

namespace Machine

attribute [local irreducible] Buffer.setWord Buffer.setSlot Action.step haltsNow

variable {σ τ : Type} {machine : Machine} {observe : Observer σ} {record : σ}

/-! ### Counting on -/

/-- A run that starts with steps and transitions already counted, under an observer that mirrors
another, does what a run that starts from nothing does under the other. -/
theorem runFrom_of_mirrors {mirror : Observer τ} {image : σ → τ} {earlier : Outcome}
    (hmirrors : mirror.Mirrors observe earlier.transitions image)
    (budget steps transitions : Nat) (machine : Machine) (record : σ) :
    runFrom mirror budget (earlier.steps + steps) (earlier.transitions + transitions) machine
        (image record) =
      ((runFrom observe budget steps transitions machine record).resuming earlier).mapRecord
        image := by
  induction budget generalizing steps transitions machine record with
  | zero =>
    rw [runFrom_zero, runFrom_zero]
    unfold Run.resuming Run.mapRecord
    dsimp only
    cases machine.haltsNow with
    | error fault => rfl
    | ok halted => rfl
  | succ budget ih =>
    cases hstep : Action.step machine with
    | error fault after =>
      rw [runFrom_of_error mirror _ _ _ _ hstep, runFrom_of_error observe _ _ _ _ hstep]
      rfl
    | ok result after =>
      cases result with
      | halted =>
        rw [runFrom_of_halted mirror _ _ _ _ hstep, runFrom_of_halted observe _ _ _ _ hstep]
        rfl
      | executed opcode =>
        rw [runFrom_of_executed mirror _ _ _ _ hstep, runFrom_of_executed observe _ _ _ _ hstep]
        exact ih (steps + 1) transitions after record
      | transition reading =>
        have hmirror := hmirrors (transitions + 1) reading after record (Nat.succ_pos _)
        rw [← Nat.add_assoc] at hmirror
        cases hobserve : observe (transitions + 1) reading after record with
        | error fault seen =>
          rw [hobserve] at hmirror
          rw [runFrom_of_refused mirror _ _ _ _ hstep hmirror,
            runFrom_of_refused observe _ _ _ _ hstep hobserve]
          rfl
        | ok _ seen =>
          rw [hobserve] at hmirror
          rw [runFrom_of_transition mirror _ _ _ _ hstep hmirror,
            runFrom_of_transition observe _ _ _ _ hstep hobserve]
          exact ih (steps + 1) (transitions + 1) after seen

/-- A run that uses up its budget has spent it on steps that all went on, and a run with a larger
budget is where it ended by then. -/
theorem runFrom_of_exhausted {first steps transitions : Nat} {outcome : Outcome}
    (hresult : (runFrom observe first steps transitions machine record).result = .ok outcome)
    (hending : outcome.ending = .exhausted) :
    outcome.steps = steps + first ∧
    outcome.transitions = transitions + (machine.answers first).countP Step.isTransition ∧
    ∀ more, runFrom observe (first + more) steps transitions machine record =
      runFrom observe more outcome.steps outcome.transitions
        (runFrom observe first steps transitions machine record).machine
        (runFrom observe first steps transitions machine record).record := by
  induction first generalizing steps transitions machine record with
  | zero =>
    rw [runFrom_zero] at hresult
    cases hhalts : machine.haltsNow with
    | error fault =>
      rw [hhalts] at hresult
      cases hresult
    | ok halted =>
      rw [hhalts] at hresult
      cases hresult
      refine ⟨rfl, rfl, fun more ↦ ?_⟩
      rw [Nat.zero_add]
      rfl
  | succ first ih =>
    cases hstep : Action.step machine with
    | error fault after =>
      rw [runFrom_of_error observe _ _ _ _ hstep] at hresult
      cases hresult
    | ok result after =>
      rw [answers_of_ok hstep, List.countP_cons]
      cases result with
      | halted =>
        rw [runFrom_of_halted observe _ _ _ _ hstep] at hresult
        cases hresult
        cases hending
      | executed opcode =>
        rw [runFrom_of_executed observe _ _ _ _ hstep] at hresult ⊢
        obtain ⟨hsteps, htransitions, hmore⟩ := ih hresult
        refine ⟨by omega, htransitions, fun more ↦ ?_⟩
        rw [Nat.add_right_comm, runFrom_of_executed observe _ _ _ _ hstep]
        exact hmore more
      | transition reading =>
        cases hobserve : observe (transitions + 1) reading after record with
        | error fault seen =>
          rw [runFrom_of_refused observe _ _ _ _ hstep hobserve] at hresult
          cases hresult
        | ok _ seen =>
          rw [runFrom_of_transition observe _ _ _ _ hstep hobserve] at hresult ⊢
          obtain ⟨hsteps, htransitions, hmore⟩ := ih hresult
          refine ⟨by omega, ?_, fun more ↦ ?_⟩
          · rw [htransitions, Nat.add_right_comm, Nat.add_assoc]
            rfl
          · rw [Nat.add_right_comm, runFrom_of_transition observe _ _ _ _ hstep hobserve]
            exact hmore more

/-! ### Resumed runs -/

/-- The calls of an observer in a run. -/
def calls (machine : Machine) (observe : Observer σ) (budget : Nat) (record : σ) :
    List Observer.Call :=
  (machine.runWith observe.logging budget ([], record)).record.1

theorem runWith_of_mirrors {mirror : Observer τ} {image : σ → τ}
    (hmirrors : mirror.Mirrors observe 0 image) (budget : Nat) (machine : Machine) (record : σ) :
    machine.runWith mirror budget (image record) =
      (machine.runWith observe budget record).mapRecord image := by
  have hrun := runFrom_of_mirrors (show mirror.Mirrors observe Outcome.zero.transitions image from
    hmirrors) budget 0 0 machine record
  rwa [Run.resuming_zero] at hrun

/-- Keeping a log of its calls changes nothing of what an observer does to a run. -/
theorem runWith_logging (machine : Machine) (observe : Observer σ) (budget : Nat) (record : σ) :
    machine.runWith observe budget record =
      (machine.runWith observe.logging budget ([], record)).mapRecord Prod.snd :=
  runWith_of_mirrors observe.mirrors_logging budget machine ([], record)

/-- Observers that never fail are told the same. -/
theorem calls_of_neverFails (hobserve : observe.NeverFails) (machine : Machine) (budget : Nat)
    (record : σ) : machine.calls observe budget record = machine.calls silent budget () := by
  have hmirror := runWith_of_mirrors (hobserve.mirrors.logging []) budget machine ([], record)
  have hcalls := congrArg (fun run ↦ run.record.1) hmirror
  change machine.calls silent budget () =
    [] ++ (machine.calls observe budget record).map (Observer.Call.resuming 0) at hcalls
  rw [hcalls, Observer.Call.resuming_zero, List.map_id, List.nil_append]

/-- What a run with a larger budget does after the end of one that used up its own. -/
theorem runWith_of_exhausted {first : Nat} {outcome : Outcome}
    (hresult : (machine.runWith observe first record).result = .ok outcome)
    (hending : outcome.ending = .exhausted) (more : Nat) :
    let reached := machine.runWith observe first record
    machine.runWith observe (first + more) record =
      (reached.machine.runWith (observe.resuming outcome.transitions) more
        reached.record).resuming outcome := by
  intro reached
  obtain ⟨-, -, hmore⟩ := runFrom_of_exhausted hresult hending
  have hmirrors := observe.mirrors_resuming outcome.transitions
  exact (hmore more).trans (runFrom_of_mirrors hmirrors more 0 0 reached.machine reached.record)

/-- What an observer is told after the end of a run that used up its budget. -/
theorem calls_of_exhausted {first : Nat} {outcome : Outcome}
    (hresult : (machine.runWith observe first record).result = .ok outcome)
    (hending : outcome.ending = .exhausted) (more : Nat) :
    let reached := machine.runWith observe first record
    machine.calls observe (first + more) record =
      machine.calls observe first record ++
        (reached.machine.calls (observe.resuming outcome.transitions) more
          reached.record).map (Observer.Call.resuming outcome.transitions) := by
  intro reached
  have hlogging := runWith_logging machine observe first record
  have hlogged : (machine.runWith observe.logging first ([], record)).result = .ok outcome :=
    (congrArg Run.result hlogging).symm.trans hresult
  have hmachine : (machine.runWith observe.logging first ([], record)).machine = reached.machine :=
    (congrArg Run.machine hlogging).symm
  have hrecord : (machine.runWith observe.logging first ([], record)).record =
      (machine.calls observe first record ++ [].map (Observer.Call.resuming outcome.transitions),
        reached.record) := by
    rw [List.map_nil, List.append_nil]
    exact Prod.ext rfl (congrArg Run.record hlogging).symm
  obtain ⟨-, -, hmore⟩ := runFrom_of_exhausted hlogged hending
  have hwhole := hmore more
  have hmirrors :=
    (observe.mirrors_resuming outcome.transitions).logging (machine.calls observe first record)
  have hrest := runFrom_of_mirrors hmirrors more 0 0 reached.machine ([], reached.record)
  unfold runWith at hmachine hrecord
  rw [hmachine, hrecord] at hwhole
  exact congrArg (fun run ↦ run.record.1) (hwhole.trans hrest)

/-- What a run that is shown does after the end of one that used up its budget. -/
theorem runShown_of_exhausted {first : Nat} {outcome : Outcome}
    (hresult : (machine.runShown first).result = .ok outcome)
    (hending : outcome.ending = .exhausted) (more : Nat) :
    let shown := machine.runShown first
    outcome.steps = first ∧
    outcome.transitions = (machine.answers first).countP Step.isTransition ∧
    machine.runShown (first + more) =
      ((shown.machine.runShown more).resuming outcome).mapRecord fun later ↦
        shown.record.pop ++ later.map (Snapshot.resuming outcome.transitions) := by
  intro shown
  obtain ⟨snapshot, hobserved, hsnapshot⟩ := Run.of_addLast_eq_ok hresult
  have hshown : shown = _ := Run.addLast_of_ok hobserved hsnapshot
  obtain ⟨hsteps, htransitions, hmore⟩ := runFrom_of_exhausted hobserved hending
  rw [Nat.zero_add] at hsteps htransitions
  refine ⟨hsteps, htransitions, ?_⟩
  have hmirrors := Snapshot.mirrors_observer outcome.transitions
    (machine.runWith Snapshot.observer first #[]).record
  have hrest := runFrom_of_mirrors hmirrors more 0 0
    (machine.runWith Snapshot.observer first #[]).machine #[]
  rw [Array.map_empty, Array.append_empty] at hrest
  rw [hshown, Array.pop_push]
  exact (congrArg Run.addLast ((hmore more).trans hrest)).trans (Run.addLast_resuming _ outcome _)

/-- A run that reached its limit has used up its budget, and reports how many of its steps were
transitions. It can be resumed without any difference: a run with a larger budget does what a run
with the rest of the budget does on the machine that was left, counted on from the first. The same
holds of runs with an observer, if the observer of the second run is told the numbers that it would
have been told in one run; it is then told the same. An observer that never fails need not be told
these numbers for that. It holds of runs that are shown, too, and the snapshots are those of the
first, without its last, and then those of the second with their labels counted on. -/
theorem run_resumes {first : Nat} {outcome : Outcome} (hending : outcome.ending = .exhausted)
    (more : Nat) :
    ((machine.run first).result = .ok outcome →
      outcome.steps = first ∧
      outcome.transitions = (machine.answers first).countP Step.isTransition ∧
      machine.run (first + more) = ((machine.run first).machine.run more).resuming outcome) ∧
    (∀ (σ : Type) (observe : Observer σ) (record : σ),
      (machine.runWith observe first record).result = .ok outcome →
      let reached := machine.runWith observe first record
      let later := observe.resuming outcome.transitions
      machine.runWith observe (first + more) record =
        (reached.machine.runWith later more reached.record).resuming outcome ∧
      machine.calls observe (first + more) record =
        machine.calls observe first record ++
          (reached.machine.calls later more reached.record).map
            (Observer.Call.resuming outcome.transitions) ∧
      (observe.NeverFails →
        reached.machine.calls later more reached.record =
          reached.machine.calls observe more reached.record)) ∧
    ((machine.runShown first).result = .ok outcome →
      let shown := machine.runShown first
      outcome.steps = first ∧
      outcome.transitions = (machine.answers first).countP Step.isTransition ∧
      machine.runShown (first + more) =
        ((shown.machine.runShown more).resuming outcome).mapRecord fun later ↦
          shown.record.pop ++ later.map (Snapshot.resuming outcome.transitions)) := by
  refine ⟨fun hresult ↦ ?_, fun σ observe record hresult ↦ ?_,
    fun hresult ↦ runShown_of_exhausted hresult hending more⟩
  · obtain ⟨hsteps, htransitions, -⟩ := runFrom_of_exhausted hresult hending
    rw [Nat.zero_add] at hsteps htransitions
    exact ⟨hsteps, htransitions, runWith_of_exhausted hresult hending more⟩
  · refine ⟨runWith_of_exhausted hresult hending more, calls_of_exhausted hresult hending more,
      fun hobserve ↦ ?_⟩
    rw [calls_of_neverFails hobserve, calls_of_neverFails]
    exact fun number ↦ hobserve (outcome.transitions + number)

/-- The machine of a table with one state that writes a one, moves right and halts: the budget of
thirty-one steps is cut after the tenth, among those of the microcode. -/
theorem run_resumes_within_pass :
    ∃ machine placed,
      ofTable [PerSymbol.ofFun fun _ ↦ { write := .one, move := .right, next := 0 }] 16 =
        .ok machine ∧
      machine.after (Action.place "1" 0 0) = .ok placed ∧
      (placed.run 10).result =
        .ok { ending := .exhausted, steps := 10, transitions := 1 } ∧
      ((placed.run 10).machine.run 21).result =
        .ok { ending := .halted, steps := 21, transitions := 0 } ∧
      ∀ observe : Observer (List Nat), observe.NeverFails →
        placed.calls observe 31 [] = placed.calls observe 10 [] ++
          ((placed.runWith observe 10 []).machine.calls observe 21
            (placed.runWith observe 10 []).record).map (Observer.Call.resuming 1) := by
  obtain ⟨machine, placed, hmachine, hcount, hplace⟩ := exists_placed
    [PerSymbol.ofFun fun _ ↦ { write := .one, move := .right, next := 0 }] "1" 0 0 rfl
  obtain ⟨hshows, hcells⟩ :=
    shows_initial (carries_of_ofTable hmachine) (pointer_of_ofTable hmachine) hplace
  have hsixteen : placed.cellCount = 16 := hcells.trans hcount
  obtain ⟨_, _, -, -, -, hpass⟩ :=
    hshows.runFrom_transition (by rw [hsixteen]; decide) (by decide)
  have hcut := (hpass 10 0 0).2 (by decide) (by decide)
  rw [← run_eq_runFrom] at hcut
  have hfull := (hshows.runFrom_of_stopsAt
    (by rw [hsixteen]; exact ⟨rfl, Or.inl rfl⟩) (Or.inr ⟨rfl, rfl⟩ : Seen 31 1 _) 0 0).1
  rw [← run_eq_runFrom, hsixteen, report, if_pos (by decide)] at hfull
  obtain ⟨hresumes, hobserved, -⟩ := run_resumes (show
    ({ ending := .exhausted, steps := 10, transitions := 1 } : Outcome).ending = .exhausted
    from rfl) 21
  obtain ⟨-, -, hwhole⟩ := hresumes hcut
  refine ⟨machine, placed, hmachine, hplace, hcut, ?_, fun observe hobserve ↦ ?_⟩
  · exact Run.result_resuming_eq_ok_iff.mp ((congrArg Run.result hwhole).symm.trans hfull)
  · have hmirror := runWith_of_mirrors hobserve.mirrors 10 placed []
    have hlimit := (congrArg Run.result hmirror).symm.trans hcut
    obtain ⟨-, htold, hsame⟩ := hobserved (List Nat) observe [] hlimit
    exact htold.trans (by rw [hsame hobserve])

end Machine

end TapeMachine
