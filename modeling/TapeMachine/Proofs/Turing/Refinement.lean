import TapeMachine.Proofs.Turing.Shown

/-!
# Machines of tables refine Turing machines

A run of the machine of a table with any budget does what the Turing machine of the table does, from
the configuration that a text was placed in. What it reports where the head left the tape depends on
whether it is shown: the last snapshot looks at the head even where the run itself does not.
-/

set_option autoImplicit false

namespace TapeMachine

attribute [local irreducible] Buffer.setWord Buffer.setSlot

open TapeMachine.Turing

namespace Machine

variable {rows : List Row} {cells : Nat} {machine placed : Machine}

/-- A run, and a run that is shown, report that the Turing machine has halted. -/
theorem runs_of_halted {configuration last : Configuration} {start : Machine} {count budget : Nat}
    (hshows : placed.Shows rows configuration) (hsound : Sound start placed)
    (htabled : start.Tabled) (hstops : StopsAt rows placed.cellCount configuration count last)
    (hon : last.OnTape placed.cellCount) (hbudget : 31 * count ≤ budget) :
    (placed.run budget).result =
        .ok { ending := .halted, steps := 31 * count, transitions := count } ∧
      (placed.runShown budget).result = (placed.run budget).result ∧
      (placed.run budget).machine.Shows rows last := by
  have hhalt : last.state = 0 := hstops.stops.resolve_right fun hoff ↦ hoff hon
  have hseen : Seen budget count last := by
    unfold Seen
    omega
  obtain ⟨hresult, hlast⟩ := hshows.runFrom_of_stopsAt hstops hseen 0 0
  rw [report, if_pos hon, Nat.zero_add, Nat.zero_add] at hresult
  exact ⟨hresult, hshows.runShown_of_seen hsound htabled hstops hseen, hlast⟩

/-- Runs of the machine of a table, with a text placed on its tape, are runs of the Turing machine
of the table. Where that stops, and the budget is enough to see it, a run that is not shown halts
after thirty-one steps for each of its steps, or reports the head that it left the tape with; the
machine is then in the last configuration. Otherwise the run uses up its budget. A run that is shown
does the same to the machine and reports the same, except that it reports a head off the tape as
soon as the head is there, which is up to two steps earlier. -/
theorem run_refines_turing (hmachine : ofTable rows cells = .ok machine) {text : String}
    {position head : Nat}
    (hplace : machine.after (Action.place text position head) = .ok placed) (budget : Nat) :
    ((∀ count last,
      StopsAt rows machine.cellCount (initial rows text position head) count last →
      last.OnTape machine.cellCount → 31 * count ≤ budget →
      (placed.run budget).result =
          .ok { ending := .halted, steps := 31 * count, transitions := count } ∧
        (placed.run budget).machine.Shows rows last) ∧
    (∀ count last,
      StopsAt rows machine.cellCount (initial rows text position head) count last →
      ¬ last.OnTape machine.cellCount →
      31 * count < budget ∨ 31 * count = budget ∧ last.state = 0 →
      (placed.run budget).result = .error (.offTape last.head machine.cellCount) ∧
        (placed.run budget).machine.Shows rows last) ∧
    ((∀ count last,
      StopsAt rows machine.cellCount (initial rows text position head) count last →
      ¬ (last.OnTape machine.cellCount ∧ 31 * count ≤ budget) ∧
        ¬ (¬ last.OnTape machine.cellCount ∧
          (31 * count < budget ∨ 31 * count = budget ∧ last.state = 0))) →
      (placed.run budget).result =
        .ok { ending := .exhausted, steps := budget, transitions := (budget + 30) / 31 })) ∧
    (placed.runShown budget).machine = (placed.run budget).machine ∧
    (∀ count last,
      StopsAt rows machine.cellCount (initial rows text position head) count last →
      last.OnTape machine.cellCount → 31 * count ≤ budget →
      (placed.runShown budget).result =
        .ok { ending := .halted, steps := 31 * count, transitions := count }) ∧
    (∀ count last,
      StopsAt rows machine.cellCount (initial rows text position head) count last →
      ¬ last.OnTape machine.cellCount → 31 * count ≤ budget + 1 →
      (placed.runShown budget).result = .error (.offTape last.head machine.cellCount)) ∧
    ((∀ count last,
      StopsAt rows machine.cellCount (initial rows text position head) count last →
      ¬ (last.OnTape machine.cellCount ∧ 31 * count ≤ budget) ∧
        ¬ (¬ last.OnTape machine.cellCount ∧ 31 * count ≤ budget + 1)) →
      (placed.runShown budget).result =
        .ok { ending := .exhausted, steps := budget, transitions := (budget + 30) / 31 }) := by
  obtain ⟨hshows, hcells⟩ :=
    shows_initial (carries_of_ofTable hmachine) (pointer_of_ofTable hmachine) hplace
  obtain ⟨htabled, hsound⟩ := sound_of_place hmachine hplace
  rw [← hcells]
  have hoffSeen : ∀ count last,
      StopsAt rows placed.cellCount (initial rows text position head) count last →
      ¬ last.OnTape placed.cellCount → Seen budget count last →
      (placed.run budget).result = .error (.offTape last.head placed.cellCount) ∧
        (placed.run budget).machine.Shows rows last := by
    intro count last hstops hoff hseen
    obtain ⟨hresult, hlast⟩ := hshows.runFrom_of_stopsAt hstops hseen 0 0
    rw [report, if_neg hoff] at hresult
    exact ⟨hresult, hlast⟩
  have hexhausted : (∀ count last,
      StopsAt rows placed.cellCount (initial rows text position head) count last →
      ¬ Seen budget count last) → (placed.run budget).result =
        .ok { ending := .exhausted, steps := budget, transitions := (budget + 30) / 31 } := by
    intro hunseen
    have hresult := hshows.runFrom_of_not_seen hunseen 0 0
    rwa [Nat.zero_add, Nat.zero_add] at hresult
  refine ⟨⟨fun count last hstops hon hbudget ↦ ?_, hoffSeen, fun hunseen ↦ ?_⟩,
    (hsound.runShown_eq htabled budget).1, fun count last hstops hon hbudget ↦ ?_,
    fun count last hstops hoff hbudget ↦ ?_, fun hunseen ↦ ?_⟩
  · obtain ⟨hresult, -, hlast⟩ := runs_of_halted hshows hsound htabled hstops hon hbudget
    exact ⟨hresult, hlast⟩
  · refine hexhausted fun count last hstops hseen ↦ ?_
    obtain ⟨hon, hoff⟩ := hunseen count last hstops
    unfold Seen at hseen
    by_cases htape : last.OnTape placed.cellCount
    · exact hon ⟨htape, by omega⟩
    · exact hoff ⟨htape, hseen⟩
  · obtain ⟨hresult, hshown, -⟩ := runs_of_halted hshows hsound htabled hstops hon hbudget
    rw [hshown, hresult]
  · by_cases hoverlooked : Overlooked budget count last
    · exact (hshows.runShown_of_overlooked hsound htabled hstops hoff hoverlooked).2
    · have hseen : Seen budget count last := by
        unfold Overlooked at hoverlooked
        unfold Seen
        omega
      rw [hshows.runShown_of_seen hsound htabled hstops hseen]
      exact (hoffSeen count last hstops hoff hseen).1
  · rw [hshows.runShown_of_not_overlooked hsound htabled]
    · refine hexhausted fun count last hstops hseen ↦ ?_
      obtain ⟨hon, hoff⟩ := hunseen count last hstops
      unfold Seen at hseen
      by_cases htape : last.OnTape placed.cellCount
      · exact hon ⟨htape, by omega⟩
      · exact hoff ⟨htape, by omega⟩
    · intro count last hstops hoff hoverlooked
      unfold Overlooked at hoverlooked
      exact (hunseen count last hstops).2 ⟨hoff, by omega⟩

/-- A table with one state that writes a one, moves right and halts. -/
theorem run_refines_turing_single_row :
    ∃ machine placed,
      ofTable [PerSymbol.ofFun fun _ ↦ { write := .one, move := .right, next := 0 }] 16 =
        .ok machine ∧
      machine.after (Action.place "1" 0 0) = .ok placed ∧
      (placed.run 31).result =
        .ok { ending := .halted, steps := 31, transitions := 1 } ∧
      (placed.runShown 31).result = (placed.run 31).result := by
  obtain ⟨machine, placed, hmachine, hcount, hplace⟩ := exists_placed
    [PerSymbol.ofFun fun _ ↦ { write := .one, move := .right, next := 0 }] "1" 0 0 rfl
  obtain ⟨⟨hhalted, -⟩, -, hshown, -⟩ := run_refines_turing hmachine hplace 31
  rw [hcount] at hhalted hshown
  have hresult := (hhalted 1 _ ⟨rfl, Or.inl rfl⟩ (by decide) (Nat.le_refl 31)).1
  refine ⟨machine, placed, hmachine, hplace, hresult, ?_⟩
  rw [hresult]
  exact hshown 1 _ ⟨rfl, Or.inl rfl⟩ (by decide) (Nat.le_refl 31)

/-- With thirty steps the run of the table that goes on to the left ends on the step that moves the
head off the tape. Shown, it does not report that its budget is used up. -/
theorem runShown_of_leftward_within_pass :
    ∃ machine placed, ofTable leftward 16 = .ok machine ∧
      machine.after (Action.place "" 0 0) = .ok placed ∧
      StopsAt leftward 16 (initial leftward "" 0 0) 1
        ((initial leftward "" 0 0).apply { write := .zero, move := .left, next := 1 }) ∧
      (placed.run 30).result =
        .ok { ending := .exhausted, steps := 30, transitions := 1 } ∧
      (placed.runShown 30).result = .error (.offTape (-1) 16) := by
  obtain ⟨machine, placed, hmachine, hcount, hplace⟩ := exists_leftward
  obtain ⟨hshows, hcells⟩ :=
    shows_initial (carries_of_ofTable hmachine) (pointer_of_ofTable hmachine) hplace
  obtain ⟨htabled, hsound⟩ := sound_of_place hmachine hplace
  have hsixteen : placed.cellCount = 16 := hcells.trans hcount
  have hoff : ¬ ((initial leftward "" 0 0).apply
      { write := .zero, move := .left, next := 1 }).OnTape 16 := by decide
  have hstops : StopsAt leftward 16 (initial leftward "" 0 0) 1
      ((initial leftward "" 0 0).apply { write := .zero, move := .left, next := 1 }) :=
    ⟨rfl, Or.inr hoff⟩
  have hoverlooked := hshows.runShown_of_overlooked hsound htabled (hsixteen ▸ hstops)
    (hsixteen ▸ hoff) (Or.inl rfl : Overlooked 30 1 _)
  rw [hsixteen] at hoverlooked
  exact ⟨machine, placed, hmachine, hplace, hstops, hoverlooked⟩

end Machine

end TapeMachine
