import TapeMachine.Proofs.Machine.Placement
import TapeMachine.Proofs.Turing.Ribbon
import TapeMachine.Proofs.Turing.Shown

/-!
# Runs that halt

A text that is placed on the tape of a machine makes a ribbon of it (`initial_eq_facingDown`). If
the Turing machine of a table then halts with its head on the tape, so do all runs of the machine of
the table that have the budget, whether or not they are shown, and they leave the configuration in
which the Turing machine halted (`haltsLeaving_of_leads`).
-/

set_option autoImplicit false

namespace TapeMachine

attribute [local irreducible] Buffer.setWord Buffer.setSlot

open TapeMachine.Turing

/-! ### Texts on the tape -/

/-- Symbols can be placed where there is room for them. -/
theorem Machine.exists_place (machine : Machine) {text : String} {symbols : List Symbol}
    (htext : text.toList = symbols.map Symbol.toChar) {position head : Nat}
    (hposition : position < machine.cellCount) (hroom : symbols.length ≤ position + 1)
    (hhead : head < machine.cellCount) :
    ∃ placed, machine.after (Action.place text position head) = .ok placed := by
  have hlength : text.length = symbols.length := by
    rw [← String.length_toList, htext, List.length_map]
  unfold Machine.after
  rw [Machine.place_eq_ok htext ⟨hposition, hlength ▸ hroom⟩ hhead]
  exact ⟨_, rfl⟩

namespace Turing

variable {rows : List Row} {text : String} {symbols : List Symbol} {position head : Nat}

theorem initial_tape (htext : text.toList = symbols.map Symbol.toChar)
    (hroom : symbols.length ≤ position + 1) :
    (initial rows text position head).tape = ribbon (position + 1) symbols [] := by
  have hsymbol : ∀ index : Nat, text.toList[index]?.bind Symbol.ofChar? = symbols[index]? := by
    intro index
    rw [htext, List.getElem?_map]
    cases symbols[index]? with
    | none => rfl
    | some symbol => exact symbol.ofChar?_toChar
  funext cell
  unfold initial ribbon
  dsimp only
  rw [hsymbol, List.getD_eq_getElem?_getD, List.getD_eq_getElem?_getD, List.getElem?_nil]
  by_cases hle : cell ≤ position
  · have hdistance : (position + 1 - 1 - cell).toNat = (position - cell).toNat := by omega
    rw [if_neg (by omega : ¬ (position + 1 : Int) ≤ cell), hdistance]
    by_cases hnonneg : 0 ≤ cell
    · rw [if_pos ⟨hnonneg, hle⟩]
    · rw [if_neg fun h ↦ hnonneg h.1, List.getElem?_eq_none (by omega)]
      rfl
  · rw [if_neg fun h ↦ hle h.2, if_pos (by omega)]
    rfl

/-- With the head on a placed text or below it, the symbols above the head and those from the head
down are on the two sides of a border. -/
theorem initial_eq_facingDown (htext : text.toList = symbols.map Symbol.toChar)
    (hroom : symbols.length ≤ position + 1) {above below : List Symbol}
    (hsplit : symbols = above ++ below) (hhead : head + above.length = position) :
    initial rows text position head =
      Configuration.facingDown (startState rows) (head + 1) below above.reverse := by
  have htape : (initial rows text position head).tape =
      ribbon (head + 1) below above.reverse := by
    have hborder : (head + 1 : Int) + above.reverse.length = position + 1 := by
      rw [List.length_reverse]
      omega
    rw [initial_tape htext hroom, ← List.append_nil above.reverse, ← ribbon_append, hborder,
      List.reverse_reverse, hsplit]
  have hplace : (head : Int) = head + 1 - 1 := by omega
  unfold Configuration.facingDown
  rw [← htape, ← hplace]
  rfl

end Turing

/-! ### Halting -/

namespace Machine

/-- Whether a run of a machine halts, shown or not, and leaves a machine of a kind. -/
structure HaltsLeaving (machine : Machine) (budget : Nat) (final : Machine → Prop) : Prop where
  halts : ∃ outcome, outcome.ending = .halted ∧ (machine.run budget).result = .ok outcome ∧
    (machine.runShown budget).result = .ok outcome
  run : final (machine.run budget).machine
  runShown : final (machine.runShown budget).machine

variable {rows : List Row} {cells : Nat} {machine placed : Machine} {last : Configuration}

/-- Where the Turing machine of a table halts, runs of its machine halt. -/
theorem haltsLeaving_of_leads (hmachine : ofTable rows cells = .ok machine) {text : String}
    {position head : Nat}
    (hplace : machine.after (Action.place text position head) = .ok placed) {count budget : Nat}
    (hleads : Leads rows machine.cellCount count (initial rows text position head) last)
    (hhalt : last.state = 0) (hon : last.OnTape machine.cellCount) (hbudget : 31 * count ≤ budget)
    {final : Machine → Prop}
    (hfinal : ∀ after : Machine, after.cellCount = machine.cellCount → after.Shows rows last →
      final after) : placed.HaltsLeaving budget final := by
  obtain ⟨hshows, hcells⟩ :=
    shows_initial (carries_of_ofTable hmachine) (pointer_of_ofTable hmachine) hplace
  obtain ⟨htabled, hsound⟩ := sound_of_place hmachine hplace
  have hstops : StopsAt rows placed.cellCount (initial rows text position head) count last := by
    unfold Leads at hleads
    exact ⟨hcells ▸ hleads, Or.inl hhalt⟩
  have hseen : Seen budget count last := by
    unfold Seen
    omega
  obtain ⟨hresult, hlast⟩ := hshows.runFrom_of_stopsAt hstops hseen 0 0
  rw [← run_eq_runFrom] at hresult hlast
  rw [report, hcells, if_pos hon] at hresult
  have hcount := (hsound.run htabled budget).intact.sameProgram.cellCount
  have hhead := hlast.head_of_onTape (hcount.symm ▸ hon)
  have hshown := hsound.runShown_of_head htabled hhead
  refine ⟨⟨_, rfl, hresult, hshown.trans hresult⟩, hfinal _ hcount hlast, ?_⟩
  rw [(hsound.runShown_eq htabled budget).1]
  exact hfinal _ hcount hlast

end Machine

end TapeMachine
