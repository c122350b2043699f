import TapeMachine.Proofs.Turing.Simulation

/-!
# Tables with a text on the tape

Once a text was placed on its tape, the machine of a table shows the configuration that the Turing
machine of the table starts in (`shows_initial`).
-/

set_option autoImplicit false

namespace TapeMachine

attribute [local irreducible] Buffer.setWord Buffer.setSlot

open TapeMachine.Turing

/-- The configuration that the Turing machine of a table starts in, with a text placed on its tape
from a position down. -/
def Turing.initial (rows : List Row) (text : String) (position head : Nat) : Configuration :=
  { state := startState rows
    head := head
    tape := fun cell ↦
      if 0 ≤ cell ∧ cell ≤ position then
        (text.toList[(position - cell).toNat]?.bind Symbol.ofChar?).getD .blank
      else .blank }

private theorem getElem?_of_mapM {characters : List Char} {symbols : List Symbol}
    (hsymbols : characters.mapM Symbol.ofChar? = some symbols) (index : Nat) :
    symbols[index]? = characters[index]?.bind Symbol.ofChar? := by
  induction characters generalizing symbols index with
  | nil =>
    cases hsymbols
    rfl
  | cons character characters ih =>
    rw [List.mapM_cons] at hsymbols
    obtain ⟨symbol, hsymbol, hrest⟩ := Option.bind_eq_some_iff.mp hsymbols
    obtain ⟨rest, hcharacters, hcons⟩ := Option.bind_eq_some_iff.mp hrest
    cases hcons
    cases index with
    | zero => exact hsymbol.symm
    | succ index => exact ih hcharacters index

namespace Machine

variable {rows : List Row} {cells : Nat} {machine placed : Machine}

/-- Placing a text leads to the initial configuration. -/
theorem shows_initial (hcarries : machine.Carries rows)
    (hpointer : machine.pointer = Offset.ofState (startState rows)) {text : String}
    {position head : Nat}
    (hplace : machine.after (Action.place text position head) = .ok placed) :
    placed.Shows rows (initial rows text position head) ∧
      placed.cellCount = machine.cellCount := by
  unfold Machine.after at hplace
  rcases machine.place_cases text position head with
    ⟨fault, hfault⟩ | ⟨symbols, hsymbols, hposition, hroom, hhead, hplaced⟩
  · rw [hfault] at hplace
    cases hplace
  rw [hplaced] at hplace
  cases hplace
  have hretaped := machine.retaped_place position head symbols
  have hcells := hretaped.cellCount
  refine ⟨⟨hcarries.of_sameProgram hretaped.sameProgram.symm, ?_, ?_, ?_, ?_⟩, hcells⟩
  · exact startState_le rows
  · rw [hretaped.pointer, hpointer]
    rfl
  · exact machine.headAt_place hcarries.program.addressable position symbols hhead
  · intro cell hcell
    rw [machine.cell_place hposition hroom (hcells ▸ hcell)]
    unfold initial putAt
    dsimp only
    by_cases hle : cell ≤ position
    · have hdistance : ((position : Int) - (cell : Int)).toNat = position - cell := by omega
      rw [if_pos hle, if_pos (by omega), hdistance, getElem?_of_mapM hsymbols]
    · rw [if_neg hle, if_neg (by omega)]
      rfl

/-- A table and a text that can be seen to have a machine on sixteen cells. -/
theorem exists_placed (rows : List Row) (text : String) (position head : Nat)
    (hplaced : ((ofTable rows 16).bind fun machine ↦
      machine.after (Action.place text position head)).toBool = true) :
    ∃ machine placed, ofTable rows 16 = .ok machine ∧ machine.cellCount = 16 ∧
      machine.after (Action.place text position head) = .ok placed := by
  cases hmachine : ofTable rows 16 with
  | error fault =>
    rw [hmachine] at hplaced
    cases hplaced
  | ok machine =>
    rw [hmachine] at hplaced
    obtain ⟨placed, hplace⟩ := exists_eq_ok_of_toBool hplaced
    exact ⟨machine, placed, rfl, cellCount_of_ofTable hmachine, hplace⟩

end Machine

end TapeMachine
