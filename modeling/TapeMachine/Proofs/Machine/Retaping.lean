import TapeMachine.Proofs.Machine.Tape

/-!
# Editing the tape

Edits of the tape write cells and the head field and leave every word before them as it was
(`Retaped`): the program, the instruction pointer, the registers and both word counts. Blanking the
tape makes every cell a blank (`cell_blankTape`), and symbols that are put from a position down can
be read off again at their distance from it (`cell_putDownward`).
-/

set_option autoImplicit false

namespace TapeMachine.Machine

attribute [local irreducible] Buffer.setWord Buffer.setSlot

/-- Machines that differ in their cells and their head field at most. -/
structure Retaped (machine other : Machine) : Prop where
  regions : machine.regions = other.regions
  word : ∀ index ≤ machine.regions.tapeWord, machine.buffer.word index = other.buffer.word index

namespace Retaped

variable {machine other third : Machine}

theorem refl (machine : Machine) : machine.Retaped machine :=
  ⟨rfl, fun _ _ ↦ rfl⟩

theorem symm (h : machine.Retaped other) : other.Retaped machine :=
  ⟨h.regions.symm, fun index hindex ↦ (h.word index (h.regions ▸ hindex)).symm⟩

theorem trans (hfirst : machine.Retaped other) (hsecond : other.Retaped third) :
    machine.Retaped third := by
  refine ⟨hfirst.regions.trans hsecond.regions, fun index hindex ↦ ?_⟩
  rw [hfirst.word index hindex, hsecond.word index (hfirst.regions ▸ hindex)]

theorem sameProgram (h : machine.Retaped other) : machine.SameProgram other := by
  refine ⟨h.regions, fun index hindex _ ↦ h.word index ?_⟩
  rw [Regions.tapeWord_eq]
  omega

theorem pointer (h : machine.Retaped other) : machine.pointer = other.pointer := by
  refine h.word 1 ?_
  rw [Regions.tapeWord_eq]
  omega

theorem register (h : machine.Retaped other) (register : Register) :
    machine.register register = other.register register := by
  have hregister := register.isLt
  unfold Machine.register
  rw [← h.regions, h.word]
  rw [Regions.registerWord, Regions.tapeWord_eq]
  omega

theorem cellCount (h : machine.Retaped other) : machine.cellCount = other.cellCount :=
  h.sameProgram.cellCount

end Retaped

variable (machine : Machine)

theorem retaped_setCell (position : Nat) (symbol : Symbol) :
    (machine.setCell position symbol).Retaped machine := by
  refine ⟨rfl, fun index hindex ↦ machine.word_setSlot_of_ne symbol ?_⟩
  change index ≤ machine.regions.tapeWord at hindex
  rw [Regions.cellSlot]
  omega

theorem retaped_setHeadField (field : UInt32) :
    (machine.setWord machine.regions.headWord field).Retaped machine := by
  refine ⟨rfl, fun index hindex ↦ machine.word_setWord_of_ne _ ?_⟩
  change index ≤ machine.regions.tapeWord at hindex
  rw [Regions.headWord]
  omega

theorem retaped_putHead (position : Nat) : (machine.putHead position).Retaped machine :=
  machine.retaped_setHeadField _

theorem cell_putHead (position other : Nat) :
    (machine.putHead position).cell other = machine.cell other :=
  machine.cell_setWord _ (Nat.le_refl _) other

/-! ### Many cells -/

/-- Blanks the cells of a list of positions, one after the other. -/
def blankCells (machine : Machine) (positions : List Nat) : Machine :=
  positions.foldl (fun machine position ↦ machine.setCell position .blank) machine

theorem blankTape_eq : machine.blankTape = machine.blankCells (List.range machine.cellCount) := rfl

theorem blankCells_cons (position : Nat) (positions : List Nat) :
    machine.blankCells (position :: positions) =
      (machine.setCell position .blank).blankCells positions := rfl

theorem retaped_blankCells (positions : List Nat) :
    (machine.blankCells positions).Retaped machine ∧
      (machine.blankCells positions).headField = machine.headField := by
  induction positions generalizing machine with
  | nil => exact ⟨.refl machine, rfl⟩
  | cons position positions ih =>
    obtain ⟨hretaped, hhead⟩ := ih (machine.setCell position .blank)
    rw [blankCells_cons]
    exact ⟨hretaped.trans (machine.retaped_setCell position .blank),
      hhead.trans (machine.headField_setCell position .blank)⟩

theorem cell_blankCells {positions : List Nat}
    (hpositions : ∀ position ∈ positions, position < machine.cellCount) (other : Nat) :
    (machine.blankCells positions).cell other =
      if other ∈ positions then .ok .blank else machine.cell other := by
  induction positions generalizing machine with
  | nil => rw [if_neg List.not_mem_nil]; rfl
  | cons position positions ih =>
    have hposition := hpositions position List.mem_cons_self
    rw [blankCells_cons, ih (machine.setCell position .blank) fun rest hrest ↦
      hpositions rest (List.mem_cons_of_mem _ hrest), machine.cell_setCell hposition]
    by_cases hrest : other ∈ positions
    · rw [if_pos hrest, if_pos (List.mem_cons_of_mem _ hrest)]
    · by_cases hfirst : other = position
      · rw [if_neg hrest, if_pos hfirst, if_pos (hfirst ▸ List.mem_cons_self)]
      · rw [if_neg hrest, if_neg hfirst, if_neg]
        rw [List.mem_cons, not_or]
        exact ⟨hfirst, hrest⟩

theorem retaped_blankTape : machine.blankTape.Retaped machine :=
  (machine.retaped_blankCells _).1

theorem headField_blankTape : machine.blankTape.headField = machine.headField :=
  (machine.retaped_blankCells _).2

/-- On a blanked tape every cell is blank. -/
theorem cell_blankTape {position : Nat} (hposition : position < machine.cellCount) :
    machine.blankTape.cell position = .ok .blank := by
  rw [blankTape_eq, cell_blankCells _ fun _ hmem ↦ List.mem_range.mp hmem,
    if_pos (List.mem_range.mpr hposition)]

theorem retaped_putDownward (position : Nat) (symbols : List Symbol) :
    (machine.putDownward position symbols).Retaped machine := by
  induction symbols generalizing machine position with
  | nil => exact .refl machine
  | cons symbol symbols ih => exact (ih _ _).trans (machine.retaped_setCell position symbol)

/-- The symbol that putting symbols from a position down leaves in a cell, if it reaches it. -/
def putAt (position : Nat) (symbols : List Symbol) (other : Nat) : Option Symbol :=
  if other ≤ position then symbols[position - other]? else none

theorem putAt_nil (position other : Nat) : putAt position [] other = none := by
  unfold putAt
  split
  · exact List.getElem?_nil
  · rfl

theorem putAt_cons (position : Nat) (symbol : Symbol) (symbols : List Symbol) (other : Nat) :
    putAt position (symbol :: symbols) other =
      if other = position then some symbol else putAt (position - 1) symbols other := by
  unfold putAt
  by_cases hsame : other = position
  · rw [if_pos hsame, if_pos (Nat.le_of_eq hsame), hsame, Nat.sub_self, List.getElem?_cons_zero]
  · rw [if_neg hsame]
    by_cases hle : other ≤ position
    · rw [if_pos hle, if_pos (by omega), show position - other = position - 1 - other + 1 by omega,
        List.getElem?_cons_succ]
    · rw [if_neg hle, if_neg (by omega)]

/-- What is put into a cell is what it then holds; other cells keep what they held. -/
theorem cell_putDownward {position : Nat} (hposition : position < machine.cellCount)
    {symbols : List Symbol} (hroom : symbols.length ≤ position + 1) (other : Nat) :
    (machine.putDownward position symbols).cell other =
      match putAt position symbols other with
      | some symbol => .ok symbol
      | none => machine.cell other := by
  induction symbols generalizing machine position with
  | nil => rw [putAt_nil, putDownward]
  | cons symbol symbols ih =>
    rw [List.length_cons] at hroom
    have hbelow : position - 1 < (machine.setCell position symbol).cellCount :=
      Nat.lt_of_le_of_lt (Nat.sub_le _ _) hposition
    have hrest := ih (machine.setCell position symbol) hbelow (by omega)
    rw [putDownward, hrest, putAt_cons, machine.cell_setCell hposition]
    by_cases hsame : other = position
    · have hnone : putAt (position - 1) symbols other = none := by
        unfold putAt
        split
        · rw [List.getElem?_eq_none]
          omega
        · rfl
      rw [hnone, if_pos hsame, if_pos hsame]
    · rw [if_neg hsame, if_neg hsame]

/-! ### Placing a text -/

/-- A cell of a machine on which a text was placed. -/
theorem cell_place {symbols : List Symbol} {position head cell : Nat}
    (hposition : position < machine.cellCount) (hroom : symbols.length ≤ position + 1)
    (hcell : cell < machine.cellCount) :
    ((machine.blankTape.putDownward position symbols).putHead head).cell cell =
      .ok ((putAt position symbols cell).getD .blank) := by
  have hcells := machine.retaped_blankTape.cellCount
  rw [cell_putHead, machine.blankTape.cell_putDownward (hcells ▸ hposition) hroom]
  cases putAt position symbols cell with
  | none => exact machine.cell_blankTape hcell
  | some symbol => rfl

theorem retaped_place (position head : Nat) (symbols : List Symbol) :
    ((machine.blankTape.putDownward position symbols).putHead head).Retaped machine :=
  ((retaped_putHead _ head).trans (retaped_putDownward _ position symbols)).trans
    machine.retaped_blankTape

theorem headAt_place (haddressable : machine.Addressable) (position : Nat) (symbols : List Symbol)
    {head : Nat} (hhead : head < machine.cellCount) :
    ((machine.blankTape.putDownward position symbols).putHead head).HeadAt head := by
  have hput := (machine.blankTape.retaped_putDownward position symbols).trans
    machine.retaped_blankTape
  exact headAt_putHead (hput.symm.sameProgram.addressable haddressable) (hput.cellCount ▸ hhead)

/-- Placing a text fails and changes nothing, or puts the symbols of the text where there is room
for them. -/
theorem place_cases (text : String) (position head : Nat) :
    (∃ fault, Action.place text position head machine = .error fault machine) ∨
      ∃ symbols, text.toList.mapM Symbol.ofChar? = some symbols ∧
        position < machine.cellCount ∧ symbols.length ≤ position + 1 ∧ head < machine.cellCount ∧
        Action.place text position head machine =
          .ok () ((machine.blankTape.putDownward position symbols).putHead head) := by
  unfold Action.place
  cases htext : text.toList.mapM Symbol.ofChar? with
  | none => exact Or.inl ⟨_, Action.query_bind_error _ rfl⟩
  | some symbols =>
    by_cases hroom : machine.cellCount ≤ position ∨ position + 1 < symbols.length
    · exact Or.inl ⟨_, Action.query_bind_error _ (if_pos hroom)⟩
    · rw [Action.query_bind_ok _ (if_neg hroom)]
      by_cases hhead : head < machine.cellCount
      · refine Or.inr ⟨symbols, rfl, by omega, by omega, hhead, ?_⟩
        rw [Action.query_bind_ok _ (if_pos hhead)]
        rfl
      · exact Or.inl ⟨_, Action.query_bind_error _ (if_neg hhead)⟩

end TapeMachine.Machine
