import TapeMachine.Machine.Program

/-!
# The tape of a machine

Cells are counted from 0, and the head is on one of them. Tape text runs from the highest cell
down, the order in which a number is written: placing `10` at cell 7 puts the one there and the
zero at cell 6.
-/

set_option autoImplicit false

namespace TapeMachine

namespace Machine

/-- The number of tape cells. -/
def cellCount (machine : Machine) : Nat := machine.regions.cells

/-- Puts a symbol into a cell. -/
def setCell (machine : Machine) (position : Nat) (symbol : Symbol) : Machine :=
  machine.setSlot (machine.regions.cellSlot position) symbol

/-- Puts symbols into cells, the first at a position and each further one a cell below. -/
def putDownward (machine : Machine) (position : Nat) : List Symbol → Machine
  | [] => machine
  | symbol :: rest => putDownward (machine.setCell position symbol) (position - 1) rest

variable (machine : Machine)

/-- Refuses a position that is not on the tape. -/
def checkPosition (position : Nat) : Except Fault Unit :=
  if position < machine.cellCount then .ok () else .error (.offTapeAt position machine.cellCount)

/-- The symbol in a cell. -/
def cell (position : Nat) : Except Fault Symbol := do
  machine.checkPosition position
  let index := machine.regions.cellSlot position
  match Symbol.ofCode? (machine.buffer.slot index) with
  | some symbol => return symbol
  | none => throw (.notASymbol (2 * index) (machine.buffer.slot index).toNat)

/-- The word that says where the head is. -/
def headField : UInt32 := machine.buffer.word machine.regions.headWord

/-- The position of the head. A head field that names no cell of the tape is a fault. -/
def head : Except Fault Nat :=
  let position := HeadField.position machine.headField
  if HeadField.isAligned machine.headField then
    if 0 ≤ position ∧ position < machine.cellCount then .ok position.toNat
    else .error (.offTape position machine.cellCount)
  else .error (.misalignedSymbol (machine.regions.tapeBase + machine.headField.toNat))

/-- The symbol under the head. -/
def symbolUnderHead : Except Fault Symbol := do
  machine.cell (← machine.head)

/-- Puts the head at a position. -/
def putHead (position : Nat) : Machine :=
  machine.setWord machine.regions.headWord (HeadField.ofPosition position)

/-- Puts a blank into every cell. -/
def blankTape : Machine :=
  (List.range machine.cellCount).foldl (fun machine position ↦ machine.setCell position .blank)
    machine

/-- Every symbol of the tape, from the highest cell down. -/
def tape : Except Fault (List Symbol) :=
  (List.range machine.cellCount).reverse.mapM machine.cell

/-- The text of the tape. -/
def tapeText : Except Fault String :=
  machine.tape.map fun symbols ↦ String.ofList (symbols.map Symbol.toChar)

/-- How many cells hold a symbol. -/
def count (symbol : Symbol) : Except Fault Nat :=
  ((List.range machine.cellCount).mapM machine.cell).map fun symbols ↦ symbols.count symbol

/-- Checks the whole description of a machine: every entry decodes, every rule goes on with a
state, the instruction pointer is on an entry and the head is on the tape. -/
def validate : Except Fault Unit := do
  let entries ← machine.entries
  match Entry.strayNext? entries with
  | some next => throw (.notAState next)
  | none => pure ()
  let _ ← machine.entryAt machine.pointer
  let _ ← machine.head

end Machine

namespace Action

/-- Moves the head. -/
def setHead (position : Nat) : Action Unit := do
  query fun machine ↦ machine.checkPosition position
  change fun machine ↦ machine.putHead position

/-- Replaces the symbol in a cell. -/
def setCell (position : Nat) (symbol : Symbol) : Action Unit := do
  query fun machine ↦ machine.checkPosition position
  change fun machine ↦ machine.setCell position symbol

/-- Replaces the symbol under the head. -/
def writeUnderHead (symbol : Symbol) : Action Unit := do
  let position ← query Machine.head
  change fun machine ↦ machine.setCell position symbol

/-- Blanks the tape, puts the characters of a text into its cells from a position down, and moves
the head. Nothing happens unless the text can be placed and the head is on the tape. -/
def place (text : String) (position head : Nat) : Action Unit := do
  let symbols ← query fun machine ↦
    match text.toList.mapM Symbol.ofChar? with
    | none => .error (.unplaceable text .foreignCharacter)
    | some symbols =>
      if machine.cellCount ≤ position ∨ position + 1 < symbols.length then
        .error (.unplaceable text .noRoom)
      else .ok symbols
  query fun machine ↦ machine.checkPosition head
  change fun machine ↦ (machine.blankTape.putDownward position symbols).putHead head

end Action

end TapeMachine
