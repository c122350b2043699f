import TapeMachine.Machine.Registers

/-!
# The program of a machine

The program is an array of entries, and the instruction pointer is the bit offset of one of them.
While the microcode runs the pointer is inside it, and the state that is being worked on is the one
whose offset was left in a register.
-/

set_option autoImplicit false

namespace TapeMachine

namespace Machine

variable (machine : Machine)

/-- The words of an entry, at the place its offset names. -/
def entryWords (index : Nat) : EntryWords :=
  let base := (Offset.ofEntry index).toNat / 32
  { opcode := machine.buffer.word base
    first := machine.buffer.word (base + 1)
    second := machine.buffer.word (base + 2)
    third := machine.buffer.word (base + 3)
    fourth := machine.buffer.word (base + 4) }

/-- An entry of the program. -/
def entry (index : Nat) : Except Fault Entry :=
  if index < machine.regions.entries then
    Entry.decode (machine.entryWords index) (Offset.ofEntry index)
  else .error (.noEntry index machine.regions.entries)

/-- Replaces the words of an entry, at the place its offset names. -/
def setEntryWords (index : Nat) (words : EntryWords) : Machine :=
  let base := (Offset.ofEntry index).toNat / 32
  ((((machine.setWord base words.opcode).setWord (base + 1) words.first).setWord (base + 2)
    words.second).setWord (base + 3) words.third).setWord (base + 4) words.fourth

/-- Every entry of the program; refused at the first that cannot be decoded. -/
def entries : Except Fault (List Entry) :=
  (List.range machine.regions.entries).mapM machine.entry

/-- The entry of this program that an offset names. -/
def entryAt (offset : Offset) : Except Fault Nat :=
  match offset.entry? with
  | some index =>
    if index < machine.regions.entries then .ok index else .error (.notAnEntry offset)
  | none => .error (.notAnEntry offset)

/-- The instruction pointer. -/
def pointer : Offset := machine.buffer.word 1

/-- The entry that the instruction pointer is on. -/
def currentEntry : Except Fault Entry := do
  machine.entry (← machine.entryAt machine.pointer)

/-- The state the machine is in, if it is running a state or the microcode for one. -/
def activeState : Option Nat :=
  match Offset.state? machine.pointer with
  | some state => some state
  | none => Offset.state? (machine.register Register.activeState).toUInt32

end Machine

namespace Action

/-- Replaces an entry of the program. -/
def setEntry (index : Nat) (entry : Entry) : Action Unit := do
  query fun machine ↦
    if index < machine.regions.entries then .ok ()
    else .error (.noEntry index machine.regions.entries)
  change fun machine ↦ machine.setEntryWords index entry.encode

/-- Moves the instruction pointer to an entry of the program. -/
def setPointer (offset : Offset) : Action Unit := do
  let _ ← query fun machine ↦ machine.entryAt offset
  change fun machine ↦ machine.setWord 1 offset

end Action

end TapeMachine
