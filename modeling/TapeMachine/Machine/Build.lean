import TapeMachine.Machine.Tape

/-!
# Building machines

A new machine holds given entries from entry 0 on, cleared registers and a blank tape with the head
on its first cell. Its instruction pointer starts at one of the entries.
-/

set_option autoImplicit false

namespace TapeMachine.Machine

/-- A machine whose buffer is all zeros. -/
def zeroed (regions : Regions) : Machine :=
  { buffer := Buffer.zeros regions.size
    regions := regions
    size_eq := Buffer.size_zeros regions.size }

/-- Replaces entries from an index on. -/
def putEntries (machine : Machine) (index : Nat) : List Entry → Machine
  | [] => machine
  | entry :: rest => putEntries (machine.setEntryWords index entry.encode) (index + 1) rest

/-- Writes both headers, with the head on the first cell, and blanks the tape. -/
def withHeaders (machine : Machine) (start : Offset) : Machine :=
  ((((machine.setWord 0 (UInt32.ofNat machine.regions.programWords)).setWord 1 start).setWord
    machine.regions.tapeWord (UInt32.ofNat machine.regions.tapeWords)).putHead 0).blankTape

/-- A machine with given entries, at least a number of tape cells and an instruction pointer. -/
def ofEntries (entries : List Entry) (cells : Nat) (start : Offset) : Except Fault Machine := do
  let regions ← Regions.plan entries.length cells
  let machine := (zeroed regions).putEntries 0 entries
  let _ ← machine.entryAt start
  return machine.withHeaders start

/-- A machine that runs instructions from the first on. -/
def ofProgram (program : List Instruction) (cells : Nat) : Except Fault Machine :=
  ofEntries (program.map .instruction) cells (Offset.ofEntry 0)

end TapeMachine.Machine
