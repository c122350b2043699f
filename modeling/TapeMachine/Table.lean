import TapeMachine.Machine.Build
import TapeMachine.Microcode
import TapeMachine.Table.Row

/-!
# Transition tables

`Machine.ofTable` builds the machine of a table: a `Halt` instruction, the microcode, the halt state
and the states of the table, in this order. It starts in state 1, or halted if the table is empty.
-/

set_option autoImplicit false

namespace TapeMachine

namespace Table

/-- The first next state in a table that the table does not have. -/
def missingState? (rows : List Row) : Option Nat :=
  let last := rows.length
  (rows.flatMap Row.nexts).find? fun state ↦ last < state

/-- The entries of the machine of a table. -/
def entries (rows : List Row) : List Entry :=
  .instruction Instruction.halt :: Microcode.program.map .instruction
    ++ (Row.halt :: rows).map Row.toEntry

/-- Where the machine of a table starts. -/
def start (rows : List Row) : Offset :=
  if rows.isEmpty then Offset.halt else Offset.ofState 1

end Table

/-- The machine of a table. A next state that the table does not have is refused first. -/
def Machine.ofTable (rows : List Row) (cells : Nat) : Except Fault Machine :=
  match Table.missingState? rows with
  | some state => .error (.noState state (rows.length + 1))
  | none => ofEntries (Table.entries rows) cells (Table.start rows)

end TapeMachine
