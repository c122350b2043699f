import TapeMachine.Entry

/-!
# Rows of a transition table

A row is one state of a Turing machine: a rule for each symbol, with next states named by their
numbers. States of a table are numbered from 1; state 0 is the halt state.
-/

set_option autoImplicit false

namespace TapeMachine

/-- One state of a table. -/
abbrev Row := PerSymbol (Rule Nat)

namespace Row

/-- The halt state writes what it reads, stays where it is and stays halted. -/
def halt : Row := PerSymbol.ofFun fun symbol ↦ { write := symbol, move := .stay, next := 0 }

/-- The numbers of the next states. -/
def nexts (row : Row) : List Nat := row.toList.map Rule.next

/-- The entry of a state. -/
def toEntry (row : Row) : Entry := .state (row.map (Rule.map Offset.ofState))

end Row

end TapeMachine
