import TapeMachine.Table

/-!
# Random tables

A random table is drawn number by number from a source of random numbers, which is taken as given:
a `Draw` says what number below a bound comes next and how the source goes on. All rows are drawn
into one list before the machine is built. More rows can be asked for than a list can have:
`Row.bytes` times their number may be above `Table.maxBytes`, and then the program is aborted.
Memory is taken to be large enough for any list that there can be.
-/

set_option autoImplicit false

namespace TapeMachine

/-- A source of random numbers: from its state and a bound, a number and the state after it. -/
abbrev Draw (σ : Type) := Nat → StateM σ Nat

/-- The number of bytes that a row takes in a list: three symbols, three moves and three 64-bit
numbers. -/
def Row.bytes : Nat := 32

namespace Table

/-- The number of bytes that a list can take. -/
def maxBytes : Nat := 0x7FFFFFFFFFFFFFFF

variable {σ : Type}

/-- A rule of a table with a number of states: any symbol, any move and any next state. -/
def randomRule (draw : Draw σ) (states : Nat) : StateM σ (Rule Nat) := do
  let write ← draw 3
  let move ← draw 3
  let next ← draw (states + 1)
  return { write := Symbol.all.getD write .blank
           move := HeadMove.all.getD move .right
           next := next }

/-- A state of a table with a number of states. -/
def randomRow (draw : Draw σ) (states : Nat) : StateM σ Row := do
  let zero ← randomRule draw states
  let one ← randomRule draw states
  let blank ← randomRule draw states
  return { zero := zero, one := one, blank := blank }

/-- A number of rows of a table with a number of states. -/
def randomRows (draw : Draw σ) (states : Nat) : (count : Nat) → StateM σ (List Row)
  | 0 => return []
  | count + 1 => do
    let row ← randomRow draw states
    let rows ← randomRows draw states count
    return row :: rows

/-- The table that a source of random numbers determines. -/
def random (draw : Draw σ) (states : Nat) (source : σ) : List Row :=
  (randomRows draw states states source).1

end Table

/-- Why there is no machine of a random table. -/
inductive RandomFailure where
  /-- The rows take more bytes than a list can: nothing is drawn, and the program is aborted. -/
  | overflow
  /-- The machine of the table is refused. -/
  | refused (fault : Fault)
  deriving DecidableEq

/-- The machine of the table that a source of random numbers determines. -/
def Machine.ofDraws {σ : Type} (draw : Draw σ) (states cells : Nat) (source : σ) :
    Except RandomFailure Machine :=
  if Table.maxBytes < Row.bytes * states then .error .overflow
  else (ofTable (Table.random draw states source) cells).mapError .refused

end TapeMachine
