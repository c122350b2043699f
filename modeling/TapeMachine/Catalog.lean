import TapeMachine.Table

/-!
# The catalog

Five Turing machines come ready-made, each with a tape of eighty cells and an input to run on.
-/

set_option autoImplicit false

namespace TapeMachine

/-- A text on a tape, with the cell of its first character and the position of the head. -/
structure TapeInput where
  text : String
  position : Nat
  head : Nat
  deriving DecidableEq

/-- The ready-made machines. -/
inductive Catalog where
  /-- Adds one to a binary number. -/
  | increment
  /-- Subtracts the second of two numbers of ones from the first. -/
  | subtract
  /-- The busy beaver of three states. -/
  | beaver3
  /-- The busy beaver of four states. -/
  | beaver4
  /-- Leaves a one under the head if a binary string reads the same in both directions, else a
  zero. -/
  | palindrome
  deriving DecidableEq

namespace Catalog

/-- Every ready-made machine. -/
def all : List Catalog := [increment, subtract, beaver3, beaver4, palindrome]

/-- The name a machine is asked for by. -/
def name : Catalog → String
  | increment => "add1"
  | subtract => "sub1"
  | beaver3 => "bb3"
  | beaver4 => "bb4"
  | palindrome => "pal"

/-- The machine with a name. -/
def ofName? (name : String) : Option Catalog :=
  all.find? fun item ↦ item.name = name

/-- The number of tape cells. -/
def cells : Nat := 80

/-- A row from the symbols written, the moves and the next states, each for zero, one and blank. -/
private def row (write : Symbol × Symbol × Symbol) (moves : HeadMove × HeadMove × HeadMove)
    (next : Nat × Nat × Nat) : Row :=
  { zero := { write := write.1, move := moves.1, next := next.1 }
    one := { write := write.2.1, move := moves.2.1, next := next.2.1 }
    blank := { write := write.2.2, move := moves.2.2, next := next.2.2 } }

open TapeMachine.Symbol TapeMachine.HeadMove in
/-- The table of a machine. -/
def rows : Catalog → List Row
  | increment =>
    [ row (zero, one, blank) (left, left, right) (1, 1, 2),
      row (one, zero, one) (right, right, left) (3, 2, 3),
      row (zero, one, blank) (left, left, right) (3, 3, 0) ]
  | subtract =>
    [ row (zero, one, blank) (left, left, left) (1, 1, 2),
      row (zero, one, blank) (left, left, right) (2, 2, 3),
      row (zero, zero, blank) (right, right, left) (3, 4, 5),
      row (zero, one, blank) (right, right, right) (4, 4, 8),
      row (zero, one, blank) (left, left, right) (5, 5, 6),
      row (blank, one, blank) (right, right, right) (6, 6, 7),
      row (blank, one, blank) (right, right, left) (7, 7, 0),
      row (zero, zero, blank) (right, left, left) (8, 1, 0) ]
  | beaver3 =>
    [ row (blank, one, one) (stay, stay, left) (1, 0, 2),
      row (blank, one, blank) (stay, left, left) (1, 2, 3),
      row (blank, one, one) (stay, right, right) (1, 1, 3) ]
  | beaver4 =>
    [ row (blank, one, one) (stay, left, right) (1, 2, 2),
      row (blank, blank, one) (stay, left, left) (1, 3, 1),
      row (blank, one, one) (stay, left, right) (1, 4, 0),
      row (blank, blank, one) (stay, right, right) (1, 1, 4) ]
  | palindrome =>
    [ row (zero, one, blank) (left, left, right) (1, 1, 2),
      row (blank, blank, one) (right, right, stay) (3, 5, 0),
      row (zero, one, blank) (right, right, left) (3, 3, 4),
      row (blank, one, blank) (left, stay, stay) (1, 7, 1),
      row (zero, one, blank) (right, right, left) (5, 5, 6),
      row (zero, blank, blank) (stay, left, stay) (7, 1, 1),
      row (blank, blank, zero) (left, left, stay) (7, 7, 0) ]

/-- The input a machine comes with. -/
def input : Catalog → TapeInput
  | increment => { text := "1", position := 4, head := 4 }
  | subtract => { text := "11111111 111", position := 20, head := 13 }
  | beaver3 => { text := " ", position := 4, head := 10 }
  | beaver4 => { text := " ", position := 4, head := 10 }
  | palindrome => { text := "1111111111 ", position := 20, head := 15 }

/-- The machine with an input on its tape. -/
def build (item : Catalog) (input : TapeInput) : Except Fault Machine := do
  let machine ← Machine.ofTable item.rows cells
  machine.after (Action.place input.text input.position input.head)

end Catalog

end TapeMachine
