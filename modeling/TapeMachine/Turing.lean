import TapeMachine.Table.Row

/-!
# Turing machines

What a transition table means, without a buffer, registers or microcode: a configuration is a state,
a head and a tape, and a step applies the rule of the state for the symbol under the head. There is
no step from the halt state, from a state that the table does not have, or with the head off the
tape.
-/

set_option autoImplicit false

namespace TapeMachine.Turing

/-- A state, the position of the head and the symbol at each position. -/
structure Configuration where
  state : Nat
  head : Int
  tape : Int → Symbol

namespace Configuration

/-- Whether the head is on a tape of a number of cells. -/
def OnTape (configuration : Configuration) (cells : Nat) : Prop :=
  0 ≤ configuration.head ∧ configuration.head < cells

instance (configuration : Configuration) (cells : Nat) : Decidable (configuration.OnTape cells) :=
  inferInstanceAs (Decidable (_ ∧ _))

/-- The rule of a table for a configuration. -/
def rule? (configuration : Configuration) (rows : List Row) : Option (Rule Nat) :=
  match configuration.state with
  | 0 => none
  | state + 1 => rows[state]?.map fun row ↦ row.get (configuration.tape configuration.head)

/-- The configuration after a rule was applied. -/
def apply (configuration : Configuration) (rule : Rule Nat) : Configuration :=
  { state := rule.next
    head := configuration.head + rule.move.delta
    tape := fun position ↦
      if position = configuration.head then rule.write else configuration.tape position }

/-- One step of the machine of a table on a tape of a number of cells. -/
def step? (rows : List Row) (cells : Nat) (configuration : Configuration) :
    Option Configuration :=
  if configuration.OnTape cells then (configuration.rule? rows).map configuration.apply else none

/-- A number of steps. -/
def steps? (rows : List Row) (cells : Nat) : Nat → Configuration → Option Configuration
  | 0, configuration => some configuration
  | count + 1, configuration =>
    (configuration.step? rows cells).bind fun next ↦ next.steps? rows cells count

end Configuration

/-- The state that the machine of a table starts in. -/
def startState (rows : List Row) : Nat :=
  if rows.isEmpty then 0 else 1

end TapeMachine.Turing
