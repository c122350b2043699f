import TapeMachine.Symbol
import TapeMachine.Instruction

/-!
# Program entries

A program is an array of entries of one size: generic instructions, and states of a Turing machine
with a rule for each symbol that can be under the head.
-/

set_option autoImplicit false

namespace TapeMachine

/-- The rules of a state, with next states named by the offsets of their entries. -/
abbrev StateRules := PerSymbol (Rule Offset)

/-- One entry of a program. -/
inductive Entry where
  | instruction (content : Instruction)
  | state (rules : StateRules)
  deriving DecidableEq

namespace Entry

/-- The opcode an entry is stored under. -/
def opcode : Entry → Opcode
  | instruction content => content.opcode
  | state _ => .transition

/-- Whether an entry is a state. -/
def isState : Entry → Bool
  | instruction _ => false
  | state _ => true

/-- The offsets that the rules of an entry go on with. -/
def nexts : Entry → List Offset
  | instruction _ => []
  | state rules => rules.toList.map Rule.next

/-- Whether an offset is that of a state among entries. -/
def leadsToState (entries : Array Entry) (offset : Offset) : Bool :=
  match offset.entry?.bind fun index ↦ entries[index]? with
  | some entry => entry.isState
  | none => false

/-- The first offset that a rule among entries goes on with although it is not that of a state. -/
def strayNext? (entries : List Entry) : Option Offset :=
  let table := entries.toArray
  (entries.flatMap nexts).find? fun next ↦ !leadsToState table next

end Entry

/-- A rule is written as the symbol read, the symbol written, the move and the next state. -/
def Rule.text (read : Symbol) (rule : Rule Offset) : String :=
  s!"{read.code}:{rule.write.code}{rule.move.arrow}" ++ rule.next.text

/-- The three rules of a state, in brackets. -/
def StateRules.text (rules : StateRules) : String :=
  "Transition["
    ++ String.intercalate " " (Symbol.all.map fun symbol ↦ (rules.get symbol).text symbol) ++ "]"

/-- An instruction that falls through is followed by an arrow to its next entry. -/
def Entry.text : Entry → String
  | instruction content =>
    if content.opcode.fallsThrough then content.text ++ " -> " ++ content.next.text
    else content.text
  | state rules => StateRules.text rules

end TapeMachine
