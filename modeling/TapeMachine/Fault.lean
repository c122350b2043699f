import TapeMachine.Instruction
import TapeMachine.Register
import TapeMachine.Text.Quoted

/-!
# Faults

A fault is why an operation on a machine could not be done: a value that stands for nothing, a
place that does not exist, or a description that is too large. `Fault.message` is the sentence
that reports it.
-/

set_option autoImplicit false

namespace TapeMachine

/-- Why a text cannot be placed on a tape. -/
inductive PlacementRefusal where
  | foreignCharacter
  | noRoom
  deriving DecidableEq

def PlacementRefusal.message : PlacementRefusal → String
  | foreignCharacter => "only '0', '1' and ' ' can be placed"
  | noRoom => "the text does not fit on the tape there"

/-- Why an operation could not be done. -/
inductive Fault where
  /-- The first word of the entry at an offset is no opcode. -/
  | unknownOpcode (offset : Offset) (code : UInt32)
  /-- There is no register with this index. -/
  | noRegister (index : Int)
  /-- A word was accessed at an offset that is no multiple of 32. -/
  | misalignedWord (offset : Int)
  /-- A symbol was accessed at an odd offset. -/
  | misalignedSymbol (offset : Int)
  /-- The bits at an offset do not all lie in the buffer. -/
  | outOfBounds (offset : Int) (bits : Nat)
  /-- A value is no symbol. -/
  | notASymbol (offset value : Int)
  /-- A code is no head move. -/
  | notAMove (code : UInt8)
  /-- A position is not on the tape. -/
  | offTape (position : Int) (length : Nat)
  /-- A table names a state that it does not have. -/
  | noState (state count : Nat)
  /-- A program has no entry with this index. -/
  | noEntry (index count : Nat)
  /-- An offset is not that of an entry of the program. -/
  | notAnEntry (offset : Offset)
  /-- The next state of a rule is not a state. -/
  | notAState (offset : Offset)
  /-- A machine of this size cannot be addressed. -/
  | tooLarge (entries cells : Nat)
  /-- A text cannot be placed on the tape. -/
  | unplaceable (text : String) (refusal : PlacementRefusal)
  /-- An instruction failed. -/
  | execution (offset : Offset) (instruction : Instruction) (cause : Fault)
  deriving DecidableEq

namespace Fault

/-- The sentence that reports a fault. -/
def message : Fault → String
  | unknownOpcode offset code =>
    s!"invalid opcode {code} in the entry at bit offset {offset}"
  | noRegister index => s!"register index {index} is out of range (limit {Register.count})"
  | misalignedWord offset => s!"word access at bit offset {offset} is not 32-bit aligned"
  | misalignedSymbol offset =>
    s!"symbol access at bit offset {offset} is odd or straddles a byte boundary"
  | outOfBounds offset bits => s!"bit offset {offset} lies outside the {bits}-bit buffer"
  | notASymbol offset value => s!"value {value} is not a symbol (bit offset {offset})"
  | notAMove code => s!"code {code} is not a head move"
  | offTape position length => s!"head position {position} is off the {length}-symbol tape"
  | noState state count => s!"state {state} is outside the {count}-state table"
  | noEntry index count => s!"entry {index} is outside the {count}-entry program"
  | notAnEntry offset => s!"bit offset {offset} does not point at a program entry"
  | notAState offset => s!"the entry at bit offset {offset} is not a transition"
  | tooLarge entries cells =>
    s!"{entries} entries and {cells} tape symbols do not fit in 32-bit bit offsets"
  | unplaceable text refusal =>
    "cannot place " ++ Text.quoted text ++ ": " ++ refusal.message
  | execution offset instruction cause =>
    s!"{instruction.text} at bit offset {offset}: {cause.message}"

/-- The fault of a position that is counted without a sign: it is reported as the signed 64-bit
number with the same bits. -/
def offTapeAt (position length : Nat) : Fault :=
  offTape (Int.bmod position UInt64.size) length

end Fault

/-- The register an operand names. -/
def Register.ofOperand (operand : Int32) : Except Fault Register :=
  match Register.ofIndex? operand.toInt with
  | some register => .ok register
  | none => .error (.noRegister operand.toInt)

theorem Register.ofOperand_operand (register : Register) :
    ofOperand register.operand = .ok register := by
  have hindex : ofIndex? register.operand.toInt = some register :=
    ofIndex?_eq_some_iff.mpr (Int32.toInt_ofNat_of_lt (by have := register.isLt; omega))
  rw [ofOperand, hindex]

end TapeMachine
