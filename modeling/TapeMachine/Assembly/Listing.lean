import TapeMachine.Instruction
import TapeMachine.Register
import TapeMachine.Text.Numeral

/-!
# Listings

A listing is a program written as assembly, one instruction to a line. An operand that names a
register with a conventional name is written as that name, and a target is written only where it is
not the default: as an entry if it is the offset of one, as a bit offset otherwise.
-/

set_option autoImplicit false

namespace TapeMachine.Assembly

/-- An operand of an instruction: the name of a register where it has one, else its number. -/
def operandText (opcode : Opcode) (position : Nat) (operand : Int32) : List Char :=
  let name? :=
    if opcode.isRegisterOperand position then
      (Register.ofIndex? operand.toInt).bind Register.name?
    else none
  match name? with
  | some name => '$' :: name.toList
  | none => Text.signed operand.toInt

/-- The operands of an instruction in parentheses, or nothing if it has none. -/
def operandsText (instruction : Instruction) : List Char :=
  if instruction.opcode.arity = 0 then []
  else
    let operands := instruction.operands.mapIdx (operandText instruction.opcode)
    '(' :: ([',', ' '].intercalate operands ++ [')'])

/-- The target of an instruction at an entry, unless it is the default. -/
def targetText (index : Nat) (instruction : Instruction) : List Char :=
  if instruction.next = Instruction.defaultNext instruction.opcode index then []
  else
    match Offset.entry? instruction.next with
    | some target => [' ', '-', '>', ' '] ++ Text.digits target
    | none => [' ', '-', '>', ' ', '@'] ++ Text.digits instruction.next.toNat

/-- The line of an instruction at an entry. -/
def lineText (index : Nat) (instruction : Instruction) : List Char :=
  instruction.opcode.name.toList ++ operandsText instruction ++ targetText index instruction

/-- The lines of a program, each ended by a line feed. -/
def listing (program : List Instruction) : String :=
  String.ofList
    (program.mapIdx fun index instruction ↦ lineText index instruction ++ ['\n']).flatten

end TapeMachine.Assembly
