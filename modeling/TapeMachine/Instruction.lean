import TapeMachine.Offset

/-!
# Instructions

An instruction has an opcode, three signed operands and the offset of the entry to go on with.
Operands beyond the opcode's arity are never read. The opcode `transition` executes nothing: it
marks the entry of a state.
-/

set_option autoImplicit false

namespace TapeMachine

inductive Opcode where
  | clearRegisters
  | load
  | wordRead
  | symbolRead
  | multiply
  | add
  | wordWrite
  | symbolWrite
  | halt
  | ret
  | transition
  deriving DecidableEq

namespace Opcode

/-- Every opcode, in the order of the codes. -/
def all : List Opcode :=
  [clearRegisters, load, wordRead, symbolRead, multiply, add, wordWrite, symbolWrite, halt, ret,
    transition]

/-- The word an opcode is stored as. -/
def code : Opcode → UInt32
  | clearRegisters => 0
  | load => 1
  | wordRead => 2
  | symbolRead => 3
  | multiply => 4
  | add => 5
  | wordWrite => 6
  | symbolWrite => 7
  | halt => 8
  | ret => 9
  | transition => 1235

/-- The mnemonic of an opcode. -/
def name : Opcode → String
  | clearRegisters => "ClearRegisters"
  | load => "Load"
  | wordRead => "WordRead"
  | symbolRead => "SymbolRead"
  | multiply => "Multiply"
  | add => "Add"
  | wordWrite => "WordWrite"
  | symbolWrite => "SymbolWrite"
  | halt => "Halt"
  | ret => "Return"
  | transition => "Transition"

/-- The opcode a word stands for. -/
def ofCode? (code : UInt32) : Option Opcode :=
  all.find? fun opcode ↦ opcode.code = code

/-- The opcode with a mnemonic. -/
def ofName? (name : String) : Option Opcode :=
  all.find? fun opcode ↦ opcode.name = name

/-- How many operands an opcode reads. -/
def arity : Opcode → Nat
  | clearRegisters | halt | transition => 0
  | multiply | add => 3
  | _ => 2

/-- Whether an operand names a register; the first operand of `load` is a constant. -/
def isRegisterOperand (opcode : Opcode) (position : Nat) : Bool :=
  position < opcode.arity && !(opcode = load && position = 0)

/-- Whether an instruction goes on with its `next` entry. -/
def fallsThrough : Opcode → Bool
  | halt | ret | transition => false
  | _ => true

@[simp]
theorem ofCode?_code (opcode : Opcode) : ofCode? opcode.code = some opcode := by
  cases opcode <;> rfl

theorem ofCode?_eq_some_iff {code : UInt32} {opcode : Opcode} :
    ofCode? code = some opcode ↔ code = opcode.code := by
  constructor
  · intro hcode
    unfold ofCode? at hcode
    have hfound := List.find?_some hcode
    exact (of_decide_eq_true hfound).symm
  · rintro rfl
    exact ofCode?_code opcode

end Opcode

/-- A generic instruction. -/
structure Instruction where
  opcode : Opcode
  first : Int32
  second : Int32
  third : Int32
  next : Offset
  deriving DecidableEq

namespace Instruction

/-- The instruction that stops a program. -/
def halt : Instruction :=
  { opcode := .halt, first := 0, second := 0, third := 0, next := Offset.ofEntry 0 }

/-- The operands that the opcode reads. -/
def operands (instruction : Instruction) : List Int32 :=
  [instruction.first, instruction.second, instruction.third].take instruction.opcode.arity

/-- Where an instruction at an entry goes on by default: at the entry after it, or at entry 0 if
its opcode never falls through. -/
def defaultNext (opcode : Opcode) (index : Nat) : Offset :=
  if opcode.fallsThrough then Offset.ofEntry (index + 1) else Offset.ofEntry 0

/-- The mnemonic with the operands in parentheses; parentheses around nothing are left out. -/
def text (instruction : Instruction) : String :=
  if instruction.opcode.arity = 0 then instruction.opcode.name
  else instruction.opcode.name ++ "("
    ++ String.intercalate ", " (instruction.operands.map toString) ++ ")"

end Instruction

end TapeMachine
