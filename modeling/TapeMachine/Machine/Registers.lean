import TapeMachine.Machine.Basic

/-!
# The register file

Registers are signed 32-bit words, and arithmetic on them wraps. Each operation below is what one
instruction does. Its operands name registers by index, and each is checked when it is needed; an
access to the buffer goes to the bit offset in a register.
-/

set_option autoImplicit false

namespace TapeMachine

namespace Machine

/-- The contents of a register. -/
def register (machine : Machine) (register : Register) : Int32 :=
  (machine.buffer.word (machine.regions.registerWord register)).toInt32

/-- Replaces the contents of a register. -/
def setRegister (machine : Machine) (register : Register) (value : Int32) : Machine :=
  machine.setWord (machine.regions.registerWord register) value.toUInt32

/-- The contents of the register an operand names. -/
def operandRegister (machine : Machine) (operand : Int32) : Except Fault Int32 :=
  (Register.ofOperand operand).map machine.register

/-- The contents of every register, in order. -/
def registers (machine : Machine) : List Int32 :=
  Register.all.map machine.register

/-- The difference of two registers. -/
def compare (machine : Machine) (left right : Int32) : Except Fault Int32 := do
  let minuend ← machine.operandRegister left
  let subtrahend ← machine.operandRegister right
  return minuend - subtrahend

end Machine

namespace Action

/-- Puts a value into the register an operand names. -/
def load (value target : Int32) : Action Unit := do
  let register ← query fun _ ↦ Register.ofOperand target
  change fun machine ↦ machine.setRegister register value

/-- Puts zero into every register. -/
def clearRegisters : Action Unit :=
  change fun machine ↦
    Register.all.foldl (fun machine register ↦ machine.setRegister register 0) machine

/-- Puts the sum of two registers into a third. -/
def add (left right target : Int32) : Action Unit := do
  let augend ← query fun machine ↦ machine.operandRegister left
  let addend ← query fun machine ↦ machine.operandRegister right
  load (augend + addend) target

/-- Puts the product of two registers into a third. -/
def multiply (left right target : Int32) : Action Unit := do
  let multiplicand ← query fun machine ↦ machine.operandRegister left
  let multiplier ← query fun machine ↦ machine.operandRegister right
  load (multiplicand * multiplier) target

/-- Puts the word at an address into a register. -/
def wordRead (address target : Int32) : Action Unit := do
  let offset ← query fun machine ↦ machine.operandRegister address
  let value ← query fun machine ↦ machine.buffer.readWord offset.toInt
  load value.toInt32 target

/-- Puts a register into the word at an address. -/
def wordWrite (source address : Int32) : Action Unit := do
  let value ← query fun machine ↦ machine.operandRegister source
  let offset ← query fun machine ↦ machine.operandRegister address
  let index ← query fun machine ↦ machine.buffer.wordAt offset.toInt
  change fun machine ↦ machine.setWord index value.toUInt32

/-- Puts the code of the symbol at an address into a register. -/
def symbolRead (address target : Int32) : Action Unit := do
  let offset ← query fun machine ↦ machine.operandRegister address
  let symbol ← query fun machine ↦ machine.buffer.readSymbol offset.toInt
  load (Int32.ofNat symbol.code.toNat) target

/-- Puts the symbol whose code is in a register into the slot at an address. The code is checked
before the address. -/
def symbolWrite (source address : Int32) : Action Unit := do
  let value ← query fun machine ↦ machine.operandRegister source
  let offset ← query fun machine ↦ machine.operandRegister address
  let symbol ← query fun _ ↦
    match Symbol.ofValue? value.toInt with
    | some symbol => .ok symbol
    | none => .error (.notASymbol offset.toInt value.toInt)
  let index ← query fun machine ↦ machine.buffer.slotAt offset.toInt
  change fun machine ↦ machine.setSlot index symbol

end Action

end TapeMachine
