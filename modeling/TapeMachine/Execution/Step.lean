import TapeMachine.Machine.Tape

/-!
# Steps

A step fetches the entry that the instruction pointer is on. An instruction has its operands
fetched, is performed, and is followed by its next entry; `Halt` stops the machine instead, and
`Return` has set the pointer itself. A state is handed to the microcode, whose instructions are the
steps that follow, unless it is the halt state; before either, the head must be on the tape and on
a symbol. All that is fetched is left in registers, also when the step then fails.
-/

set_option autoImplicit false

namespace TapeMachine

/-- What the head reads when a state is entered. The state is missing where its entry lies before
those of the states. -/
structure Reading where
  state : Option Nat
  symbol : Symbol
  position : Nat
  deriving DecidableEq

/-- What a step did. -/
inductive Step where
  /-- An instruction was performed. -/
  | executed (opcode : Opcode)
  /-- A state was handed to the microcode. -/
  | transition (reading : Reading)
  /-- Nothing: the machine is halted. -/
  | halted
  deriving DecidableEq

/-- Whether a machine is at a `Halt` instruction or in the halt state. -/
def Machine.isHalted (machine : Machine) : Except Fault Bool :=
  machine.currentEntry.map fun entry ↦
    entry.opcode = .halt || (entry.opcode = .transition && machine.pointer = Offset.halt)

namespace Action

/-- Fetches the instruction pointer and the opcode at it. -/
def fetch : Action (Offset × Opcode) := do
  change fun machine ↦ machine.setRegister .sizeAddress Offset.wordCountField.toInt32
  change fun machine ↦ machine.setRegister .pointerAddress Offset.pointerField.toInt32
  change fun machine ↦ machine.setRegister .programWords (machine.buffer.word 0).toInt32
  change fun machine ↦ machine.setRegister .pointer machine.pointer.toInt32
  let offset ← query fun machine ↦ .ok machine.pointer
  let _ ← query fun machine ↦ machine.entryAt offset
  let code ← query fun machine ↦ machine.buffer.readWord offset.toInt32.toInt
  change fun machine ↦ machine.setRegister .opcode code.toInt32
  change fun machine ↦ machine.setRegister .haltSentinel Offset.halt.toInt32
  match Opcode.ofCode? code with
  | some opcode => return (offset, opcode)
  | none => throw (.unknownOpcode offset code)

/-- Fetches the word that follows the one whose address is in a register. The new address and the
word are left in two more registers. -/
def fetchNext (previous address contents : Register) : Action UInt32 := do
  change fun machine ↦
    machine.setRegister address (machine.register previous + machine.register .pointerAddress)
  let word ← query fun machine ↦ machine.buffer.readWord (machine.register address).toInt
  change fun machine ↦ machine.setRegister contents word.toInt32
  return word

/-- Fetches the operands and the next offset of the instruction at the instruction pointer. -/
def fetchInstruction (opcode : Opcode) : Action Instruction := do
  let first ← fetchNext .pointer .firstAddress .first
  let second ← fetchNext .firstAddress .secondAddress .second
  let third ← fetchNext .secondAddress .thirdAddress .third
  let next ← fetchNext .thirdAddress .nextAddress .next
  return { opcode := opcode
           first := first.toInt32
           second := second.toInt32
           third := third.toInt32
           next := next }

/-- What an instruction does apart from moving the instruction pointer on. -/
def perform (instruction : Instruction) : Action Unit :=
  match instruction.opcode with
  | .clearRegisters => clearRegisters
  | .load => load instruction.first instruction.second
  | .wordRead => wordRead instruction.first instruction.second
  | .symbolRead => symbolRead instruction.first instruction.second
  | .multiply => multiply instruction.first instruction.second instruction.third
  | .add => add instruction.first instruction.second instruction.third
  | .wordWrite | .ret => wordWrite instruction.first instruction.second
  | .symbolWrite => symbolWrite instruction.first instruction.second
  | .halt | .transition => pure ()

/-- Moves the instruction pointer on. -/
def advance (next : Offset) : Action Unit := do
  change fun machine ↦ machine.setRegister .next next.toInt32
  change fun machine ↦ machine.setRegister .pointerAddress Offset.pointerField.toInt32
  change fun machine ↦ machine.setWord 1 next

/-- Hands the state at the instruction pointer to the microcode. -/
def enterMicrocode : Action Unit := do
  let entry := Offset.ofEntry Offset.firstMicrocodeEntry
  change fun machine ↦ machine.setRegister .activeState machine.pointer.toInt32
  change fun machine ↦ machine.setRegister .microcodeEntry entry.toInt32
  change fun machine ↦ machine.setWord 1 entry

/-- The step of a machine whose instruction pointer is on a state. Whether it is the halt state is
seen in the registers that the fetch has left. -/
def stepState (offset : Offset) : Action Step := do
  let position ← query Machine.head
  let symbol ← query fun machine ↦ machine.cell position
  let difference ← query fun machine ↦
    machine.compare Register.pointer.operand Register.haltSentinel.operand
  if difference = 0 then return .halted
  enterMicrocode
  return .transition { state := offset.state?, symbol := symbol, position := position }

/-- The step of a machine whose instruction pointer is on an instruction. -/
def stepInstruction (offset : Offset) (opcode : Opcode) : Action Step := do
  let instruction ← fetchInstruction opcode
  mapFault (.execution offset instruction) (perform instruction)
  match opcode with
  | .halt => return .halted
  | .ret => return .executed .ret
  | _ =>
    advance instruction.next
    return .executed opcode

/-- One step of a machine. -/
def step : Action Step := do
  let (offset, opcode) ← fetch
  match opcode with
  | .transition => stepState offset
  | _ => stepInstruction offset opcode

end Action

end TapeMachine
