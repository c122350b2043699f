import TapeMachine.Assembly.Line
import TapeMachine.Instruction
import TapeMachine.Register
import TapeMachine.Text.Blank
import TapeMachine.Text.Lines
import TapeMachine.Text.Numeral
import TapeMachine.Text.Quoted

/-!
# Assembly source

A source text has one instruction to a line; instruction `k` of the text becomes entry `k`. What
follows a hash is a comment, and a line of white space is passed over. A line is refused at the
first thing that is wrong with it, in this order: its form, its mnemonic, the number of its
operands, its operands from left to right and its target. A text is refused at its first line that
is.
-/

set_option autoImplicit false

namespace TapeMachine.Assembly

/-- What is wrong with a line. -/
inductive Problem where
  | unreadable (text : String)
  | notAnOperation (name : String)
  | wrongArity (opcode : Opcode) (given : Nat)
  | unknownRegister (name : String)
  | badNumber (numeral : String)
  deriving DecidableEq

def Problem.message : Problem → String
  | unreadable text => "cannot parse " ++ Text.quoted text
  | notAnOperation name => s!"{name} is not an operation"
  | wrongArity opcode given =>
    s!"{opcode.name} requires {opcode.arity} arguments but was given {given}"
  | unknownRegister name => s!"${name} is not a register name"
  | badNumber numeral => s!"{numeral} does not fit in a word"

/-- A problem with the line it is on; lines are counted from 1. -/
structure Rejection where
  line : Nat
  problem : Problem
  deriving DecidableEq

def Rejection.message (rejection : Rejection) : String :=
  s!"line {rejection.line}: {rejection.problem.message}"

/-- The opcode of a mnemonic; that of a state is no operation. -/
def operation? (mnemonic : List Char) : Option Opcode :=
  match Opcode.ofName? (String.ofList mnemonic) with
  | some .transition => none
  | found => found

/-- The value of an operand: a number that fits a signed word, or the index of a register. -/
def Operand.resolve : Operand → Except Problem Int32
  | number numeral =>
    let value := Text.signedValue numeral
    if -0x80000000 ≤ value ∧ value < 0x80000000 then .ok (Int32.ofInt value)
    else .error (.badNumber (String.ofList numeral))
  | register name =>
    match Register.ofName? (String.ofList name) with
    | some found => .ok (Int32.ofNat found.val)
    | none => .error (.unknownRegister (String.ofList name))

/-- The offset of a target, which must fit a word. -/
def Target.resolve : Target → Except Problem Offset
  | entry digits =>
    if Text.value digits ≤ Offset.lastEntry then .ok (Offset.ofEntry (Text.value digits))
    else .error (.badNumber (String.ofList digits))
  | offset digits =>
    if Text.value digits < 0x100000000 then .ok (UInt32.ofNat (Text.value digits))
    else .error (.badNumber (String.ofList digits))

/-- The instruction that the parts of a line give at an entry. -/
def Line.resolve (line : Line) (index : Nat) : Except Problem Instruction :=
  match operation? line.mnemonic with
  | none => .error (.notAnOperation (String.ofList line.mnemonic))
  | some opcode =>
    if line.operands.length ≠ opcode.arity then
      .error (.wrongArity opcode line.operands.length)
    else do
      let operands ← line.operands.mapM Operand.resolve
      let next ← match line.target with
        | some target => target.resolve
        | none => pure (Instruction.defaultNext opcode index)
      return { opcode := opcode
               first := operands.getD 0 0
               second := operands.getD 1 0
               third := operands.getD 2 0
               next := next }

/-- The instruction that a line without its comment gives at an entry. -/
def readInstruction (index : Nat) (code : List Char) : Except Problem Instruction :=
  match Line.parse? code with
  | none => .error (.unreadable (String.ofList (Text.trim code)))
  | some line => line.resolve index

/-- A line without its comment. -/
def uncomment (line : List Char) : List Char :=
  line.takeWhile (· ≠ '#')

/-- The instructions of lines, the first of them with a number, from an entry on. -/
def assembleLines (number index : Nat) : List (List Char) → Except Rejection (List Instruction)
  | [] => .ok []
  | line :: rest =>
    if Text.trim (uncomment line) = [] then assembleLines (number + 1) index rest
    else
      match readInstruction index (uncomment line) with
      | .error problem => .error { line := number, problem := problem }
      | .ok instruction =>
        (assembleLines (number + 1) (index + 1) rest).map (instruction :: ·)

/-- The program of a source text. -/
def assemble (source : String) : Except Rejection (List Instruction) :=
  assembleLines 1 0 (Text.lines source.toList)

end TapeMachine.Assembly
