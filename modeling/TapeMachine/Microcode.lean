import TapeMachine.Instruction
import TapeMachine.Register

/-!
# The microcode

Thirty generic instructions that make one transition of a Turing machine. They are entered with the
offset `s` of a state in the active-state register. They find the tape from the program word count,
read the head and the symbol `x` under it, and read the rule of the state for `x`: the symbol to
write at `s + 32 + 2x`, the move at `s + 40 + 2x` and the next state at `s + 64 + 32x`. Only then do
they write the symbol, the head and, last of all, the instruction pointer.
-/

set_option autoImplicit false

namespace TapeMachine.Microcode

/-! ### Scratch registers -/

def sizeAddress : Int32 := 0

/-- The width of a word, which is also the address of the instruction pointer. -/
def wordBits : Int32 := 1

def programWords : Int32 := 2

def registerWords : Int32 := 4

def regionWords : Int32 := 5

def tapeBase : Int32 := 6

def headAddress : Int32 := 7

def head : Int32 := 8

def cellAddress : Int32 := 9

def cell : Int32 := 10

def two : Int32 := 11

def cellShift : Int32 := 12

def writeAddress : Int32 := 13

def eight : Int32 := 14

def moveAddress : Int32 := 15

def nextBase : Int32 := 16

def nextShift : Int32 := 17

def nextAddress : Int32 := 18

def moveCode : Int32 := 19

def minusOne : Int32 := 20

def delta : Int32 := 21

def bitDelta : Int32 := 22

def newHead : Int32 := 23

def newSymbol : Int32 := 24

def newState : Int32 := 25

def ruleAddress : Int32 := 26

/-- The state that is being worked on. -/
def state : Int32 := 29

/-! ### Instructions -/

/-- The opcode and the operands of each instruction, in the order in which they run. -/
def steps : List (Opcode × Int32 × Int32 × Int32) :=
  [ -- The tape follows the program and the registers.
    (.load, 0, sizeAddress, 0),
    (.load, 32, wordBits, 0),
    (.wordRead, sizeAddress, programWords, 0),
    (.load, 50, registerWords, 0),
    (.add, programWords, registerWords, regionWords),
    (.multiply, regionWords, wordBits, tapeBase),
    -- The symbol under the head.
    (.add, wordBits, tapeBase, headAddress),
    (.wordRead, headAddress, head, 0),
    (.add, tapeBase, head, cellAddress),
    (.symbolRead, cellAddress, cell, 0),
    -- The symbol to write.
    (.load, 2, two, 0),
    (.multiply, two, cell, cellShift),
    (.add, state, cellShift, ruleAddress),
    (.add, ruleAddress, wordBits, writeAddress),
    (.symbolRead, writeAddress, newSymbol, 0),
    -- The move, as a displacement in bits.
    (.load, 8, eight, 0),
    (.add, writeAddress, eight, moveAddress),
    (.symbolRead, moveAddress, moveCode, 0),
    (.load, -1, minusOne, 0),
    (.add, moveCode, minusOne, delta),
    (.multiply, two, delta, bitDelta),
    (.add, head, bitDelta, newHead),
    -- The next state.
    (.add, wordBits, state, nextBase),
    (.add, wordBits, nextBase, nextBase),
    (.multiply, wordBits, cell, nextShift),
    (.add, nextBase, nextShift, nextAddress),
    (.wordRead, nextAddress, newState, 0),
    -- The transition takes effect.
    (.symbolWrite, newSymbol, cellAddress, 0),
    (.wordWrite, newHead, headAddress, 0),
    (.ret, newState, wordBits, 0) ]

/-- The microcode as it stands in a program, each instruction leading to the one after it. -/
def program : List Instruction :=
  steps.mapIdx fun index (opcode, first, second, third) ↦
    { opcode := opcode
      first := first
      second := second
      third := third
      next := Instruction.defaultNext opcode (Offset.firstMicrocodeEntry + index) }

end TapeMachine.Microcode
