import TapeMachine.Entry.Words
import TapeMachine.Regions

/-!
# Machines

A machine is one buffer that holds a program, its registers and its tape, together with the
division of the buffer into these regions. Every change keeps the size of the buffer, so a machine
always has all the words and slots of its regions. An `Action` is an operation on a machine that
may fail; it says what the machine is left as also when it does.
-/

set_option autoImplicit false

namespace TapeMachine

structure Machine where
  buffer : Buffer
  regions : Regions
  size_eq : buffer.size = regions.size

namespace Machine

/-- Replaces a word of the buffer. -/
def setWord (machine : Machine) (index : Nat) (value : UInt32) : Machine :=
  { machine with
    buffer := machine.buffer.setWord index value
    size_eq := by rw [Buffer.size_setWord, machine.size_eq] }

/-- Replaces a slot of the buffer. -/
def setSlot (machine : Machine) (index : Nat) (symbol : Symbol) : Machine :=
  { machine with
    buffer := machine.buffer.setSlot index symbol
    size_eq := by rw [Buffer.size_setSlot, machine.size_eq] }

/-- The machine with a given image. -/
def ofImage (image : Buffer) : Except ImageError Machine :=
  match h : Regions.ofHeader image with
  | .ok regions =>
    .ok { buffer := image, regions := regions, size_eq := Regions.size_eq_of_ofHeader h }
  | .error error => .error error

/-- The bytes of the program, header included. -/
def programBytes (machine : Machine) : ByteArray :=
  machine.buffer.bytes.extract 0 (4 * machine.regions.programWords)

/-- The bytes of the tape, header included. -/
def tapeBytes (machine : Machine) : ByteArray :=
  machine.buffer.bytes.extract (4 * machine.regions.tapeWord) machine.regions.size

/-- Whether two machines have the same program and the same tape. Registers are scratch space and do
not count. -/
def agrees (machine other : Machine) : Bool :=
  machine.regions = other.regions && machine.programBytes.beq other.programBytes
    && machine.tapeBytes.beq other.tapeBytes

end Machine

/-- An operation on a machine that may fail. -/
abbrev Action := EStateM Fault Machine

namespace Action

variable {α : Type}

/-- A question to the machine that it may refuse to answer. -/
@[inline]
def query (ask : Machine → Except Fault α) : Action α := fun machine ↦
  match ask machine with
  | .ok answer => .ok answer machine
  | .error fault => .error fault machine

/-- A change of the machine that cannot fail. -/
@[inline]
def change (update : Machine → Machine) : Action Unit := fun machine ↦
  .ok () (update machine)

/-- An action whose faults are reported in another form. -/
@[inline]
def mapFault (report : Fault → Fault) (action : Action α) : Action α := fun machine ↦
  match action machine with
  | .ok answer after => .ok answer after
  | .error fault after => .error (report fault) after

end Action

/-- What an action leaves of a machine if it does not fail. -/
def Machine.after (machine : Machine) (action : Action Unit) : Except Fault Machine :=
  match action machine with
  | .ok () after => .ok after
  | .error fault _ => .error fault

end TapeMachine
