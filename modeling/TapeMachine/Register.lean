/-!
# Registers

A machine has fifty signed 32-bit registers. Sixteen of them have a conventional name: they carry
what the fetch of an instruction leaves behind, and what a state hands over to the microcode.
-/

set_option autoImplicit false

namespace TapeMachine

/-- One of the fifty registers. -/
abbrev Register := Fin 50

namespace Register

/-- The number of registers. -/
def count : Nat := 50

/-- The instruction pointer value at which a table machine has halted. -/
def haltSentinel : Register := 27

/-- The offset of the state that was handed to the microcode. -/
def activeState : Register := 29

/-- The bit offset of the program word count. -/
def sizeAddress : Register := 30

/-- The bit offset of the instruction pointer, which is also the width of a word. -/
def pointerAddress : Register := 31

/-- The program word count. -/
def programWords : Register := 32

/-- The instruction pointer. -/
def pointer : Register := 33

/-- The opcode of the fetched entry. -/
def opcode : Register := 35

def firstAddress : Register := 36

def first : Register := 37

def secondAddress : Register := 38

def second : Register := 39

def thirdAddress : Register := 40

def third : Register := 41

def nextAddress : Register := 42

def next : Register := 43

/-- The bit offset of the first instruction of the microcode. -/
def microcodeEntry : Register := 49

/-- The registers that have a name, with their names. -/
def conventional : List (Register × String) :=
  [ (haltSentinel, "halt_sentinel"),
    (activeState, "active_state"),
    (sizeAddress, "size_address"),
    (pointerAddress, "ip_address"),
    (programWords, "program_words"),
    (pointer, "ip"),
    (opcode, "opcode"),
    (firstAddress, "arg0_address"),
    (first, "arg0"),
    (secondAddress, "arg1_address"),
    (second, "arg1"),
    (thirdAddress, "arg2_address"),
    (third, "arg2"),
    (nextAddress, "next_address"),
    (next, "next"),
    (microcodeEntry, "bootstrap_entry") ]

/-- Every register, in order. -/
def all : List Register := List.finRange 50

/-- The register with a given index. -/
def ofIndex? (index : Int) : Option Register :=
  if h : 0 ≤ index ∧ index < 50 then some ⟨index.toNat, by omega⟩ else none

/-- The operand that names a register. -/
def operand (register : Register) : Int32 := Int32.ofNat register.val

/-- The conventional name of a register. -/
def name? (register : Register) : Option String :=
  (conventional.find? fun entry ↦ entry.1 = register).map Prod.snd

/-- The register with a conventional name. -/
def ofName? (name : String) : Option Register :=
  (conventional.find? fun entry ↦ entry.2 = name).map Prod.fst

theorem ofIndex?_eq_some_iff {index : Int} {register : Register} :
    ofIndex? index = some register ↔ index = (register.val : Int) := by
  unfold ofIndex?
  split
  · simp only [Option.some.injEq, Fin.ext_iff]
    omega
  · have := register.isLt
    simp only [reduceCtorEq, false_iff]
    omega

end Register

end TapeMachine
