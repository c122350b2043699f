/-!
# Bit offsets

Every reference inside a machine is a bit offset from the start of its buffer, held in a 32-bit
word. The program header takes two words, an entry five, the register file fifty and the tape
header two; symbols follow four to a byte. Entry `i` begins at bit `64 + 160 i`, state `s` is the
entry thirty-one places further on, and the head field of the tape holds `64 + 2 p` for position
`p`, counted from the start of the tape region. Offsets of entries and positions that do not fit a
word keep their low 32 bits.
-/

set_option autoImplicit false

namespace TapeMachine

/-- A bit offset from the start of a machine's buffer. -/
abbrev Offset := UInt32

namespace Offset

/-- The bit offset of the program word count. -/
def wordCountField : Offset := 0

/-- The bit offset of the instruction pointer. -/
def pointerField : Offset := 32

/-- The entry that holds state 0, the halt state; the states of a table follow it. -/
def firstStateEntry : Nat := 31

/-- The bit offset of an entry. -/
def ofEntry (index : Nat) : Offset :=
  UInt32.ofNat (64 + 160 * index)

/-- The entry that begins at a bit offset. -/
def entry? (offset : Offset) : Option Nat :=
  if 64 ≤ offset.toNat ∧ (offset.toNat - 64) % 160 = 0 then some ((offset.toNat - 64) / 160)
  else none

/-- The bit offset of the entry of a state. -/
def ofState (state : Nat) : Offset :=
  ofEntry (firstStateEntry + state)

/-- The state whose entry begins at a bit offset. -/
def state? (offset : Offset) : Option Nat :=
  offset.entry?.bind fun index ↦
    if firstStateEntry ≤ index then some (index - firstStateEntry) else none

/-- The halt state, where a table machine's instruction pointer comes to rest. -/
def halt : Offset := ofState 0

/-- The entry that holds the first instruction of the microcode. -/
def firstMicrocodeEntry : Nat := 1

/-- The largest entry whose offset fits a word. -/
def lastEntry : Nat := 26843545

theorem entry?_eq_some_iff {offset : Offset} {index : Nat} :
    offset.entry? = some index ↔ offset.toNat = 64 + 160 * index := by
  unfold entry?
  split
  · simp only [Option.some.injEq]
    omega
  · simp only [reduceCtorEq, false_iff]
    omega

theorem state?_of_toNat {offset : Offset} {index : Nat}
    (hoffset : offset.toNat = 64 + 160 * index) :
    offset.state? =
      if firstStateEntry ≤ index then some (index - firstStateEntry) else none := by
  rw [state?, entry?_eq_some_iff.mpr hoffset, Option.bind_some]

theorem toNat_ofEntry {index : Nat} (hindex : index ≤ lastEntry) :
    (ofEntry index).toNat = 64 + 160 * index := by
  unfold lastEntry at hindex
  rw [ofEntry, UInt32.toNat_ofNat']
  omega

end Offset

/-- What an entry offset refers to: an instruction by its entry, or a state by its number. -/
inductive Landmark where
  | entry (index : Nat)
  | state (number : Nat)
  deriving DecidableEq

namespace Landmark

/-- The landmark at a bit offset. -/
def ofOffset? (offset : Offset) : Option Landmark :=
  offset.entry?.map fun index ↦
    if Offset.firstStateEntry ≤ index then state (index - Offset.firstStateEntry) else entry index

/-- The bit offset of a landmark. -/
def offset : Landmark → Offset
  | entry index => Offset.ofEntry index
  | state number => Offset.ofState number

/-- Entries are written `E[i]` and states `S[n]`. -/
def text : Landmark → String
  | entry index => s!"E[{index}]"
  | state number => s!"S[{number}]"

end Landmark

/-- The text of an offset that should name an entry: its landmark, or the offset itself after an
at sign. -/
def Offset.text (offset : Offset) : String :=
  match Landmark.ofOffset? offset with
  | some landmark => landmark.text
  | none => s!"@{offset}"

/-! ### The head field -/

namespace HeadField

/-- The field that puts the head at a position. -/
def ofPosition (position : Nat) : UInt32 :=
  64 + UInt32.ofNat (2 * position)

/-- The position a field names, rounded down; a field below 64 names a position before the tape. -/
def position (field : UInt32) : Int :=
  ((field.toNat : Int) - 64) / 2

/-- Cells are two bits wide, so only an even field names one. -/
def isAligned (field : UInt32) : Bool :=
  field.toNat % 2 = 0

end HeadField

end TapeMachine
