import TapeMachine.Buffer

/-!
# Regions of a machine

A machine's buffer is divided into a program (two header words and five words to an entry), fifty
register words and a tape (two header words, then sixteen cells to a word). All boundaries follow
from the number of entries and the number of cell words. `Regions.plan` divides a new buffer, and
refuses one whose bits the signed 32-bit registers could not address; `Regions.ofHeader` finds the
division of a given buffer from the two word counts in it, or says why there is none.
-/

set_option autoImplicit false

namespace TapeMachine

/-- Why a buffer is not the image of a machine. -/
inductive ImageError where
  | tooShort (size : Nat)
  | raggedProgram (words : UInt32)
  | emptyTape (words : UInt32)
  | lengthMismatch (expected actual : Nat)
  deriving DecidableEq

def ImageError.message : ImageError → String
  | tooShort size => s!"a buffer of {size} bytes is too short to hold a machine"
  | raggedProgram words =>
    s!"program word count {words} does not describe a whole number of entries"
  | emptyTape words => s!"tape word count {words} leaves no room for symbols"
  | lengthMismatch expected actual =>
    s!"the headers describe {expected} bytes but the buffer holds {actual}"

/-! ### Sizes -/

/-- The word count of a program with a number of entries, header included; its low 32 bits. -/
def programWordCount (entries : Nat) : UInt32 :=
  UInt32.ofNat (2 + 5 * entries)

/-- The word count of a tape with a number of cells, header included; its low 32 bits. -/
def tapeWordCount (cells : Nat) : UInt32 :=
  UInt32.ofNat (2 + cells / 16)

/-- The number of bytes of a machine. -/
def imageSize (entries cells : Nat) : Nat :=
  216 + 20 * entries + cells / 4

/-- A number of cells rounded up to whole words, if the sum fits 64 bits. -/
def roundCells? (cells : Nat) : Option Nat :=
  if cells + 15 < UInt64.size then some ((cells + 15) / 16 * 16) else none

/-- The number of bits of a machine, if signed 32-bit registers can address them all. -/
def addressableBits? (entries cells : Nat) : Option Nat :=
  if 8 * imageSize entries cells < 0x80000000 then some (8 * imageSize entries cells) else none

theorem roundCells?_eq_some_iff {cells rounded : Nat} :
    roundCells? cells = some rounded ↔
      cells + 15 < UInt64.size ∧ rounded = (cells + 15) / 16 * 16 := by
  unfold roundCells?
  split
  · next hfits => simp [hfits, eq_comm]
  · next hfits => simp [hfits]

theorem addressableBits?_eq_some_iff {entries cells bits : Nat} :
    addressableBits? entries cells = some bits ↔
      8 * imageSize entries cells < 0x80000000 ∧ bits = 8 * imageSize entries cells := by
  unfold addressableBits?
  split
  · next hfits => simp [hfits, eq_comm]
  · next hfits => simp [hfits]

/-- How the buffer of a machine is divided. Both word counts fit a word, and the tape is not
empty. -/
structure Regions where
  entries : Nat
  cellWords : Nat
  cellWords_pos : 0 < cellWords
  programWords_lt : 2 + 5 * entries < 0x100000000
  tapeWords_lt : 2 + cellWords < 0x100000000
  deriving DecidableEq

namespace Regions

variable (regions : Regions)

/-- The number of tape cells. -/
def cells : Nat := 16 * regions.cellWords

/-- The number of words of the program, its header included. -/
def programWords : Nat := 2 + 5 * regions.entries

/-- The number of words of the tape, its header included. -/
def tapeWords : Nat := 2 + regions.cellWords

/-- The number of bytes of the buffer. -/
def size : Nat := 4 * (regions.programWords + 50 + regions.tapeWords)

/-- The word that holds a register. -/
def registerWord (register : Register) : Nat := regions.programWords + register.val

/-- The word that holds the tape's word count. -/
def tapeWord : Nat := regions.programWords + 50

/-- The word that holds the head field. -/
def headWord : Nat := regions.tapeWord + 1

/-- The slot that holds a tape cell. -/
def cellSlot (position : Nat) : Nat := 16 * (regions.tapeWord + 2) + position

/-- The bit offset of the first register. -/
def registerBase : Nat := 32 * regions.programWords

/-- The bit offset of the tape. -/
def tapeBase : Nat := 32 * regions.tapeWord

/-- The regions of a new machine. The tape is rounded up to whole words and is never empty. Every
bit must be addressable. -/
def plan (entries cells : Nat) : Except Fault Regions :=
  match hrounded : roundCells? (max cells 1) with
  | none => .error (.tooLarge entries cells)
  | some rounded =>
    match hbits : addressableBits? entries rounded with
    | none => .error (.tooLarge entries cells)
    | some _ =>
      have hcells := (roundCells?_eq_some_iff.mp hrounded).2
      have hsize := (addressableBits?_eq_some_iff.mp hbits).1
      .ok
        { entries := entries
          cellWords := rounded / 16
          cellWords_pos := by omega
          programWords_lt := by unfold imageSize at hsize; omega
          tapeWords_lt := by unfold imageSize at hsize; omega }

/-- The regions of a given buffer. The program word count is read and checked first, then the tape
word count, then the size. -/
def ofHeader (buffer : Buffer) : Except ImageError Regions :=
  let programWords := (buffer.word 0).toNat
  let tapeWords := (buffer.word (programWords + 50)).toNat
  if buffer.size < 4 then .error (.tooShort buffer.size)
  else if hprogram : programWords < 2 ∨ (programWords - 2) % 5 ≠ 0 then
    .error (.raggedProgram (buffer.word 0))
  else if buffer.size < 4 * (programWords + 51) then .error (.tooShort buffer.size)
  else if htape : tapeWords ≤ 2 then .error (.emptyTape (buffer.word (programWords + 50)))
  else
    let regions : Regions :=
      { entries := (programWords - 2) / 5
        cellWords := tapeWords - 2
        cellWords_pos := by omega
        programWords_lt := by
          have := (buffer.word 0).toNat_lt
          omega
        tapeWords_lt := by
          have := (buffer.word (programWords + 50)).toNat_lt
          omega }
    if regions.size = buffer.size then .ok regions
    else .error (.lengthMismatch regions.size buffer.size)

theorem size_eq_imageSize : regions.size = imageSize regions.entries regions.cells := by
  simp only [size, programWords, tapeWords, imageSize, cells]
  omega

/-! ### Planned regions -/

section Plan

variable {entries cells : Nat}

/-- A new machine is refused for its size alone. -/
theorem eq_tooLarge_of_plan {fault : Fault} (hplan : plan entries cells = .error fault) :
    fault = .tooLarge entries cells := by
  unfold plan at hplan
  split at hplan
  · exact (Except.error.inj hplan).symm
  split at hplan
  · exact (Except.error.inj hplan).symm
  · cases hplan

/-- The regions of a new machine have the sizes that were asked for, the tape rounded up to whole
words, and registers can address all their bits. -/
theorem of_plan {regions : Regions} (hplan : plan entries cells = .ok regions) :
    regions.entries = entries ∧ regions.cellWords = (max cells 1 + 15) / 16 ∧
      8 * regions.size < 0x80000000 := by
  unfold plan at hplan
  split at hplan
  · cases hplan
  next rounded hrounded =>
  split at hplan
  · cases hplan
  next bits hbits =>
  cases hplan
  have hcells := (roundCells?_eq_some_iff.mp hrounded).2
  have hsize := (addressableBits?_eq_some_iff.mp hbits).1
  unfold imageSize at hsize
  refine ⟨rfl, ?_, ?_⟩
  · dsimp only
    omega
  · dsimp only [size, programWords, tapeWords]
    omega

/-- A new machine is not refused if registers can address all its bits. -/
theorem exists_plan
    (hsize : 8 * (216 + 20 * entries + 4 * ((max cells 1 + 15) / 16)) < 0x80000000) :
    ∃ regions, plan entries cells = .ok regions := by
  have hrounds : roundCells? (max cells 1) = some ((max cells 1 + 15) / 16 * 16) :=
    roundCells?_eq_some_iff.mpr ⟨by change _ < 0x10000000000000000; omega, rfl⟩
  have hreaches : addressableBits? entries ((max cells 1 + 15) / 16 * 16) = some _ :=
    addressableBits?_eq_some_iff.mpr ⟨by unfold imageSize; omega, rfl⟩
  cases hplan : plan entries cells with
  | ok regions => exact ⟨regions, rfl⟩
  | error fault =>
    unfold plan at hplan
    split at hplan
    · next hnone =>
      rw [hrounds] at hnone
      cases hnone
    next rounded hrounded =>
    obtain rfl := Option.some.inj (hrounds.symm.trans hrounded)
    split at hplan
    · next hnone =>
      rw [hreaches] at hnone
      cases hnone
    · cases hplan

end Plan

theorem size_eq_of_ofHeader {buffer : Buffer} {regions : Regions}
    (hregions : ofHeader buffer = .ok regions) : buffer.size = regions.size := by
  unfold ofHeader at hregions
  dsimp only at hregions
  split at hregions
  · cases hregions
  split at hregions
  · cases hregions
  split at hregions
  · cases hregions
  split at hregions
  · cases hregions
  split at hregions
  · next hsize =>
    cases hregions
    exact hsize.symm
  · cases hregions

end Regions

end TapeMachine
