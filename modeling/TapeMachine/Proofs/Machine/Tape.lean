import TapeMachine.Proofs.Machine.ProgramFrame
import TapeMachine.Proofs.Offset

/-!
# Head and cells

What the tape of a machine shows, and what each kind of write does to it. `HeadAt` says that the
head field names a position, which may be off the tape; `head_of_headAt` says what `head` makes of
it. A cell changes when it is written and at no other time (`cell_setCell`, `cell_setWord`), and
moving the instruction pointer or the head changes nothing else.
-/

set_option autoImplicit false

namespace TapeMachine.Machine

attribute [local irreducible] Buffer.setWord Buffer.setSlot

variable {machine : Machine}

/-- Whether the head field of a machine names a position. -/
def HeadAt (machine : Machine) (position : Int) : Prop :=
  (machine.headField.toNat : Int) = 64 + 2 * position

/-- A field that names a position is accepted exactly if the position is on the tape. -/
theorem head_of_headAt {position : Int} (h : machine.HeadAt position) :
    machine.head =
      if 0 ≤ position ∧ position < machine.cellCount then .ok position.toNat
      else .error (.offTape position machine.cellCount) := by
  obtain ⟨haligned, hposition⟩ := HeadField.toNat_eq_iff.mp h
  unfold head
  rw [haligned, hposition, if_pos rfl]

theorem head_eq_ok_iff {position : Nat} :
    machine.head = .ok position ↔ machine.HeadAt position ∧ position < machine.cellCount := by
  constructor
  · intro hhead
    unfold head at hhead
    dsimp only at hhead
    split at hhead
    · next haligned =>
      split at hhead
      · next hrange =>
        cases hhead
        refine ⟨HeadField.toNat_eq_iff.mpr ⟨haligned, ?_⟩, by omega⟩
        exact (Int.toNat_of_nonneg hrange.1).symm
      · cases hhead
    · cases hhead
  · rintro ⟨hat, hposition⟩
    rw [head_of_headAt hat, if_pos (by omega), Int.toNat_natCast]

theorem cell_eq_ok_iff {position : Nat} {symbol : Symbol} :
    machine.cell position = .ok symbol ↔
      position < machine.cellCount ∧
        machine.buffer.slot (machine.regions.cellSlot position) = symbol.code := by
  rw [← Symbol.ofCode?_eq_some_iff]
  unfold cell checkPosition
  simp only [bind, Except.bind]
  by_cases hposition : position < machine.cellCount
  · rw [if_pos hposition]
    dsimp only
    cases Symbol.ofCode? (machine.buffer.slot (machine.regions.cellSlot position)) with
    | none => simp [throw, throwThe, MonadExceptOf.throw]
    | some found => simp [pure, Except.pure, hposition]
  · rw [if_neg hposition]
    simp [hposition]

theorem symbolUnderHead_of_head {position : Nat} (hhead : machine.head = .ok position) :
    machine.symbolUnderHead = machine.cell position := by
  rw [symbolUnderHead, hhead]
  rfl

theorem symbolUnderHead_of_head_error {fault : Fault} (hhead : machine.head = .error fault) :
    machine.symbolUnderHead = .error fault := by
  rw [symbolUnderHead, hhead]
  rfl

theorem symbolUnderHead_eq_ok_iff {symbol : Symbol} :
    machine.symbolUnderHead = .ok symbol ↔
      ∃ position, machine.head = .ok position ∧ machine.cell position = .ok symbol := by
  unfold symbolUnderHead
  cases machine.head with
  | error fault => simp [bind, Except.bind]
  | ok position => simp [bind, Except.bind]

/-- Why there may be no symbol under the head: the head field names no cell of the tape, or the cell
holds none. -/
theorem symbolUnderHead_eq_error_cases {fault : Fault}
    (hread : machine.symbolUnderHead = .error fault) :
    (∃ position length, fault = .offTape position length) ∨
    (∃ offset, fault = .misalignedSymbol offset) ∨
    ∃ position value, fault = .notASymbol (2 * machine.regions.cellSlot position : Nat) value := by
  unfold symbolUnderHead at hread
  cases hhead : machine.head with
  | error cause =>
    rw [hhead] at hread
    cases hread
    unfold head at hhead
    dsimp only at hhead
    split at hhead
    · split at hhead
      · cases hhead
      · cases hhead
        exact Or.inl ⟨_, _, rfl⟩
    · cases hhead
      exact Or.inr (Or.inl ⟨_, rfl⟩)
  | ok position =>
    rw [hhead] at hread
    change machine.cell position = .error fault at hread
    unfold cell checkPosition at hread
    rw [if_pos (head_eq_ok_iff.mp hhead).2] at hread
    simp only [bind, Except.bind] at hread
    split at hread
    · cases hread
    · cases hread
      exact Or.inr (Or.inr ⟨position, _, rfl⟩)

/-! ### Moving the instruction pointer -/

theorem pointer_setPointer (machine : Machine) (next : Offset) :
    (machine.setWord 1 next).pointer = next :=
  machine.word_setWord_self next
    (machine.lt_wordCount_of_lt_programWords machine.regions.two_le_programWords)

theorem headField_setWord_of_ne (machine : Machine) {index : Nat} (value : UInt32)
    (hne : index ≠ machine.regions.headWord) :
    (machine.setWord index value).headField = machine.headField :=
  machine.word_setWord_of_ne value hne.symm

theorem headField_setPointer (machine : Machine) (next : Offset) :
    (machine.setWord 1 next).headField = machine.headField := by
  refine machine.headField_setWord_of_ne next ?_
  rw [Regions.headWord_eq]
  omega

theorem head_setPointer (machine : Machine) (next : Offset) :
    (machine.setWord 1 next).head = machine.head := by
  unfold head
  rw [headField_setPointer]
  rfl

/-- A word before the cells can be written without changing them. -/
theorem cell_setWord (machine : Machine) {index : Nat} (value : UInt32)
    (hindex : index ≤ machine.regions.headWord) (position : Nat) :
    (machine.setWord index value).cell position = machine.cell position := by
  have hslot : machine.regions.cellSlot position / 16 ≠ index := by
    rw [Regions.headWord] at hindex
    rw [Regions.cellSlot]
    omega
  refine cell_congr (machine.regions_setWord index value) ?_
  rw [regions_setWord, machine.slot_setWord_of_ne value hslot]

theorem cell_setPointer (machine : Machine) (next : Offset) (position : Nat) :
    (machine.setWord 1 next).cell position = machine.cell position := by
  refine machine.cell_setWord next ?_ position
  rw [Regions.headWord_eq]
  omega

/-! ### Writing a cell -/

theorem headField_setCell (machine : Machine) (position : Nat) (symbol : Symbol) :
    (machine.setCell position symbol).headField = machine.headField := by
  refine machine.word_setSlot_of_ne symbol ?_
  change machine.regions.headWord ≠ _
  rw [Regions.cellSlot, Regions.headWord]
  omega

theorem register_setCell (machine : Machine) (position : Nat) (symbol : Symbol)
    (register : Register) :
    (machine.setCell position symbol).register register = machine.register register := by
  have hne := machine.regions.ne_registerWord
    (machine.regions.outsideRegisters_cellSlot position) register
  unfold Machine.register Machine.setCell
  rw [regions_setSlot, machine.word_setSlot_of_ne symbol hne.symm]

/-- A cell holds the symbol that was put into it, and every other cell what it held. -/
theorem cell_setCell (machine : Machine) {position : Nat} (hposition : position < machine.cellCount)
    (symbol : Symbol) (other : Nat) :
    (machine.setCell position symbol).cell other =
      if other = position then .ok symbol else machine.cell other := by
  have hslot := machine.cellSlot_lt_wordCount hposition
  by_cases hother : other = position
  · rw [if_pos hother, hother, cell_eq_ok_iff]
    refine ⟨hposition, ?_⟩
    unfold setCell
    rw [regions_setSlot, slot_setSlot _ _ hslot, if_pos rfl]
  · have hne : machine.regions.cellSlot other ≠ machine.regions.cellSlot position := by
      unfold Regions.cellSlot
      omega
    rw [if_neg hother]
    refine cell_congr (machine.regions_setSlot _ symbol) ?_
    rw [regions_setSlot, slot_setSlot _ _ hslot, if_neg hne]

/-! ### Moving the head -/

theorem headField_setHeadField (machine : Machine) (field : UInt32) :
    (machine.setWord machine.regions.headWord field).headField = field :=
  machine.word_setWord_self field machine.headWord_lt_wordCount

theorem Addressable.cellCount_lt (haddressable : machine.Addressable) :
    2 * machine.cellCount < 0x80000000 := by
  have hcount := haddressable.wordCount_lt
  rw [wordCount, Regions.tapeWord_eq, Regions.tapeWords] at hcount
  unfold cellCount Regions.cells
  omega

/-- Moving the head to a cell puts it there. -/
theorem headAt_putHead (haddressable : machine.Addressable) {position : Nat}
    (hposition : position < machine.cellCount) : (machine.putHead position).HeadAt position := by
  have hcount := haddressable.cellCount_lt
  unfold HeadAt putHead
  rw [headField_setHeadField, HeadField.toNat_ofPosition (by omega)]
  rfl

end TapeMachine.Machine
