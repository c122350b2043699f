import TapeMachine.Proofs.Machine.Words

/-!
# Machines that agree

Two machines agree if they have the same regions and the same words outside their registers. That is
what `Machine.agrees` computes (`agrees_eq_true_iff`). Everything a machine shows of its program and
its tape is the same for machines that agree: pointer, entries, head, cells, the outcome of
`validate` and the bytes of both. Writing registers leads to a machine that agrees with the one
before, and writing the same word or slot outside the registers of two machines keeps their
agreement.
-/

set_option autoImplicit false

namespace TapeMachine

-- Unfolded, a write is a tower of byte updates that unification should never look into.
attribute [local irreducible] Buffer.setWord Buffer.setSlot

namespace Machine

/-- Machines that differ in their registers at most. -/
structure Agrees (machine other : Machine) : Prop where
  regions : machine.regions = other.regions
  word : ∀ index, machine.regions.OutsideRegisters index →
    machine.buffer.word index = other.buffer.word index

/-- What a cell shows depends on its slot alone. -/
theorem cell_congr {machine other : Machine} (hregions : machine.regions = other.regions)
    {position : Nat}
    (hslot : machine.buffer.slot (machine.regions.cellSlot position) =
      other.buffer.slot (other.regions.cellSlot position)) :
    machine.cell position = other.cell position := by
  unfold cell checkPosition cellCount
  dsimp only
  rw [hslot, hregions]

/-- What the words of an entry are depends on five words alone. -/
theorem entryWords_congr {machine other : Machine} {index : Nat}
    (hword : ∀ k < 5, machine.buffer.word ((Offset.ofEntry index).toNat / 32 + k) =
      other.buffer.word ((Offset.ofEntry index).toNat / 32 + k)) :
    machine.entryWords index = other.entryWords index := by
  have hfirst := hword 0 (by decide)
  rw [Nat.add_zero] at hfirst
  unfold entryWords
  dsimp only
  rw [hfirst, hword 1 (by decide), hword 2 (by decide), hword 3 (by decide), hword 4 (by decide)]

namespace Agrees

variable {machine other third : Machine}

theorem refl (machine : Machine) : machine.Agrees machine :=
  ⟨rfl, fun _ _ ↦ rfl⟩

theorem symm (h : machine.Agrees other) : other.Agrees machine :=
  ⟨h.regions.symm, fun index hindex ↦ (h.word index (h.regions ▸ hindex)).symm⟩

theorem trans (hfirst : machine.Agrees other) (hsecond : other.Agrees third) :
    machine.Agrees third := by
  refine ⟨hfirst.regions.trans hsecond.regions, fun index hindex ↦ ?_⟩
  exact (hfirst.word index hindex).trans (hsecond.word index (hfirst.regions ▸ hindex))

theorem size (h : machine.Agrees other) : machine.buffer.size = other.buffer.size := by
  rw [machine.size_eq, other.size_eq, h.regions]

theorem wordCount (h : machine.Agrees other) : machine.wordCount = other.wordCount := by
  rw [Machine.wordCount, Machine.wordCount, h.regions]

/-! ### Writes -/

theorem setRegister_left (h : machine.Agrees other) (register : Register) (value : Int32) :
    (machine.setRegister register value).Agrees other :=
  ⟨h.regions, fun index hindex ↦
    (machine.word_setRegister hindex register value).trans (h.word index hindex)⟩

theorem setRegisters_left (h : machine.Agrees other) (updates : List (Register × Int32)) :
    (machine.setRegisters updates).Agrees other := by
  induction updates generalizing machine with
  | nil => exact h
  | cons update rest ih => exact ih (h.setRegister_left update.1 update.2)

theorem setWord (h : machine.Agrees other) {index : Nat} (hindex : index < machine.wordCount)
    (value : UInt32) : (machine.setWord index value).Agrees (other.setWord index value) := by
  refine ⟨h.regions, fun position hposition ↦ ?_⟩
  rw [word_setWord _ _ hindex, word_setWord _ _ (h.wordCount ▸ hindex), h.word _ hposition]

theorem setSlot (h : machine.Agrees other) (index : Nat) (symbol : Symbol) :
    (machine.setSlot index symbol).Agrees (other.setSlot index symbol) := by
  refine ⟨h.regions, fun position hposition ↦ ?_⟩
  rw [buffer_setSlot, buffer_setSlot]
  exact Buffer.word_setSlot_congr h.size symbol (h.word _ hposition)

/-! ### What agreeing machines show -/

theorem slot (h : machine.Agrees other) {index : Nat}
    (hindex : machine.regions.OutsideRegisters (index / 16)) :
    machine.buffer.slot index = other.buffer.slot index :=
  Buffer.slot_eq_of_word_eq (h.word _ hindex)

theorem pointer (h : machine.Agrees other) : machine.pointer = other.pointer :=
  h.word 1 machine.regions.outsideRegisters_one

theorem headField (h : machine.Agrees other) : machine.headField = other.headField := by
  unfold Machine.headField
  rw [← h.regions]
  exact h.word _ machine.regions.outsideRegisters_headWord

theorem cellCount (h : machine.Agrees other) : machine.cellCount = other.cellCount := by
  rw [Machine.cellCount, Machine.cellCount, h.regions]

theorem head (h : machine.Agrees other) : machine.head = other.head := by
  unfold Machine.head
  rw [h.headField, h.cellCount, h.regions]

theorem cell (h : machine.Agrees other) (position : Nat) :
    machine.cell position = other.cell position := by
  refine cell_congr h.regions ?_
  rw [h.slot (machine.regions.outsideRegisters_cellSlot position), h.regions]

theorem symbolUnderHead (h : machine.Agrees other) :
    machine.symbolUnderHead = other.symbolUnderHead := by
  unfold Machine.symbolUnderHead
  rw [h.head, funext h.cell]

theorem tape (h : machine.Agrees other) : machine.tape = other.tape := by
  unfold Machine.tape
  rw [h.cellCount, funext h.cell]

theorem entryWords (h : machine.Agrees other) {index : Nat}
    (hindex : index < machine.regions.entries) :
    machine.entryWords index = other.entryWords index := by
  refine entryWords_congr fun k hk ↦ ?_
  exact h.word _ (Or.inl (machine.regions.entryWord_lt hindex hk))

theorem entry (h : machine.Agrees other) (index : Nat) :
    machine.entry index = other.entry index := by
  unfold Machine.entry
  by_cases hindex : index < machine.regions.entries
  · rw [if_pos hindex, if_pos (h.regions ▸ hindex), h.entryWords hindex]
  · rw [if_neg hindex, if_neg (h.regions ▸ hindex), h.regions]

theorem entries (h : machine.Agrees other) : machine.entries = other.entries := by
  unfold Machine.entries
  rw [h.regions, funext h.entry]

theorem entryAt (h : machine.Agrees other) (offset : Offset) :
    machine.entryAt offset = other.entryAt offset := by
  unfold Machine.entryAt
  rw [h.regions]

theorem currentEntry (h : machine.Agrees other) : machine.currentEntry = other.currentEntry := by
  unfold Machine.currentEntry
  rw [h.pointer, h.entryAt, funext h.entry]

theorem validate (h : machine.Agrees other) : machine.validate = other.validate := by
  unfold Machine.validate
  rw [h.entries, h.pointer, h.entryAt, h.head]

end Agrees

/-! ### Comparing bytes -/

private theorem getElem_eq_of_eq {left right : ByteArray} (hsame : left = right) {index : Nat}
    (hleft : index < left.size) (hright : index < right.size) : left[index] = right[index] := by
  cases hsame
  rfl

private theorem extract_eq_iff (left right : Buffer) (hsize : left.size = right.size)
    (start stop : Nat) :
    left.bytes.extract start stop = right.bytes.extract start stop ↔
      ∀ index, start ≤ index → index < stop → left.byte index = right.byte index := by
  have hlength : left.bytes.size = right.bytes.size := hsize
  constructor
  · intro hextract index hstart hstop
    by_cases hindex : index < left.bytes.size
    · have hk : index - start < (left.bytes.extract start stop).size := by
        rw [ByteArray.size_extract]
        omega
      have hbyte := getElem_eq_of_eq hextract hk (hextract ▸ hk)
      rw [ByteArray.getElem_extract, ByteArray.getElem_extract] at hbyte
      simp only [Nat.add_sub_cancel' hstart] at hbyte
      rw [Buffer.byte, Buffer.byte, dif_pos hindex, dif_pos (hlength ▸ hindex), hbyte]
    · rw [Buffer.byte, Buffer.byte, dif_neg hindex, dif_neg (hlength ▸ hindex)]
  · intro hbyte
    refine ByteArray.ext_getElem ?_ fun k hleft hright ↦ ?_
    · rw [ByteArray.size_extract, ByteArray.size_extract, hlength]
    · rw [ByteArray.size_extract] at hleft
      have hk := hbyte (start + k) (by omega) (by omega)
      rw [Buffer.byte, Buffer.byte, dif_pos (by omega), dif_pos (by omega)] at hk
      rw [ByteArray.getElem_extract, ByteArray.getElem_extract, hk]

private theorem beq_eq_true_iff (left right : ByteArray) :
    left.beq right = true ↔ left = right := by
  rw [ByteArray.ext_iff]
  exact beq_iff_eq

/-- The bytes of the tape depend on its words alone. -/
theorem tapeBytes_congr {machine other : Machine} (hregions : machine.regions = other.regions)
    (hword : ∀ index, machine.regions.tapeWord ≤ index →
      machine.buffer.word index = other.buffer.word index) :
    machine.tapeBytes = other.tapeBytes := by
  have hsize : machine.buffer.size = other.buffer.size := by
    rw [machine.size_eq, other.size_eq, hregions]
  rw [tapeBytes, tapeBytes, ← hregions, extract_eq_iff _ _ hsize]
  exact fun index hindex _ ↦ Buffer.byte_eq_of_word_eq (hword _ (by omega))

namespace Agrees

variable {machine other : Machine}

theorem byte (h : machine.Agrees other) {index : Nat}
    (hindex : machine.regions.OutsideRegisters (index / 4)) :
    machine.buffer.byte index = other.buffer.byte index :=
  Buffer.byte_eq_of_word_eq (h.word _ hindex)

theorem programBytes (h : machine.Agrees other) : machine.programBytes = other.programBytes := by
  rw [Machine.programBytes, Machine.programBytes, ← h.regions, extract_eq_iff _ _ h.size]
  exact fun index _ hindex ↦ h.byte (Or.inl (by omega))

theorem tapeBytes (h : machine.Agrees other) : machine.tapeBytes = other.tapeBytes :=
  tapeBytes_congr h.regions fun _ hindex ↦ h.word _ (Or.inr hindex)

/-- Moving the instruction pointer and writing registers changes no other byte. -/
theorem byte_of_setPointer {after : Machine} {next : Offset}
    (hafter : after.Agrees (machine.setWord 1 next)) {index : Nat}
    (houtside : machine.regions.OutsideRegisters (index / 4)) (hindex : index / 4 ≠ 1) :
    after.buffer.byte index = machine.buffer.byte index := by
  rw [hafter.byte (hafter.regions ▸ houtside)]
  exact Buffer.byte_setWord_of_ne _ next hindex

end Agrees

/-- Two machines compare as equal exactly if they agree. -/
theorem agrees_eq_true_iff (machine other : Machine) :
    machine.agrees other = true ↔ machine.Agrees other := by
  unfold agrees
  simp only [Bool.and_eq_true, decide_eq_true_eq, beq_eq_true_iff]
  constructor
  · rintro ⟨⟨hregions, hprogram⟩, htape⟩
    have hsize : machine.buffer.size = other.buffer.size := by
      rw [machine.size_eq, other.size_eq, hregions]
    rw [programBytes, programBytes, ← hregions, extract_eq_iff _ _ hsize] at hprogram
    rw [tapeBytes, tapeBytes, ← hregions, extract_eq_iff _ _ hsize] at htape
    refine ⟨hregions, fun index hindex ↦ Buffer.word_eq_of_byte_eq fun k hk ↦ ?_⟩
    rcases hindex with hindex | hindex
    · exact hprogram _ (Nat.zero_le _) (by omega)
    · by_cases hend : 4 * index + k < machine.regions.size
      · exact htape _ (by omega) hend
      · rw [Buffer.byte_eq_zero (by rw [machine.size_eq]; omega),
          Buffer.byte_eq_zero (by rw [other.size_eq, ← hregions]; omega)]
  · intro h
    exact ⟨⟨h.regions, h.programBytes⟩, h.tapeBytes⟩

end Machine

end TapeMachine
