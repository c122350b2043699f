import TapeMachine.Proofs.Machine.Access

/-!
# Changes that keep the program

Machines have the same program if they have the same regions and the same program words except,
possibly, the instruction pointer. Moving the pointer, writing registers, cells or the head field
all keep the program, and with it every entry of an addressable machine.
-/

set_option autoImplicit false

namespace TapeMachine

attribute [local irreducible] Buffer.setWord Buffer.setSlot

namespace Machine

/-- Machines whose programs differ in the instruction pointer at most. -/
structure SameProgram (machine other : Machine) : Prop where
  regions : machine.regions = other.regions
  word : ∀ index < machine.regions.programWords, index ≠ 1 →
    machine.buffer.word index = other.buffer.word index

theorem Agrees.sameProgram {machine other : Machine} (h : machine.Agrees other) :
    machine.SameProgram other :=
  ⟨h.regions, fun index hindex _ ↦ h.word index (Or.inl hindex)⟩

theorem sameProgram_setWord (machine : Machine) {index : Nat} (value : UInt32)
    (hindex : index = 1 ∨ machine.regions.programWords ≤ index) :
    (machine.setWord index value).SameProgram machine := by
  refine ⟨rfl, fun position hposition hne ↦ machine.word_setWord_of_ne value ?_⟩
  rw [regions_setWord] at hposition
  omega

theorem sameProgram_setCell (machine : Machine) (position : Nat) (symbol : Symbol) :
    (machine.setCell position symbol).SameProgram machine := by
  refine ⟨rfl, fun index hindex _ ↦ machine.word_setSlot_of_ne symbol ?_⟩
  change index < machine.regions.programWords at hindex
  rw [Regions.cellSlot, Regions.tapeWord_eq]
  omega

namespace SameProgram

variable {machine other third : Machine}

theorem refl (machine : Machine) : machine.SameProgram machine :=
  ⟨rfl, fun _ _ _ ↦ rfl⟩

theorem symm (h : machine.SameProgram other) : other.SameProgram machine :=
  ⟨h.regions.symm, fun index hindex hne ↦ (h.word index (h.regions ▸ hindex) hne).symm⟩

theorem trans (hfirst : machine.SameProgram other) (hsecond : other.SameProgram third) :
    machine.SameProgram third := by
  refine ⟨hfirst.regions.trans hsecond.regions, fun index hindex hne ↦ ?_⟩
  exact (hfirst.word index hindex hne).trans (hsecond.word index (hfirst.regions ▸ hindex) hne)

theorem wordCount (h : machine.SameProgram other) : machine.wordCount = other.wordCount := by
  rw [Machine.wordCount, Machine.wordCount, h.regions]

theorem cellCount (h : machine.SameProgram other) : machine.cellCount = other.cellCount := by
  rw [Machine.cellCount, Machine.cellCount, h.regions]

theorem addressable (h : machine.SameProgram other) (haddressable : machine.Addressable) :
    other.Addressable := by
  rw [Addressable, bits_eq] at *
  rwa [← h.wordCount]

theorem entryWords (h : machine.SameProgram other) (haddressable : machine.Addressable)
    {index : Nat} (hindex : index < machine.regions.entries) :
    machine.entryWords index = other.entryWords index := by
  have hbase := haddressable.toNat_ofEntry hindex
  refine entryWords_congr fun k hk ↦ ?_
  exact h.word _ (machine.regions.entryWord_lt hindex hk) (by omega)

theorem entry (h : machine.SameProgram other) (haddressable : machine.Addressable) (index : Nat) :
    machine.entry index = other.entry index := by
  unfold Machine.entry
  by_cases hindex : index < machine.regions.entries
  · rw [if_pos hindex, if_pos (h.regions ▸ hindex), h.entryWords haddressable hindex]
  · rw [if_neg hindex, if_neg (h.regions ▸ hindex), h.regions]

theorem entries (h : machine.SameProgram other) (haddressable : machine.Addressable) :
    machine.entries = other.entries := by
  unfold Machine.entries
  rw [h.regions, funext (h.entry haddressable)]

theorem entryAt (h : machine.SameProgram other) (offset : Offset) :
    machine.entryAt offset = other.entryAt offset := by
  unfold Machine.entryAt
  rw [h.regions]

/-- The fields of a state are slots of the program. -/
theorem slot (h : machine.SameProgram other) {index : Nat}
    (hindex : index / 16 < machine.regions.programWords) (hne : index / 16 ≠ 1) :
    machine.buffer.slot index = other.buffer.slot index :=
  Buffer.slot_eq_of_word_eq (h.word _ hindex hne)

end SameProgram

end Machine

end TapeMachine
