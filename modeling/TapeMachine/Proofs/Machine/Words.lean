import TapeMachine.Buffer.Lemmas
import TapeMachine.Machine.Tape

/-!
# Machines as words

The buffer of a machine is a whole number of words, and two machines with the same regions and the
same words are the same (`ext_word`). A write to a word or a register changes that word or register
and leaves every other as it was (`word_setWord`, `register_setRegister`); a write to a slot changes
one word, and what that word becomes depends on nothing but what it was (`word_setSlot_congr`).
`setRegisters` writes a list of registers one after the other.
-/

set_option autoImplicit false

namespace TapeMachine

namespace Buffer

/-- Words determine the bytes in them. -/
theorem byte_eq_of_word_eq {buffer other : Buffer} {index : Nat}
    (hword : buffer.word (index / 4) = other.word (index / 4)) :
    buffer.byte index = other.byte index := by
  have hindex : index = 4 * (index / 4) + index % 4 := by omega
  have hk : index % 4 < 4 := Nat.mod_lt _ (by decide)
  apply UInt8.toNat.inj
  rw [hindex, toNat_byte_eq_word _ _ hk, toNat_byte_eq_word _ _ hk, hword]

/-- Buffers of one size with the same words are the same. -/
theorem ext_word {buffer other : Buffer} (hsize : buffer.size = other.size)
    (hword : ∀ index, buffer.word index = other.word index) : buffer = other :=
  ext_byte hsize fun _ ↦ byte_eq_of_word_eq (hword _)

/-- Bytes determine the word they make up. -/
theorem word_eq_of_byte_eq {buffer other : Buffer} {index : Nat}
    (hbyte : ∀ k < 4, buffer.byte (4 * index + k) = other.byte (4 * index + k)) :
    buffer.word index = other.word index := by
  have h0 := hbyte 0 (by decide)
  rw [Nat.add_zero] at h0
  rw [word, word, h0, hbyte 1 (by decide), hbyte 2 (by decide), hbyte 3 (by decide)]

/-- Words determine the slots in them. -/
theorem slot_eq_of_word_eq {buffer other : Buffer} {index : Nat}
    (hword : buffer.word (index / 16) = other.word (index / 16)) :
    buffer.slot index = other.slot index := by
  apply UInt8.toNat.inj
  rw [toNat_slot_eq_word, toNat_slot_eq_word, hword]

/-- Slots determine the byte they make up. -/
theorem byte_eq_of_slot_eq {buffer other : Buffer} {index : Nat}
    (hslot : ∀ k < 4, buffer.slot (4 * index + k) = other.slot (4 * index + k)) :
    buffer.byte index = other.byte index := by
  have hdigit : ∀ k < 4, (buffer.byte index).toNat / 4 ^ k % 4 =
      (other.byte index).toNat / 4 ^ k % 4 := by
    intro k hk
    have hsame := congrArg UInt8.toNat (hslot k hk)
    rwa [slot, slot, show (4 * index + k) / 4 = index by omega,
      show (4 * index + k) % 4 = k by omega, toNat_slotOf _ hk, toNat_slotOf _ hk] at hsame
  have h0 := hdigit 0 (by decide)
  have h1 := hdigit 1 (by decide)
  have h2 := hdigit 2 (by decide)
  have h3 := hdigit 3 (by decide)
  have hleft := (buffer.byte index).toNat_lt
  have hright := (other.byte index).toNat_lt
  rw [Nat.pow_zero] at h0
  rw [Nat.pow_one] at h1
  rw [show 4 ^ 2 = 16 from rfl] at h2
  rw [show 4 ^ 3 = 64 from rfl] at h3
  apply UInt8.toNat.inj
  omega

/-- Slots determine the word they make up. -/
theorem word_eq_of_slot_eq {buffer other : Buffer} {index : Nat}
    (hslot : ∀ slot, slot / 16 = index → buffer.slot slot = other.slot slot) :
    buffer.word index = other.word index := by
  refine word_eq_of_byte_eq fun k hk ↦ byte_eq_of_slot_eq fun place hplace ↦ hslot _ ?_
  omega

/-- A word after a write to a slot depends only on what that word was. -/
theorem word_setSlot_congr {buffer other : Buffer} (hsize : buffer.size = other.size)
    {index slot : Nat} (symbol : Symbol) (hword : buffer.word index = other.word index) :
    (buffer.setSlot slot symbol).word index = (other.setSlot slot symbol).word index := by
  apply word_eq_of_byte_eq
  intro k hk
  have hbyte : buffer.byte (4 * index + k) = other.byte (4 * index + k) := by
    apply byte_eq_of_word_eq
    rwa [show (4 * index + k) / 4 = index by omega]
  rw [setSlot, setSlot, byte_setByte, byte_setByte, hsize]
  split
  · next hsame => rw [← hsame.1, hbyte]
  · exact hbyte

end Buffer

namespace Regions

variable (regions : Regions)

theorem two_le_programWords : 2 ≤ regions.programWords := by
  unfold programWords
  omega

theorem tapeWord_eq : regions.tapeWord = regions.programWords + 50 := rfl

theorem headWord_eq : regions.headWord = regions.programWords + 51 := rfl

/-- Whether a word lies in the program or in the tape, and not among the registers. -/
def OutsideRegisters (index : Nat) : Prop :=
  index < regions.programWords ∨ regions.tapeWord ≤ index

theorem outsideRegisters_zero : regions.OutsideRegisters 0 :=
  Or.inl (Nat.lt_of_lt_of_le (by decide) regions.two_le_programWords)

theorem outsideRegisters_one : regions.OutsideRegisters 1 :=
  Or.inl (Nat.lt_of_lt_of_le (by decide) regions.two_le_programWords)

theorem outsideRegisters_headWord : regions.OutsideRegisters regions.headWord :=
  Or.inr (Nat.le_succ _)

theorem outsideRegisters_cellSlot (position : Nat) :
    regions.OutsideRegisters (regions.cellSlot position / 16) := by
  refine Or.inr ?_
  unfold cellSlot
  omega

theorem ne_registerWord {index : Nat} (hindex : regions.OutsideRegisters index)
    (register : Register) : index ≠ regions.registerWord register := by
  have hregister := register.isLt
  unfold OutsideRegisters at hindex
  rw [tapeWord_eq] at hindex
  unfold registerWord
  omega

/-- A word that lies neither in the program nor in the tape is that of a register. -/
theorem exists_registerWord {index : Nat} (hindex : ¬ regions.OutsideRegisters index) :
    ∃ register, index = regions.registerWord register := by
  rw [OutsideRegisters, not_or, tapeWord_eq] at hindex
  have hlt : index - regions.programWords < 50 := by omega
  exact ⟨⟨_, hlt⟩, (Nat.add_sub_cancel' (Nat.le_of_not_lt hindex.1)).symm⟩

theorem registerWord_inj {register other : Register}
    (hword : regions.registerWord register = regions.registerWord other) : register = other := by
  unfold registerWord at hword
  exact Fin.ext (by omega)

/-- The words of an entry lie in the program, whatever the size of the machine. -/
theorem entryWord_lt {index k : Nat} (hindex : index < regions.entries) (hk : k < 5) :
    (Offset.ofEntry index).toNat / 32 + k < regions.programWords := by
  rw [Offset.ofEntry, UInt32.toNat_ofNat', programWords]
  omega

end Regions

namespace Machine

-- Unfolded, a write is a tower of byte updates that unification should never look into.
attribute [local irreducible] Buffer.setWord Buffer.setSlot

variable (machine : Machine)

/-- The number of words of the buffer. -/
def wordCount : Nat := machine.regions.tapeWord + machine.regions.tapeWords

theorem size_eq_wordCount : machine.buffer.size = 4 * machine.wordCount := by
  rw [machine.size_eq, Regions.size, wordCount, Regions.tapeWord]

/-- Machines with the same regions and the same words are the same. -/
theorem ext_word {machine other : Machine} (hregions : machine.regions = other.regions)
    (hword : ∀ index, machine.buffer.word index = other.buffer.word index) :
    machine = other := by
  have hbuffer : machine.buffer = other.buffer := by
    refine Buffer.ext_word ?_ hword
    rw [machine.size_eq, other.size_eq, hregions]
  cases machine with
  | mk buffer regions size_eq =>
    cases other with
    | mk otherBuffer otherRegions otherSize_eq =>
      cases hregions
      cases hbuffer
      rfl

/-! ### Words and slots -/

@[simp]
theorem regions_setWord (index : Nat) (value : UInt32) :
    (machine.setWord index value).regions = machine.regions := rfl

@[simp]
theorem regions_setSlot (index : Nat) (symbol : Symbol) :
    (machine.setSlot index symbol).regions = machine.regions := rfl

theorem buffer_setWord (index : Nat) (value : UInt32) :
    (machine.setWord index value).buffer = machine.buffer.setWord index value := rfl

theorem buffer_setSlot (index : Nat) (symbol : Symbol) :
    (machine.setSlot index symbol).buffer = machine.buffer.setSlot index symbol := rfl

theorem word_setWord_self {index : Nat} (value : UInt32) (hindex : index < machine.wordCount) :
    (machine.setWord index value).buffer.word index = value := by
  rw [buffer_setWord, Buffer.word_setWord_self]
  rw [machine.size_eq_wordCount]
  omega

theorem word_setWord_of_ne {index other : Nat} (value : UInt32) (hne : other ≠ index) :
    (machine.setWord index value).buffer.word other = machine.buffer.word other := by
  rw [buffer_setWord, Buffer.word_setWord_of_ne _ value hne]

theorem word_setWord {index : Nat} (value : UInt32) (hindex : index < machine.wordCount)
    (other : Nat) :
    (machine.setWord index value).buffer.word other =
      if other = index then value else machine.buffer.word other := by
  split
  · next hsame => rw [hsame, machine.word_setWord_self value hindex]
  · next hne => exact machine.word_setWord_of_ne value hne

theorem slot_setWord_of_ne {index other : Nat} (value : UInt32) (hne : other / 16 ≠ index) :
    (machine.setWord index value).buffer.slot other = machine.buffer.slot other := by
  rw [buffer_setWord, Buffer.slot_setWord_of_ne _ value hne]

theorem word_setSlot_of_ne {index other : Nat} (symbol : Symbol) (hne : other ≠ index / 16) :
    (machine.setSlot index symbol).buffer.word other = machine.buffer.word other := by
  rw [buffer_setSlot, Buffer.word_setSlot_of_ne _ symbol hne]

theorem slot_setSlot {index : Nat} (symbol : Symbol) (hindex : index / 16 < machine.wordCount)
    (other : Nat) :
    (machine.setSlot index symbol).buffer.slot other =
      if other = index then symbol.code else machine.buffer.slot other := by
  rw [buffer_setSlot]
  split
  · next hsame =>
    subst hsame
    rw [Buffer.slot_setSlot_self]
    rw [machine.size_eq_wordCount]
    omega
  · next hne => exact Buffer.slot_setSlot_of_ne _ symbol hne

theorem lt_wordCount_of_lt_programWords {index : Nat}
    (hindex : index < machine.regions.programWords) : index < machine.wordCount := by
  rw [wordCount, Regions.tapeWord_eq]
  omega

theorem headWord_lt_wordCount : machine.regions.headWord < machine.wordCount := by
  have hcells := machine.regions.cellWords_pos
  rw [wordCount, Regions.tapeWord_eq, Regions.headWord_eq, Regions.tapeWords]
  omega

theorem cellSlot_lt_wordCount {position : Nat} (hposition : position < machine.cellCount) :
    machine.regions.cellSlot position / 16 < machine.wordCount := by
  unfold cellCount Regions.cells at hposition
  rw [wordCount, Regions.cellSlot, Regions.tapeWords]
  omega

/-! ### Registers -/

theorem registerWord_lt_wordCount (register : Register) :
    machine.regions.registerWord register < machine.wordCount := by
  have hregister := register.isLt
  rw [wordCount, Regions.registerWord, Regions.tapeWord_eq]
  omega

theorem word_registerWord (register : Register) :
    machine.buffer.word (machine.regions.registerWord register) =
      (machine.register register).toUInt32 :=
  (UInt32.toUInt32_toInt32 _).symm

@[simp]
theorem regions_setRegister (register : Register) (value : Int32) :
    (machine.setRegister register value).regions = machine.regions := rfl

theorem register_setRegister (register other : Register) (value : Int32) :
    (machine.setRegister register value).register other =
      if other = register then value else machine.register other := by
  unfold setRegister Machine.register
  rw [regions_setWord, word_setWord _ _ (machine.registerWord_lt_wordCount register)]
  by_cases hother : other = register
  · rw [if_pos hother, if_pos (congrArg _ hother), Int32.toInt32_toUInt32]
  · rw [if_neg hother, if_neg fun hword ↦ hother (machine.regions.registerWord_inj hword)]

theorem word_setRegister {index : Nat} (hindex : machine.regions.OutsideRegisters index)
    (register : Register) (value : Int32) :
    (machine.setRegister register value).buffer.word index = machine.buffer.word index :=
  machine.word_setWord_of_ne _ (machine.regions.ne_registerWord hindex register)

/-- Writes registers one after the other. -/
def setRegisters (machine : Machine) : List (Register × Int32) → Machine
  | [] => machine
  | (register, value) :: rest => setRegisters (machine.setRegister register value) rest

theorem setRegisters_nil : machine.setRegisters [] = machine := rfl

theorem setRegisters_cons (register : Register) (value : Int32) (rest : List (Register × Int32)) :
    machine.setRegisters ((register, value) :: rest) =
      (machine.setRegister register value).setRegisters rest := rfl

/-- A register holds what was last written to it. -/
theorem register_setRegisters (updates : List (Register × Int32)) (register : Register) :
    (machine.setRegisters updates).register register =
      (updates.reverse.lookup register).getD (machine.register register) := by
  induction updates generalizing machine with
  | nil => rw [setRegisters_nil, List.reverse_nil, List.lookup_nil, Option.getD_none]
  | cons update rest ih =>
    obtain ⟨target, value⟩ := update
    rw [setRegisters_cons, ih, register_setRegister, List.reverse_cons, List.lookup_append]
    cases rest.reverse.lookup register with
    | some last => rfl
    | none =>
      by_cases hregister : register = target
      · simp [hregister]
      · simp [List.lookup_cons, beq_false_of_ne hregister, hregister]

theorem register_setRegisters_of_notMem {updates : List (Register × Int32)} {register : Register}
    (hregister : register ∉ updates.map Prod.fst) :
    (machine.setRegisters updates).register register = machine.register register := by
  have hlookup : updates.reverse.lookup register = none := by
    rw [List.lookup_eq_none_iff]
    intro update hupdate
    simp only [bne_iff_ne, ne_eq]
    rintro rfl
    exact hregister (List.mem_map.mpr ⟨update, List.mem_reverse.mp hupdate, rfl⟩)
  rw [register_setRegisters, hlookup, Option.getD_none]

theorem register_setWord {index : Nat} (hindex : machine.regions.OutsideRegisters index)
    (value : UInt32) (register : Register) :
    (machine.setWord index value).register register = machine.register register := by
  unfold Machine.register
  rw [regions_setWord, machine.word_setWord_of_ne _ (machine.regions.ne_registerWord hindex _).symm]

end Machine

end TapeMachine
