import Mathlib.Data.Nat.Bitwise
import TapeMachine.Buffer.Lemmas

/-!
# Buffers as arrays of bits

Words and slots are two ways to get at the same bits. Bit `i` of a buffer is digit `i % 32` of word
`i / 32` (`bit_eq_word`) and digit `i % 2` of slot `i / 2` (`bit_eq_slot`), so that a write in one
width is seen in the other, and leaves every bit outside the word or slot as it was. Which offsets
are refused, and for what, is the same for a read and a write of one width: `WordFault` and
`SymbolFault` list the causes in the order in which they are looked for.
-/

set_option autoImplicit false

namespace TapeMachine

/-- The codes that are no symbol are those above two. -/
theorem Symbol.ofCode?_eq_none_iff {code : UInt8} : ofCode? code = none ↔ 2 < code.toNat := by
  have hcode : code.toNat = 0 ∨ code.toNat = 1 ∨ code.toNat = 2 ∨ 2 < code.toNat := by omega
  simp only [ofCode?, ← UInt8.toNat_inj]
  rcases hcode with hcode | hcode | hcode | hcode
  · simp [hcode]
  · simp [hcode]
  · simp [hcode]
  · simp [hcode, show code.toNat ≠ 0 by omega, show code.toNat ≠ 1 by omega,
      show code.toNat ≠ 2 by omega]

namespace Buffer

variable (buffer : Buffer)

/-! ### Bits -/

/-- A bit of the buffer; beyond its end every bit is zero. -/
def bit (index : Nat) : Bool := (buffer.byte (index / 8)).toNat.testBit (index % 8)

/-- The number in two bits of the buffer, the lower one first. -/
def pair (index : Nat) : Nat := (buffer.bit index).toNat + 2 * (buffer.bit (index + 1)).toNat

/-- The bits of a buffer are the binary digits of its words. -/
theorem bit_eq_word (index : Nat) :
    buffer.bit index = (buffer.word (index / 32)).toNat.testBit (index % 32) := by
  have hk : index / 8 % 4 < 4 := Nat.mod_lt _ (by decide)
  have hbyte := buffer.toNat_byte_eq_word (index / 32) hk
  rw [show 4 * (index / 32) + index / 8 % 4 = index / 8 by omega, show 256 = 2 ^ 8 from rfl,
    ← Nat.pow_mul] at hbyte
  have hdigit : index % 8 < 8 := Nat.mod_lt _ (by decide)
  rw [bit, hbyte, Nat.testBit_mod_two_pow, Nat.testBit_div_two_pow, decide_eq_true hdigit,
    Bool.true_and]
  congr 1
  omega

/-- The bits of a buffer are the binary digits of its slots. -/
theorem bit_eq_slot (index : Nat) :
    buffer.bit index = (buffer.slot (index / 2)).toNat.testBit (index % 2) := by
  have hk : index / 2 % 4 < 4 := Nat.mod_lt _ (by decide)
  have hdigit : index % 2 < 2 := Nat.mod_lt _ (by decide)
  rw [slot, toNat_slotOf _ hk, show 4 = 2 ^ 2 from rfl, ← Nat.pow_mul, Nat.testBit_mod_two_pow,
    Nat.testBit_div_two_pow, decide_eq_true hdigit, Bool.true_and, bit, Nat.div_div_eq_div_mul]
  congr 1
  omega

/-- A slot is the number in its two bits. -/
theorem pair_eq_slot (index : Nat) : buffer.pair (2 * index) = (buffer.slot index).toNat := by
  have hlt : (buffer.slot index).toNat < 4 := by
    rw [toNat_slot_eq_word]
    exact Nat.mod_lt _ (by decide)
  rw [pair, bit_eq_slot, bit_eq_slot, show 2 * index / 2 = index by omega,
    show (2 * index + 1) / 2 = index by omega, show 2 * index % 2 = 0 by omega,
    show (2 * index + 1) % 2 = 1 by omega, Nat.toNat_testBit, Nat.toNat_testBit]
  omega

/-- The two bits of a slot, cut out of the word that it lies in. -/
theorem pair_eq_word (index : Nat) {j : Nat} (hj : j < 16) :
    buffer.pair (32 * index + 2 * j) =
      ((buffer.word index >>> UInt32.ofNat (2 * j)) &&& 3).toNat := by
  have hshift : (UInt32.ofNat (2 * j)).toNat % 32 = 2 * j := by
    rw [UInt32.toNat_ofNat']
    omega
  rw [show 32 * index + 2 * j = 2 * (16 * index + j) by omega, pair_eq_slot, toNat_slot_eq_word,
    show (16 * index + j) / 16 = index by omega, show (16 * index + j) % 16 = j by omega,
    UInt32.toNat_and, UInt32.toNat_shiftRight, hshift, Nat.shiftRight_eq_div_pow, Nat.pow_mul]
  exact (Nat.and_two_pow_sub_one_eq_mod _ 2).symm

theorem bit_setWord_of_ne {index position : Nat} (value : UInt32) (hne : position / 32 ≠ index) :
    (buffer.setWord index value).bit position = buffer.bit position := by
  rw [bit_eq_word, bit_eq_word, word_setWord_of_ne buffer value hne]

theorem bit_setSlot_of_ne {index position : Nat} (symbol : Symbol) (hne : position / 2 ≠ index) :
    (buffer.setSlot index symbol).bit position = buffer.bit position := by
  rw [bit_eq_slot, bit_eq_slot, slot_setSlot_of_ne buffer symbol hne]

/-! ### Offsets -/

/-- Whether all bits of an access lie in the buffer. -/
def InRange (offset : Int) (width : Nat) : Prop :=
  ∀ position : Int, offset ≤ position → position < offset + width →
    0 ≤ position ∧ position < buffer.bits

/-- Whether an offset is one of a word or slot of the buffer, by its width. -/
def Grants (width : Nat) (offset : Int) : Prop :=
  buffer.InRange offset width ∧ (width : Int) ∣ offset

/-- Why an offset is not one of a word or slot of the buffer. The buffer is looked at before the
alignment. -/
inductive Refuses (width : Nat) (misalignment : Int → Fault) (offset : Int) : Fault → Prop where
  | outOfBounds (hrange : ¬ buffer.InRange offset width) :
    Refuses width misalignment offset (.outOfBounds offset buffer.bits)
  | misaligned (hrange : buffer.InRange offset width) (haligned : ¬ (width : Int) ∣ offset) :
    Refuses width misalignment offset (misalignment offset)

/-- Why a symbol cannot be accessed: its offset is refused, or else the value that is stored, or is
to be, is no symbol. -/
inductive RefusesSymbol (value : Nat) (offset : Int) : Fault → Prop where
  | offset {fault : Fault} (hrefuses : buffer.Refuses 2 .misalignedSymbol offset fault) :
    RefusesSymbol value offset fault
  | value (hgrants : buffer.Grants 2 offset) (hvalue : 2 < value) :
    RefusesSymbol value offset (.notASymbol offset value)

variable {buffer} {after : Buffer} {offset : Int} {index width : Nat} {fault : Fault}

section Find

variable {α β : Type} {place : Buffer → Except Fault α} (next : α → Access β)

theorem find_bind_ok {found : α} (hplace : place buffer = .ok found) :
    (find place >>= next) buffer = next found buffer := by
  simp only [bind, EStateM.bind, find, hplace]

theorem find_bind_error (hplace : place buffer = .error fault) :
    (find place >>= next) buffer = .error fault buffer := by
  simp only [bind, EStateM.bind, find, hplace]

theorem modify_eq (update : Buffer → Buffer) :
    (modify update : Access Unit) buffer = .ok () (update buffer) := rfl

theorem throw_eq {α : Type} (fault : Fault) :
    (throw fault : Access α) buffer = .error fault buffer := rfl

end Find

theorem Refuses.not_grants {misalignment : Int → Fault}
    (hrefuses : buffer.Refuses width misalignment offset fault) : ¬ buffer.Grants width offset := by
  rintro ⟨hin, hdvd⟩
  cases hrefuses with
  | outOfBounds hrange => exact hrange hin
  | misaligned hrange haligned => exact haligned hdvd

theorem inRange_iff (hwidth : 0 < width) :
    buffer.InRange offset width ↔ 0 ≤ offset ∧ offset + width ≤ buffer.bits := by
  constructor
  · intro hrange
    have hfirst := hrange offset (Int.le_refl _) (by omega)
    have hlast := hrange (offset + width - 1) (by omega) (by omega)
    omega
  · intro hbounds position hle hlt
    omega

/-- The check that words and slots have in common. -/
private def place (buffer : Buffer) (width : Nat) (misalignment : Int → Fault) (offset : Int) :
    Except Fault Nat :=
  if offset < 0 ∨ (buffer.bits : Int) < offset + width then
    .error (.outOfBounds offset buffer.bits)
  else if offset % width ≠ 0 then .error (misalignment offset)
  else .ok (offset.toNat / width)

private theorem place_eq_error_iff (hwidth : 0 < width) {misalignment : Int → Fault} :
    buffer.place width misalignment offset = .error fault ↔
      buffer.Refuses width misalignment offset fault := by
  have hrange_iff : buffer.InRange offset width ↔ _ := inRange_iff hwidth
  unfold place
  constructor
  · intro hplace
    split at hplace
    · cases hplace
      exact .outOfBounds (by rw [hrange_iff]; omega)
    split at hplace
    · next haligned =>
      cases hplace
      exact .misaligned (by rw [hrange_iff]; omega) fun hdvd ↦
        haligned (Int.emod_eq_zero_of_dvd hdvd)
    · cases hplace
  · rintro (hrange | ⟨hrange, haligned⟩)
    · rw [hrange_iff] at hrange
      exact if_pos (by omega)
    · rw [hrange_iff] at hrange
      rw [if_neg (by omega), if_pos fun hzero ↦ haligned (Int.dvd_of_emod_eq_zero hzero)]

private theorem place_eq_ok_iff (hwidth : 0 < width) {misalignment : Int → Fault} :
    buffer.place width misalignment offset = .ok index ↔
      buffer.Grants width offset ∧ offset = width * index := by
  have hrange_iff : buffer.InRange offset width ↔ _ := inRange_iff hwidth
  unfold place Grants
  rw [hrange_iff]
  constructor
  · intro hplace
    split at hplace
    · cases hplace
    split at hplace
    · cases hplace
    · next hbounds haligned =>
      have hdvd : (width : Int) ∣ offset :=
        Int.dvd_of_emod_eq_zero (Decidable.not_not.mp haligned)
      refine ⟨⟨by omega, hdvd⟩, ?_⟩
      rw [← Except.ok.inj hplace, Int.natCast_ediv, Int.toNat_of_nonneg (by omega),
        Int.mul_ediv_cancel' hdvd]
  · rintro ⟨⟨hbounds, hdvd⟩, rfl⟩
    rw [if_neg (by omega), if_neg (not_not.mpr (Int.emod_eq_zero_of_dvd hdvd)), ← Int.natCast_mul,
      Int.toNat_natCast, Nat.mul_div_cancel_left index hwidth]

theorem wordAt_eq_error_iff :
    buffer.wordAt offset = .error fault ↔ buffer.Refuses 32 .misalignedWord offset fault :=
  place_eq_error_iff (by decide : 0 < 32)

theorem wordAt_eq_ok_iff :
    buffer.wordAt offset = .ok index ↔ buffer.Grants 32 offset ∧ offset = 32 * index :=
  place_eq_ok_iff (by decide : 0 < 32)

theorem slotAt_eq_error_iff :
    buffer.slotAt offset = .error fault ↔ buffer.Refuses 2 .misalignedSymbol offset fault :=
  place_eq_error_iff (by decide : 0 < 2)

theorem slotAt_eq_ok_iff :
    buffer.slotAt offset = .ok index ↔ buffer.Grants 2 offset ∧ offset = 2 * index :=
  place_eq_ok_iff (by decide : 0 < 2)

/-! ### Words -/

theorem readWord_eq_error_iff :
    buffer.readWord offset = .error fault ↔ buffer.Refuses 32 .misalignedWord offset fault := by
  rw [← wordAt_eq_error_iff, readWord]
  cases buffer.wordAt offset <;> simp [Except.map]

/-- A word that cannot be written leaves the buffer as it is. -/
theorem writeWord_eq_error_iff {value : UInt32} :
    writeWord offset value buffer = .error fault after ↔
      buffer.Refuses 32 .misalignedWord offset fault ∧ after = buffer := by
  rw [← wordAt_eq_error_iff, writeWord]
  cases hword : buffer.wordAt offset with
  | error cause =>
    rw [find_bind_error _ hword]
    simp [eq_comm]
  | ok index =>
    rw [find_bind_ok _ hword]
    simp [modify_eq]

theorem readWord_eq_ok_iff {word : UInt32} :
    buffer.readWord offset = .ok word ↔
      ∃ index, buffer.wordAt offset = .ok index ∧ buffer.word index = word := by
  rw [readWord]
  cases buffer.wordAt offset <;> simp [Except.map]

theorem writeWord_eq_ok_iff {value : UInt32} :
    writeWord offset value buffer = .ok () after ↔
      ∃ index, buffer.wordAt offset = .ok index ∧ buffer.setWord index value = after := by
  rw [writeWord]
  cases hword : buffer.wordAt offset with
  | error cause =>
    rw [find_bind_error _ hword]
    simp
  | ok index =>
    rw [find_bind_ok _ hword]
    simp [modify_eq]

/-- Whether an offset is granted depends on nothing but the size of the buffer. -/
theorem Grants.of_size {other : Buffer} (hsize : other.size = buffer.size)
    (hgrants : buffer.Grants width offset) : other.Grants width offset := by
  unfold Grants InRange bits at *
  rwa [hsize]

/-- A word that was written is read back, and all bits outside of it are what they were. -/
theorem writeWord_keeps {value : UInt32} (hwrite : writeWord offset value buffer = .ok () after) :
    after.size = buffer.size ∧ after.readWord offset = .ok value ∧
      ∀ position : Nat, ¬ (offset ≤ position ∧ position < offset + 32) →
        after.bit position = buffer.bit position := by
  obtain ⟨index, hindex, rfl⟩ := writeWord_eq_ok_iff.mp hwrite
  obtain ⟨hgrants, hoffset⟩ := wordAt_eq_ok_iff.mp hindex
  have hsize := buffer.size_setWord index value
  have hbounds := (inRange_iff (by decide)).mp hgrants.1
  unfold bits at hbounds
  refine ⟨hsize, readWord_eq_ok_iff.mpr ⟨index, ?_, ?_⟩, fun position houtside ↦ ?_⟩
  · exact wordAt_eq_ok_iff.mpr ⟨hgrants.of_size hsize, hoffset⟩
  · exact buffer.word_setWord_self value (by omega)
  · exact buffer.bit_setWord_of_ne value (by omega)

/-! ### Symbols -/

theorem refusesSymbol_of_slotAt_error {value : Nat} {cause : Fault}
    (hslot : buffer.slotAt offset = .error cause) :
    buffer.RefusesSymbol value offset fault ↔ cause = fault := by
  have hcause := slotAt_eq_error_iff.mp hslot
  constructor
  · rintro (hrefuses | ⟨hgrants, -⟩)
    · exact Except.error.inj (hslot.symm.trans (slotAt_eq_error_iff.mpr hrefuses))
    · exact absurd hgrants hcause.not_grants
  · rintro rfl
    exact .offset hcause

theorem refusesSymbol_of_slotAt_ok {value : Nat} (hslot : buffer.slotAt offset = .ok index) :
    buffer.RefusesSymbol value offset fault ↔
      2 < value ∧ .notASymbol offset value = fault := by
  have hgrants := (slotAt_eq_ok_iff.mp hslot).1
  constructor
  · rintro (hrefuses | ⟨-, hvalue⟩)
    · exact absurd hgrants hrefuses.not_grants
    · exact ⟨hvalue, rfl⟩
  · rintro ⟨hvalue, rfl⟩
    exact .value hgrants hvalue

/-- The two bits at the offset of a slot are those of the slot. -/
theorem pair_of_slotAt (hslot : buffer.slotAt offset = .ok index) :
    buffer.pair offset.toNat = (buffer.slot index).toNat := by
  obtain ⟨-, rfl⟩ := slotAt_eq_ok_iff.mp hslot
  exact buffer.pair_eq_slot index

theorem readSymbol_eq_error_iff :
    buffer.readSymbol offset = .error fault ↔
      buffer.RefusesSymbol (buffer.pair offset.toNat) offset fault := by
  rw [readSymbol]
  cases hslot : buffer.slotAt offset with
  | error cause =>
    rw [refusesSymbol_of_slotAt_error hslot]
    simp only [bind, Except.bind, Except.error.injEq]
  | ok index =>
    rw [refusesSymbol_of_slotAt_ok hslot, pair_of_slotAt hslot, ← Symbol.ofCode?_eq_none_iff]
    simp only [bind, Except.bind]
    cases Symbol.ofCode? (buffer.slot index) with
    | none => simp [throw, throwThe, MonadExceptOf.throw]
    | some symbol => simp [pure, Except.pure]

/-- A symbol that cannot be written leaves the buffer as it is. -/
theorem writeSymbol_eq_error_iff {code : UInt8} :
    writeSymbol offset code buffer = .error fault after ↔
      buffer.RefusesSymbol code.toNat offset fault ∧ after = buffer := by
  rw [writeSymbol]
  cases hslot : buffer.slotAt offset with
  | error cause =>
    rw [refusesSymbol_of_slotAt_error hslot, find_bind_error _ hslot]
    simp [eq_comm]
  | ok index =>
    rw [refusesSymbol_of_slotAt_ok hslot, find_bind_ok _ hslot, ← Symbol.ofCode?_eq_none_iff]
    cases Symbol.ofCode? code with
    | none => simp [throw_eq, eq_comm]
    | some symbol => simp [modify_eq]

theorem readSymbol_eq_ok_iff {symbol : Symbol} :
    buffer.readSymbol offset = .ok symbol ↔
      ∃ index, buffer.slotAt offset = .ok index ∧ buffer.slot index = symbol.code := by
  simp only [← Symbol.ofCode?_eq_some_iff]
  rw [readSymbol]
  cases buffer.slotAt offset with
  | error cause => simp [bind, Except.bind]
  | ok index =>
    simp only [bind, Except.bind]
    cases hcode : Symbol.ofCode? (buffer.slot index) with
    | none => simp [hcode, throw, throwThe, MonadExceptOf.throw]
    | some found => simp [hcode, pure, Except.pure]

theorem writeSymbol_eq_ok_iff {code : UInt8} :
    writeSymbol offset code buffer = .ok () after ↔
      ∃ index symbol, buffer.slotAt offset = .ok index ∧ code = symbol.code ∧
        buffer.setSlot index symbol = after := by
  simp only [← Symbol.ofCode?_eq_some_iff]
  rw [writeSymbol]
  cases hslot : buffer.slotAt offset with
  | error cause =>
    rw [find_bind_error _ hslot]
    simp
  | ok index =>
    rw [find_bind_ok _ hslot]
    cases Symbol.ofCode? code with
    | none => simp [throw_eq]
    | some symbol => simp [modify_eq]

/-- A symbol that was written is read back, and all bits outside of it are what they were. -/
theorem writeSymbol_keeps {code : UInt8}
    (hwrite : writeSymbol offset code buffer = .ok () after) :
    after.size = buffer.size ∧
      (∃ symbol : Symbol, symbol.code = code ∧ after.readSymbol offset = .ok symbol) ∧
      ∀ position : Nat, ¬ (offset ≤ position ∧ position < offset + 2) →
        after.bit position = buffer.bit position := by
  obtain ⟨index, symbol, hindex, rfl, rfl⟩ := writeSymbol_eq_ok_iff.mp hwrite
  obtain ⟨hgrants, hoffset⟩ := slotAt_eq_ok_iff.mp hindex
  have hsize := buffer.size_setSlot index symbol
  have hbounds := (inRange_iff (by decide)).mp hgrants.1
  unfold bits at hbounds
  refine ⟨hsize, ⟨symbol, rfl, readSymbol_eq_ok_iff.mpr ⟨index, ?_, ?_⟩⟩,
    fun position houtside ↦ ?_⟩
  · exact slotAt_eq_ok_iff.mpr ⟨hgrants.of_size hsize, hoffset⟩
  · exact buffer.slot_setSlot_self symbol (by omega)
  · exact buffer.bit_setSlot_of_ne symbol (by omega)

/-! ### Both widths -/

/-- A slot of a word that can be read holds two bits of it, which are what reading the symbol there
goes by. -/
theorem slots_of_readWord {word : UInt32} (hread : buffer.readWord offset = .ok word) {j : Nat}
    (hj : j < 16) :
    buffer.pair (offset.toNat + 2 * j) = ((word >>> UInt32.ofNat (2 * j)) &&& 3).toNat ∧
      ∀ symbol, buffer.readSymbol (offset + 2 * j) = .ok symbol ↔
        symbol.code.toNat = buffer.pair (offset.toNat + 2 * j) := by
  obtain ⟨index, hindex, rfl⟩ := readWord_eq_ok_iff.mp hread
  obtain ⟨⟨hrange, -⟩, rfl⟩ := wordAt_eq_ok_iff.mp hindex
  have hbounds := (inRange_iff (by decide)).mp hrange
  have hslot : buffer.slotAt (32 * index + 2 * j) = .ok (16 * index + j) := by
    refine slotAt_eq_ok_iff.mpr ⟨⟨(inRange_iff (by decide)).mpr (by omega), ?_⟩, by omega⟩
    exact Int.dvd_of_emod_eq_zero (by omega)
  have hpair := pair_of_slotAt hslot
  rw [show (32 * (index : Int) + 2 * j).toNat = (32 * (index : Int)).toNat + 2 * j by omega]
    at hpair
  refine ⟨buffer.pair_eq_word index hj, fun symbol ↦ ?_⟩
  rw [readSymbol_eq_ok_iff, hslot, hpair, UInt8.toNat_inj]
  simp only [Except.ok.injEq, exists_eq_left', eq_comm (a := symbol.code)]

/-- Reads and writes fail for the same offsets and no others, words where they are not in the buffer
as a whole or not aligned, symbols for these reasons at their own width or where the value is none.
A write that fails leaves the buffer as it is, and none changes its size. What was written is read
back, and every bit outside of it is what it was. The two bits of each slot, which decide what
symbol is read there, are those that the word around it has in their place. -/
theorem accesses_exact (buffer : Buffer) (offset : Int) (value : UInt32) (code : UInt8) :
    (∀ fault, buffer.readWord offset = .error fault ↔
      buffer.Refuses 32 .misalignedWord offset fault) ∧
    (∀ fault after, writeWord offset value buffer = .error fault after ↔
      buffer.Refuses 32 .misalignedWord offset fault ∧ after = buffer) ∧
    (∀ fault, buffer.readSymbol offset = .error fault ↔
      buffer.RefusesSymbol (buffer.pair offset.toNat) offset fault) ∧
    (∀ fault after, writeSymbol offset code buffer = .error fault after ↔
      buffer.RefusesSymbol code.toNat offset fault ∧ after = buffer) ∧
    (∀ after, writeWord offset value buffer = .ok () after →
      after.size = buffer.size ∧ after.readWord offset = .ok value ∧
      ∀ position : Nat, ¬ (offset ≤ position ∧ position < offset + 32) →
        after.bit position = buffer.bit position) ∧
    (∀ after, writeSymbol offset code buffer = .ok () after →
      after.size = buffer.size ∧
      (∃ symbol : Symbol, symbol.code = code ∧ after.readSymbol offset = .ok symbol) ∧
      ∀ position : Nat, ¬ (offset ≤ position ∧ position < offset + 2) →
        after.bit position = buffer.bit position) ∧
    (∀ word, buffer.readWord offset = .ok word → ∀ j < 16,
      buffer.pair (offset.toNat + 2 * j) = ((word >>> UInt32.ofNat (2 * j)) &&& 3).toNat ∧
      ∀ symbol, buffer.readSymbol (offset + 2 * (j : Nat)) = .ok symbol ↔
        symbol.code.toNat = buffer.pair (offset.toNat + 2 * j)) :=
  ⟨fun _ ↦ readWord_eq_error_iff, fun _ _ ↦ writeWord_eq_error_iff,
    fun _ ↦ readSymbol_eq_error_iff, fun _ _ ↦ writeSymbol_eq_error_iff,
    fun _ ↦ writeWord_keeps, fun _ ↦ writeSymbol_keeps,
    fun _ hread _ hj ↦ slots_of_readWord hread hj⟩

-- The end of the buffer is looked at before the alignment, and the alignment before the code.
example : writeSymbol 33 3 (zeros 4) = .error (.outOfBounds 33 32) (zeros 4) ∧
    writeSymbol 29 3 (zeros 4) = .error (.misalignedSymbol 29) (zeros 4) := ⟨rfl, rfl⟩

end Buffer

end TapeMachine
