import Mathlib.Algebra.Group.Nat.Defs
import TapeMachine.Buffer

/-!
# Laws of buffers

A word or slot that was written holds what was written, and every other word, slot and byte is what
it was. Words and slots are two readings of the same bits: slot `k` is digit `k % 16` of word
`k / 16` in base four, counted from the least significant.
-/

set_option autoImplicit false

namespace TapeMachine.Buffer

variable (buffer : Buffer)

/-! ### Words -/

theorem toNat_word (index : Nat) :
    (buffer.word index).toNat = (buffer.byte (4 * index)).toNat
      + 256 * (buffer.byte (4 * index + 1)).toNat + 65536 * (buffer.byte (4 * index + 2)).toNat
      + 16777216 * (buffer.byte (4 * index + 3)).toNat := by
  have h0 := (buffer.byte (4 * index)).toNat_lt
  have h1 := (buffer.byte (4 * index + 1)).toNat_lt
  have h2 := (buffer.byte (4 * index + 2)).toNat_lt
  have h3 := (buffer.byte (4 * index + 3)).toNat_lt
  rw [word, UInt32.toNat_ofNat']
  omega

/-- Bytes outside a word are not touched by a write to it. -/
theorem byte_setWord_of_ne {index other : Nat} (value : UInt32) (hne : other / 4 ≠ index) :
    (buffer.setWord index value).byte other = buffer.byte other := by
  have h0 : other ≠ 4 * index := by omega
  have h1 : other ≠ 4 * index + 1 := by omega
  have h2 : other ≠ 4 * index + 2 := by omega
  have h3 : other ≠ 4 * index + 3 := by omega
  simp only [setWord, byte_setByte, h0, h1, h2, h3, false_and, if_false]

theorem word_setWord_of_ne {index other : Nat} (value : UInt32) (hne : other ≠ index) :
    (buffer.setWord index value).word other = buffer.word other := by
  unfold word
  rw [byte_setWord_of_ne buffer value (by omega), byte_setWord_of_ne buffer value (by omega),
    byte_setWord_of_ne buffer value (by omega), byte_setWord_of_ne buffer value (by omega)]

/-- A word of the buffer holds what was written to it. -/
theorem word_setWord_self {index : Nat} (value : UInt32) (hindex : 4 * index + 4 ≤ buffer.size) :
    (buffer.setWord index value).word index = value := by
  have hvalue := value.toNat_lt
  apply UInt32.toNat.inj
  rw [toNat_word]
  simp only [setWord, byte_setByte, size_setByte]
  rw [if_neg (by omega), if_neg (by omega), if_neg (by omega), if_pos ⟨trivial, by omega⟩,
    if_neg (by omega), if_neg (by omega), if_pos ⟨trivial, by omega⟩,
    if_neg (by omega), if_pos ⟨trivial, by omega⟩, if_pos ⟨trivial, by omega⟩]
  simp only [UInt8.toNat_ofNat']
  omega

/-! ### Slots -/

private theorem toNat_slotOf_ofNat : ∀ (value : Fin 256) (slot : Fin 4),
    (slotOf (UInt8.ofNat value.val) slot.val).toNat = value.val / 4 ^ slot.val % 4 := by
  decide +kernel

private theorem or_and_distrib_right (left right mask : UInt8) :
    (left ||| right) &&& mask = (left &&& mask) ||| (right &&& mask) := by
  apply UInt8.toNat.inj
  simp only [UInt8.toNat_and, UInt8.toNat_or, Nat.and_or_distrib_right]

private theorem eraseMask_and_isolateMask : ∀ slot < 4, ∀ other < 4,
    eraseMask slot &&& isolateMask other = if other = slot then 0 else isolateMask other := by
  decide

private theorem placeMask_and_isolateMask (symbol : Symbol) : ∀ slot < 4, ∀ other < 4,
    placeMask symbol slot &&& isolateMask other =
      if other = slot then placeMask symbol slot else 0 := by
  cases symbol <;> decide

private theorem placeMask_shiftRight (symbol : Symbol) : ∀ slot < 4,
    placeMask symbol slot >>> UInt8.ofNat (2 * slot) = symbol.code := by
  cases symbol <;> decide

/-- A slot of a byte is one of its digits in base four. -/
theorem toNat_slotOf (value : UInt8) {slot : Nat} (hslot : slot < 4) :
    (slotOf value slot).toNat = value.toNat / 4 ^ slot % 4 := by
  have hdigit := toNat_slotOf_ofNat ⟨value.toNat, value.toNat_lt⟩ ⟨slot, hslot⟩
  rwa [UInt8.ofNat_toNat] at hdigit

/-- Putting a symbol into a slot of a byte changes that slot and no other. -/
theorem slotOf_putSlot (value : UInt8) {slot other : Nat} (hslot : slot < 4) (hother : other < 4)
    (symbol : Symbol) :
    slotOf (putSlot value slot symbol) other =
      if other = slot then symbol.code else slotOf value other := by
  rw [slotOf, putSlot, or_and_distrib_right, UInt8.and_assoc,
    eraseMask_and_isolateMask slot hslot other hother,
    placeMask_and_isolateMask symbol slot hslot other hother]
  split
  · next hsame =>
    subst hsame
    rw [UInt8.and_zero, UInt8.zero_or, placeMask_shiftRight symbol other hslot]
  · rw [UInt8.or_zero, slotOf]

/-- A slot of the buffer holds the symbol that was put into it. -/
theorem slot_setSlot_self {index : Nat} (symbol : Symbol) (hindex : index / 4 < buffer.size) :
    (buffer.setSlot index symbol).slot index = symbol.code := by
  have hslot : index % 4 < 4 := Nat.mod_lt _ (by decide)
  simp only [slot, setSlot, byte_setByte, hindex, and_self, if_true, slotOf_putSlot _ hslot hslot]

theorem slot_setSlot_of_ne {index other : Nat} (symbol : Symbol) (hne : other ≠ index) :
    (buffer.setSlot index symbol).slot other = buffer.slot other := by
  have hslot : index % 4 < 4 := Nat.mod_lt _ (by decide)
  have hother : other % 4 < 4 := Nat.mod_lt _ (by decide)
  simp only [slot, setSlot, byte_setByte]
  split
  · next hsame =>
    rw [slotOf_putSlot _ hslot hother, if_neg (by omega), hsame.1]
  · rfl

/-- Bytes outside the one that holds a slot are not touched by a write to it. -/
theorem byte_setSlot_of_ne {index other : Nat} (symbol : Symbol) (hne : other ≠ index / 4) :
    (buffer.setSlot index symbol).byte other = buffer.byte other := by
  simp only [setSlot, byte_setByte, hne, false_and, if_false]

theorem word_setSlot_of_ne {index other : Nat} (symbol : Symbol) (hne : other ≠ index / 16) :
    (buffer.setSlot index symbol).word other = buffer.word other := by
  unfold word
  rw [byte_setSlot_of_ne buffer symbol (by omega), byte_setSlot_of_ne buffer symbol (by omega),
    byte_setSlot_of_ne buffer symbol (by omega), byte_setSlot_of_ne buffer symbol (by omega)]

theorem slot_setWord_of_ne {index other : Nat} (value : UInt32) (hne : other / 16 ≠ index) :
    (buffer.setWord index value).slot other = buffer.slot other := by
  unfold slot
  rw [byte_setWord_of_ne buffer value (by omega)]

/-! ### Slots of words -/

/-- A byte is a digit of the word that holds it, in base 256. -/
theorem toNat_byte_eq_word (index : Nat) {k : Nat} (hk : k < 4) :
    (buffer.byte (4 * index + k)).toNat = (buffer.word index).toNat / 256 ^ k % 256 := by
  have h0 := (buffer.byte (4 * index)).toNat_lt
  have h1 := (buffer.byte (4 * index + 1)).toNat_lt
  have h2 := (buffer.byte (4 * index + 2)).toNat_lt
  have h3 := (buffer.byte (4 * index + 3)).toNat_lt
  rw [toNat_word]
  match k, hk with
  | 0, _ => rw [Nat.add_zero, Nat.pow_zero]; omega
  | 1, _ => rw [Nat.pow_one]; omega
  | 2, _ => rw [show 256 ^ 2 = 65536 from rfl]; omega
  | 3, _ => rw [show 256 ^ 3 = 16777216 from rfl]; omega

private theorem mod_256_div_mod_4 (number : Nat) {k : Nat} (hk : k < 4) :
    number % 256 / 4 ^ k % 4 = number / 4 ^ k % 4 := by
  match k, hk with
  | 0, _ => rw [Nat.pow_zero]; omega
  | 1, _ => rw [Nat.pow_one]; omega
  | 2, _ => rw [show 4 ^ 2 = 16 from rfl]; omega
  | 3, _ => rw [show 4 ^ 3 = 64 from rfl]; omega

/-- A slot is a digit of the word that holds it, in base four. -/
theorem toNat_slot_eq_word (index : Nat) :
    (buffer.slot index).toNat = (buffer.word (index / 16)).toNat / 4 ^ (index % 16) % 4 := by
  have hpow : 4 ^ (index % 16) = 256 ^ (index / 4 % 4) * 4 ^ (index % 4) := by
    rw [show 256 = 4 ^ 4 from rfl, ← Nat.pow_mul, ← Nat.pow_add]
    congr 1
    omega
  have hindex : index / 4 = 4 * (index / 16) + index / 4 % 4 := by omega
  have hslot : index % 4 < 4 := Nat.mod_lt _ (by decide)
  have hbyte := buffer.toNat_byte_eq_word (index / 16) (Nat.mod_lt (index / 4) (by decide : 0 < 4))
  rw [← hindex] at hbyte
  rw [slot, toNat_slotOf _ hslot, hbyte, mod_256_div_mod_4 _ hslot, hpow, Nat.div_div_eq_div_mul]

end TapeMachine.Buffer
