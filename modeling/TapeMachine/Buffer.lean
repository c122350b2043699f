import TapeMachine.Fault
import TapeMachine.Symbol

/-!
# Buffers

A buffer is an array of bytes that is read and written in two widths. Word `w` is the little-endian
number in bytes `4w` to `4w + 3`. Slot `k` is two bits wide: it lies in byte `k / 4`, slots of lower
number in lower bits, and holds a symbol. `wordAt` and `slotAt` find the word or slot at a bit
offset, and are where an offset can be refused; after that reading and writing cannot fail, and
nothing changes the size of a buffer.

The view of a buffer is `byte`, and `byte_setByte` says what a write does to it.
-/

set_option autoImplicit false

namespace TapeMachine

structure Buffer where
  bytes : ByteArray

namespace Buffer

instance : DecidableEq Buffer := fun first second ↦
  match ByteArray.decEq first.bytes second.bytes with
  | isTrue hbytes => isTrue (congrArg mk hbytes)
  | isFalse hbytes => isFalse fun hsame ↦ hbytes (congrArg bytes hsame)

/-- The number of bytes. -/
def size (buffer : Buffer) : Nat := buffer.bytes.size

/-- The number of bits. -/
def bits (buffer : Buffer) : Nat := 8 * buffer.size

/-- A buffer of zero bytes. -/
def zeros (size : Nat) : Buffer := ⟨⟨Array.replicate size 0⟩⟩

/-- A byte of the buffer; beyond its end every byte is zero. -/
def byte (buffer : Buffer) (index : Nat) : UInt8 :=
  if h : index < buffer.bytes.size then buffer.bytes[index] else 0

/-- Replaces a byte; beyond the end there is nothing to replace. -/
def setByte (buffer : Buffer) (index : Nat) (value : UInt8) : Buffer :=
  if h : index < buffer.bytes.size then ⟨buffer.bytes.set index value h⟩ else buffer

@[simp]
theorem size_zeros (size : Nat) : (zeros size).size = size := by
  simp [zeros, Buffer.size, ByteArray.size]

@[simp]
theorem byte_zeros (size index : Nat) : (zeros size).byte index = 0 := by
  simp [zeros, byte, ByteArray.getElem_eq_getElem_data]

private theorem byte_eq_getD (buffer : Buffer) (index : Nat) :
    buffer.byte index = buffer.bytes.data[index]?.getD 0 := by
  unfold byte
  split
  · next h => simp [ByteArray.getElem_eq_getElem_data, h]
  · next h => simp [h]

private theorem data_setByte (buffer : Buffer) (index : Nat) (value : UInt8) :
    (buffer.setByte index value).bytes.data = buffer.bytes.data.setIfInBounds index value := by
  unfold setByte
  split
  · next h => simp [Array.setIfInBounds, h]
  · next h => simp [Array.setIfInBounds, h]

@[simp]
theorem size_setByte (buffer : Buffer) (index : Nat) (value : UInt8) :
    (buffer.setByte index value).size = buffer.size := by
  simp only [size, ← ByteArray.size_data, data_setByte, Array.size_setIfInBounds]

theorem byte_setByte (buffer : Buffer) (index : Nat) (value : UInt8) (other : Nat) :
    (buffer.setByte index value).byte other =
      if other = index ∧ index < buffer.size then value else buffer.byte other := by
  simp only [byte_eq_getD, data_setByte, Array.getElem?_setIfInBounds, size]
  by_cases hother : other = index
  · subst hother
    by_cases hindex : other < buffer.bytes.size
    · simp [hindex]
    · simp [hindex]
  · simp [hother, Ne.symm hother]

theorem byte_eq_zero {buffer : Buffer} {index : Nat} (hindex : buffer.size ≤ index) :
    buffer.byte index = 0 := by
  simp [byte, show ¬ index < buffer.bytes.size from Nat.not_lt.mpr hindex]

/-- Buffers of one size with the same bytes are the same. -/
theorem ext_byte {buffer other : Buffer} (hsize : buffer.size = other.size)
    (hbyte : ∀ index, buffer.byte index = other.byte index) : buffer = other := by
  cases buffer with
  | mk left =>
    cases other with
    | mk right =>
      simp only [mk.injEq]
      refine ByteArray.ext_getElem hsize fun index hleft hright ↦ ?_
      have hindex := hbyte index
      simpa [byte, hleft, hright] using hindex

/-- An access to a buffer that may be refused. It says what the buffer is left as also when it
is. -/
abbrev Access := EStateM Fault Buffer

/-- Finds a place in the buffer. -/
def find {α : Type} (place : Buffer → Except Fault α) : Access α := fun buffer ↦
  match place buffer with
  | .ok found => .ok found buffer
  | .error fault => .error fault buffer

/-! ### Words -/

/-- The number in a word. -/
def word (buffer : Buffer) (index : Nat) : UInt32 :=
  UInt32.ofNat ((buffer.byte (4 * index)).toNat + 256 * (buffer.byte (4 * index + 1)).toNat
    + 65536 * (buffer.byte (4 * index + 2)).toNat + 16777216 * (buffer.byte (4 * index + 3)).toNat)

/-- Replaces a word. -/
def setWord (buffer : Buffer) (index : Nat) (value : UInt32) : Buffer :=
  let number := value.toNat
  (((buffer.setByte (4 * index) (UInt8.ofNat number)).setByte (4 * index + 1)
    (UInt8.ofNat (number / 256))).setByte (4 * index + 2)
    (UInt8.ofNat (number / 65536))).setByte (4 * index + 3)
    (UInt8.ofNat (number / 16777216))

/-- The word at a bit offset. The offset is first checked against the size of the buffer and then
for its alignment. -/
def wordAt (buffer : Buffer) (offset : Int) : Except Fault Nat :=
  if offset < 0 ∨ (buffer.bits : Int) < offset + 32 then .error (.outOfBounds offset buffer.bits)
  else if offset % 32 ≠ 0 then .error (.misalignedWord offset)
  else .ok (offset.toNat / 32)

/-- The number in the word at a bit offset. -/
def readWord (buffer : Buffer) (offset : Int) : Except Fault UInt32 :=
  (buffer.wordAt offset).map buffer.word

/-- Replaces the word at a bit offset. -/
def writeWord (offset : Int) (value : UInt32) : Access Unit := do
  let index ← find fun buffer ↦ buffer.wordAt offset
  modify fun buffer ↦ buffer.setWord index value

@[simp]
theorem size_setWord (buffer : Buffer) (index : Nat) (value : UInt32) :
    (buffer.setWord index value).size = buffer.size := by
  simp [setWord]

/-! ### Slots -/

/-- Keeps one slot of a byte. -/
def isolateMask (slot : Nat) : UInt8 :=
  (3 : UInt8) <<< UInt8.ofNat (2 * slot)

/-- Clears one slot of a byte. -/
def eraseMask (slot : Nat) : UInt8 :=
  ~~~ isolateMask slot

/-- A symbol in one slot of a byte. -/
def placeMask (symbol : Symbol) (slot : Nat) : UInt8 :=
  symbol.code <<< UInt8.ofNat (2 * slot)

/-- The two bits in one slot of a byte. -/
def slotOf (value : UInt8) (slot : Nat) : UInt8 :=
  (value &&& isolateMask slot) >>> UInt8.ofNat (2 * slot)

/-- A byte with a symbol put into one of its slots. -/
def putSlot (value : UInt8) (slot : Nat) (symbol : Symbol) : UInt8 :=
  (value &&& eraseMask slot) ||| placeMask symbol slot

/-- The two bits in a slot. -/
def slot (buffer : Buffer) (index : Nat) : UInt8 :=
  slotOf (buffer.byte (index / 4)) (index % 4)

/-- Puts a symbol into a slot. -/
def setSlot (buffer : Buffer) (index : Nat) (symbol : Symbol) : Buffer :=
  let value := buffer.byte (index / 4)
  buffer.setByte (index / 4) (putSlot value (index % 4) symbol)

/-- The slot at a bit offset. The offset is first checked against the size of the buffer and then
for its alignment. -/
def slotAt (buffer : Buffer) (offset : Int) : Except Fault Nat :=
  if offset < 0 ∨ (buffer.bits : Int) < offset + 2 then .error (.outOfBounds offset buffer.bits)
  else if offset % 2 ≠ 0 then .error (.misalignedSymbol offset)
  else .ok (offset.toNat / 2)

/-- The symbol at a bit offset. -/
def readSymbol (buffer : Buffer) (offset : Int) : Except Fault Symbol := do
  let index ← buffer.slotAt offset
  match Symbol.ofCode? (buffer.slot index) with
  | some symbol => return symbol
  | none => throw (.notASymbol offset (buffer.slot index).toNat)

/-- Replaces the symbol at a bit offset by the one a code stands for. The offset is checked before
the code. -/
def writeSymbol (offset : Int) (code : UInt8) : Access Unit := do
  let index ← find fun buffer ↦ buffer.slotAt offset
  match Symbol.ofCode? code with
  | some symbol => modify fun buffer ↦ buffer.setSlot index symbol
  | none => throw (.notASymbol offset code.toNat)

@[simp]
theorem size_setSlot (buffer : Buffer) (index : Nat) (symbol : Symbol) :
    (buffer.setSlot index symbol).size = buffer.size := by
  simp [setSlot]

end Buffer

end TapeMachine
