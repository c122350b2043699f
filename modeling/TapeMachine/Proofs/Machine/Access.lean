import TapeMachine.Proofs.Machine.Agreement

/-!
# Access through offsets

In an addressable machine every bit offset fits a signed register, so that an offset that was put
into a register comes out as the number it was. `wordAt_eq` and `slotAt_eq` say that a word or slot
of the buffer is found at its bit offset, and the lemmas after them what an operation on registers
does once its operands name registers and its address a word or slot.
-/

set_option autoImplicit false

namespace TapeMachine

attribute [local irreducible] Buffer.setWord Buffer.setSlot

/-- A word below the sign bit is the same number as a signed word. -/
theorem toInt_toInt32 {value : UInt32} (hvalue : value.toNat < 0x80000000) :
    value.toInt32.toInt = value.toNat := by
  have hsigned := Int32.toInt_ofNat_of_lt hvalue
  rwa [← UInt32.toInt32_ofNat', UInt32.ofNat_toNat] at hsigned

theorem toInt32_eq_ofInt (value : UInt32) : value.toInt32 = Int32.ofInt value.toNat := by
  rw [Int32.ofInt_eq_ofNat, ← UInt32.toInt32_ofNat', UInt32.ofNat_toNat]

namespace Machine

variable (machine : Machine)

/-- Whether signed registers can address every bit of a machine. -/
def Addressable : Prop := machine.buffer.bits < 0x80000000

variable {machine}

theorem bits_eq (machine : Machine) : machine.buffer.bits = 32 * machine.wordCount := by
  rw [Buffer.bits, machine.size_eq_wordCount]
  omega

theorem Addressable.wordCount_lt (haddressable : machine.Addressable) :
    32 * machine.wordCount < 0x80000000 := by
  rwa [Addressable, bits_eq] at haddressable

theorem Agrees.addressable {other : Machine} (h : machine.Agrees other)
    (haddressable : machine.Addressable) : other.Addressable := by
  rw [Addressable, bits_eq] at *
  rwa [← h.wordCount]

/-- The word at a bit offset that is one. -/
theorem wordAt_eq {index : Nat} (hindex : index < machine.wordCount) {offset : Int}
    (hoffset : offset = 32 * index) : machine.buffer.wordAt offset = .ok index := by
  unfold Buffer.wordAt
  rw [machine.bits_eq, if_neg (by omega), if_neg (by omega), hoffset]
  congr 1
  omega

theorem entryAt_eq_ok_iff {offset : Offset} {index : Nat} :
    machine.entryAt offset = .ok index ↔
      offset.toNat = 64 + 160 * index ∧ index < machine.regions.entries := by
  unfold entryAt
  rw [← Offset.entry?_eq_some_iff]
  cases hoffset : offset.entry? with
  | none => simp
  | some found =>
    dsimp only
    split
    · next hfound =>
      simp only [Except.ok.injEq, Option.some.injEq, iff_self_and]
      rintro rfl
      exact hfound
    · next hfound =>
      simp only [reduceCtorEq, Option.some.injEq, false_iff, not_and]
      rintro rfl
      exact hfound

/-- The entries of an addressable machine are where their offsets say. -/
theorem Addressable.toNat_ofEntry (haddressable : machine.Addressable) {index : Nat}
    (hindex : index < machine.regions.entries) :
    (Offset.ofEntry index).toNat = 64 + 160 * index := by
  have hcount := haddressable.wordCount_lt
  rw [wordCount, Regions.tapeWord_eq, Regions.programWords] at hcount
  refine Offset.toNat_ofEntry ?_
  unfold Offset.lastEntry
  omega

theorem Addressable.entryAt_ofEntry (haddressable : machine.Addressable) {index : Nat}
    (hindex : index < machine.regions.entries) :
    machine.entryAt (Offset.ofEntry index) = .ok index :=
  entryAt_eq_ok_iff.mpr ⟨haddressable.toNat_ofEntry hindex, hindex⟩

theorem lt_entries_of_entry {index : Nat} {entry : Entry}
    (hentry : machine.entry index = .ok entry) : index < machine.regions.entries := by
  unfold Machine.entry at hentry
  split at hentry
  · assumption
  · cases hentry

theorem readWord_eq {index : Nat} (hindex : index < machine.wordCount) {offset : Int}
    (hoffset : offset = 32 * index) :
    machine.buffer.readWord offset = .ok (machine.buffer.word index) := by
  rw [Buffer.readWord, wordAt_eq hindex hoffset]
  rfl

/-- The slot at a bit offset that is one. -/
theorem slotAt_eq {index : Nat} (hindex : index / 16 < machine.wordCount) {offset : Int}
    (hoffset : offset = 2 * index) : machine.buffer.slotAt offset = .ok index := by
  unfold Buffer.slotAt
  rw [machine.bits_eq, if_neg (by omega), if_neg (by omega), hoffset]
  congr 1
  omega

theorem readSymbol_eq {index : Nat} (hindex : index / 16 < machine.wordCount) {offset : Int}
    (hoffset : offset = 2 * index) {symbol : Symbol}
    (hsymbol : machine.buffer.slot index = symbol.code) :
    machine.buffer.readSymbol offset = .ok symbol := by
  rw [Buffer.readSymbol, slotAt_eq hindex hoffset]
  simp only [bind, Except.bind, hsymbol, Symbol.ofCode?_code]
  rfl

/-- A slot that holds no symbol is reported with what it holds. -/
theorem readSymbol_void {index : Nat} (hindex : index / 16 < machine.wordCount) {offset : Int}
    (hoffset : offset = 2 * index) (hvoid : machine.buffer.slot index = 3) :
    machine.buffer.readSymbol offset = .error (.notASymbol offset 3) := by
  rw [Buffer.readSymbol, slotAt_eq hindex hoffset]
  simp only [bind, Except.bind, hvoid]
  rfl

theorem operandRegister_eq {operand : Int32} {register : Register}
    (hoperand : Register.ofOperand operand = .ok register) :
    machine.operandRegister operand = .ok (machine.register register) := by
  rw [operandRegister, hoperand]
  rfl

theorem compare_operand (machine : Machine) (left right : Register) :
    machine.compare left.operand right.operand =
      .ok (machine.register left - machine.register right) := by
  rw [compare, operandRegister_eq left.ofOperand_operand,
    operandRegister_eq right.ofOperand_operand]
  rfl

end Machine

namespace Action

variable {α β : Type} {machine : Machine}

/-- What an action answers. -/
def answer (action : Action α) (machine : Machine) : Except Fault α :=
  match action machine with
  | .ok answer _ => .ok answer
  | .error fault _ => .error fault

/-- The machine that an action leaves, also if it fails. -/
def leaves (action : Action α) (machine : Machine) : Machine :=
  match action machine with
  | .ok _ after => after
  | .error _ after => after

theorem answer_of_ok {action : Action α} {result : α} {after : Machine}
    (haction : action machine = .ok result after) : action.answer machine = .ok result := by
  rw [answer, haction]

theorem answer_of_error {action : Action α} {fault : Fault} {after : Machine}
    (haction : action machine = .error fault after) : action.answer machine = .error fault := by
  rw [answer, haction]

theorem leaves_of_ok {action : Action α} {result : α} {after : Machine}
    (haction : action machine = .ok result after) : action.leaves machine = after := by
  rw [leaves, haction]

theorem leaves_of_error {action : Action α} {fault : Fault} {after : Machine}
    (haction : action machine = .error fault after) : action.leaves machine = after := by
  rw [leaves, haction]

theorem leaves_of_after {action : Action Unit} {after : Machine}
    (hafter : machine.after action = .ok after) : action.leaves machine = after := by
  unfold Machine.after at hafter
  unfold leaves
  cases haction : action machine with
  | ok answer next =>
    rw [haction] at hafter
    exact Except.ok.inj hafter
  | error fault next =>
    rw [haction] at hafter
    cases hafter

theorem change_bind (update : Machine → Machine) (next : Unit → Action β) :
    (change update >>= next) machine = next () (update machine) := rfl

theorem query_bind_ok {ask : Machine → Except Fault α} {answer : α} (next : α → Action β)
    (hask : ask machine = .ok answer) : (query ask >>= next) machine = next answer machine := by
  simp only [bind, EStateM.bind, query, hask]

theorem query_bind_error {ask : Machine → Except Fault α} {fault : Fault} (next : α → Action β)
    (hask : ask machine = .error fault) :
    (query ask >>= next) machine = .error fault machine := by
  simp only [bind, EStateM.bind, query, hask]

theorem query_pure_bind (view : Machine → α) (next : α → Action β) :
    (query (fun machine ↦ .ok (view machine)) >>= next) machine = next (view machine) machine := rfl

theorem bind_ok {action : Action α} {answer : α} {after : Machine} (next : α → Action β)
    (haction : action machine = .ok answer after) :
    (action >>= next) machine = next answer after := by
  simp only [bind, EStateM.bind, haction]

theorem bind_error {action : Action α} {fault : Fault} {after : Machine} (next : α → Action β)
    (haction : action machine = .error fault after) :
    (action >>= next) machine = .error fault after := by
  simp only [bind, EStateM.bind, haction]

/-! ### Operations on registers -/

theorem load_eq {target : Int32} {register : Register}
    (htarget : Register.ofOperand target = .ok register) (value : Int32) :
    load value target machine = .ok () (machine.setRegister register value) := by
  rw [load, query_bind_ok _ htarget]
  rfl

theorem add_eq {left right target : Int32} {first second register : Register}
    (hleft : Register.ofOperand left = .ok first) (hright : Register.ofOperand right = .ok second)
    (htarget : Register.ofOperand target = .ok register) :
    add left right target machine =
      .ok () (machine.setRegister register (machine.register first + machine.register second)) := by
  rw [add, query_bind_ok _ (Machine.operandRegister_eq hleft),
    query_bind_ok _ (Machine.operandRegister_eq hright), load_eq htarget]

theorem multiply_eq {left right target : Int32} {first second register : Register}
    (hleft : Register.ofOperand left = .ok first) (hright : Register.ofOperand right = .ok second)
    (htarget : Register.ofOperand target = .ok register) :
    multiply left right target machine =
      .ok () (machine.setRegister register (machine.register first * machine.register second)) := by
  rw [multiply, query_bind_ok _ (Machine.operandRegister_eq hleft),
    query_bind_ok _ (Machine.operandRegister_eq hright), load_eq htarget]

theorem wordRead_eq {address target : Int32} {base register : Register} {index : Nat}
    (haddress : Register.ofOperand address = .ok base)
    (htarget : Register.ofOperand target = .ok register) (hindex : index < machine.wordCount)
    (hbase : (machine.register base).toInt = 32 * index) :
    wordRead address target machine =
      .ok () (machine.setRegister register (machine.buffer.word index).toInt32) := by
  rw [wordRead, query_bind_ok _ (Machine.operandRegister_eq haddress),
    query_bind_ok _ (Machine.readWord_eq hindex hbase), load_eq htarget]

theorem symbolRead_eq {address target : Int32} {base register : Register} {index : Nat}
    {symbol : Symbol} (haddress : Register.ofOperand address = .ok base)
    (htarget : Register.ofOperand target = .ok register) (hindex : index / 16 < machine.wordCount)
    (hbase : (machine.register base).toInt = 2 * index)
    (hsymbol : machine.buffer.slot index = symbol.code) :
    symbolRead address target machine =
      .ok () (machine.setRegister register (Int32.ofNat symbol.code.toNat)) := by
  rw [symbolRead, query_bind_ok _ (Machine.operandRegister_eq haddress),
    query_bind_ok _ (Machine.readSymbol_eq hindex hbase hsymbol), load_eq htarget]

theorem symbolRead_void {address target : Int32} {base : Register} {index : Nat}
    (haddress : Register.ofOperand address = .ok base) (hindex : index / 16 < machine.wordCount)
    (hbase : (machine.register base).toInt = 2 * index) (hvoid : machine.buffer.slot index = 3) :
    symbolRead address target machine = .error (.notASymbol (2 * index) 3) machine := by
  rw [symbolRead, query_bind_ok _ (Machine.operandRegister_eq haddress),
    query_bind_error _ (Machine.readSymbol_void hindex hbase hvoid), hbase]

theorem wordWrite_eq {source address : Int32} {value base : Register} {index : Nat}
    (hsource : Register.ofOperand source = .ok value)
    (haddress : Register.ofOperand address = .ok base) (hindex : index < machine.wordCount)
    (hbase : (machine.register base).toInt = 32 * index) :
    wordWrite source address machine =
      .ok () (machine.setWord index (machine.register value).toUInt32) := by
  rw [wordWrite, query_bind_ok _ (Machine.operandRegister_eq hsource),
    query_bind_ok _ (Machine.operandRegister_eq haddress),
    query_bind_ok _ (Machine.wordAt_eq hindex hbase)]
  rfl

theorem symbolWrite_eq {source address : Int32} {value base : Register} {index : Nat}
    {symbol : Symbol} (hsource : Register.ofOperand source = .ok value)
    (haddress : Register.ofOperand address = .ok base) (hindex : index / 16 < machine.wordCount)
    (hbase : (machine.register base).toInt = 2 * index)
    (hsymbol : Symbol.ofValue? (machine.register value).toInt = some symbol) :
    symbolWrite source address machine = .ok () (machine.setSlot index symbol) := by
  rw [symbolWrite, query_bind_ok _ (Machine.operandRegister_eq hsource),
    query_bind_ok _ (Machine.operandRegister_eq haddress),
    query_bind_ok _ (show _ = Except.ok symbol by simp only [hsymbol]),
    query_bind_ok _ (Machine.slotAt_eq hindex hbase)]
  rfl

end Action

end TapeMachine
