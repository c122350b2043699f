import TapeMachine.Execution.Step
import TapeMachine.Proofs.Entry.Codec
import TapeMachine.Proofs.Machine.Access

/-!
# What a step does

A step of an addressable machine is its fetch, then one operation. `fetchedOpcode` and `fetched` are
the machine with all its fetch registers written and nothing else changed. `step_of_instruction`
says that the step of a machine on an instruction performs that instruction on the fetched machine
and, unless it halts, returns or fails, moves the instruction pointer on; `step_of_state` says that
the step of a machine on a state checks the head and the cell under it, and then halts or hands the
state to the microcode.
-/

set_option autoImplicit false

namespace TapeMachine

attribute [local irreducible] Buffer.setWord Buffer.setSlot

namespace Machine

variable (machine : Machine)

/-- The machine after the instruction pointer and an opcode word were fetched. -/
def fetchedOpcode (code : UInt32) : Machine :=
  machine.setRegisters
    [ (.sizeAddress, 0), (.pointerAddress, 32),
      (.programWords, (machine.buffer.word 0).toInt32), (.pointer, machine.pointer.toInt32),
      (.opcode, code.toInt32), (.haltSentinel, Offset.halt.toInt32) ]

/-- The machine after an instruction was fetched. -/
def fetched (instruction : Instruction) : Machine :=
  (machine.fetchedOpcode instruction.opcode.code).setRegisters
    [ (.firstAddress, (machine.pointer + 32).toInt32), (.first, instruction.first),
      (.secondAddress, (machine.pointer + 64).toInt32), (.second, instruction.second),
      (.thirdAddress, (machine.pointer + 96).toInt32), (.third, instruction.third),
      (.nextAddress, (machine.pointer + 128).toInt32), (.next, instruction.next.toInt32) ]

/-- The machine after the instruction pointer was moved on. -/
def advanced (next : Offset) : Machine :=
  (machine.setRegisters [(.next, next.toInt32), (.pointerAddress, 32)]).setWord 1 next

/-- The machine after the state at the instruction pointer was handed to the microcode. -/
def entered : Machine :=
  (machine.setRegisters [(.activeState, machine.pointer.toInt32),
    (.microcodeEntry, (Offset.ofEntry Offset.firstMicrocodeEntry).toInt32)]).setWord 1
    (Offset.ofEntry Offset.firstMicrocodeEntry)

/-- The registers that a fetch writes. -/
def fetchRegisters : List Register :=
  [ .sizeAddress, .pointerAddress, .programWords, .pointer, .opcode, .haltSentinel, .firstAddress,
    .first, .secondAddress, .second, .thirdAddress, .third, .nextAddress, .next ]

theorem one_lt_wordCount : 1 < machine.wordCount :=
  machine.lt_wordCount_of_lt_programWords machine.regions.two_le_programWords

theorem fetchedOpcode_agrees (code : UInt32) : (machine.fetchedOpcode code).Agrees machine :=
  (Agrees.refl machine).setRegisters_left _

/-- The registers that a fetch leaves the instruction pointer and the halt sentinel in differ by
zero exactly in the halt state. -/
theorem compare_fetchedOpcode (code : UInt32) :
    ∃ difference, (machine.fetchedOpcode code).compare Register.pointer.operand
        Register.haltSentinel.operand = .ok difference ∧
      (difference = 0 ↔ machine.pointer = Offset.halt) := by
  refine ⟨_, compare_operand _ _ _, ?_⟩
  have hpointer : (machine.fetchedOpcode code).register .pointer = machine.pointer.toInt32 :=
    register_setRegisters _ _ _
  have hsentinel : (machine.fetchedOpcode code).register .haltSentinel = Offset.halt.toInt32 :=
    register_setRegisters _ _ _
  rw [hpointer, hsentinel]
  constructor
  · intro hzero
    have hsame : machine.pointer.toInt32 = Offset.halt.toInt32 := by
      rw [← Int32.sub_add_cancel machine.pointer.toInt32 Offset.halt.toInt32, hzero,
        Int32.zero_add]
    rw [← machine.pointer.toUInt32_toInt32, hsame, UInt32.toUInt32_toInt32]
  · intro hhalt
    rw [hhalt, Int32.sub_self]

theorem fetched_agrees (instruction : Instruction) : (machine.fetched instruction).Agrees machine :=
  (machine.fetchedOpcode_agrees _).setRegisters_left _

theorem register_fetched {register : Register} (hregister : register ∉ fetchRegisters)
    (instruction : Instruction) :
    (machine.fetched instruction).register register = machine.register register := by
  have hsplit : fetchRegisters =
      [.sizeAddress, .pointerAddress, .programWords, .pointer, .opcode, .haltSentinel] ++
      [.firstAddress, .first, .secondAddress, .second, .thirdAddress, .third, .nextAddress,
        .next] := rfl
  rw [hsplit, List.mem_append, not_or] at hregister
  rw [fetched, register_setRegisters_of_notMem _ hregister.2, fetchedOpcode,
    register_setRegisters_of_notMem _ hregister.1]

theorem advanced_agrees (next : Offset) : (machine.advanced next).Agrees (machine.setWord 1 next) :=
  ((Agrees.refl machine).setRegisters_left _).setWord (by exact machine.one_lt_wordCount) next

theorem entered_agrees :
    machine.entered.Agrees (machine.setWord 1 (Offset.ofEntry Offset.firstMicrocodeEntry)) :=
  ((Agrees.refl machine).setRegisters_left _).setWord (by exact machine.one_lt_wordCount) _

/-- A state that is handed over is left in one register, and where the microcode begins in
another. -/
theorem register_entered_of_notMem {register : Register}
    (hregister : register ∉ [Register.activeState, Register.microcodeEntry]) :
    machine.entered.register register = machine.register register := by
  rw [entered, register_setWord, register_setRegisters_of_notMem _ hregister]
  exact Regions.outsideRegisters_one _

theorem currentEntry_eq_ok_iff {machine : Machine} {entry : Entry} :
    machine.currentEntry = .ok entry ↔
      ∃ index, machine.entryAt machine.pointer = .ok index ∧ machine.entry index = .ok entry := by
  unfold currentEntry
  cases machine.entryAt machine.pointer with
  | error fault => simp [bind, Except.bind]
  | ok index => simp [bind, Except.bind]

/-- Whether registers can address a word of the entry at the instruction pointer. -/
def Reaches (k : Nat) : Prop := machine.pointer.toNat + 32 * k < 0x80000000

theorem Reaches.mono {machine : Machine} {k more : Nat} (hreach : machine.Reaches more)
    (hk : k ≤ more) : machine.Reaches k := by
  unfold Reaches at hreach ⊢
  omega

/-- Registers can address every entry of an addressable machine. -/
theorem Addressable.reaches {machine : Machine} (haddressable : machine.Addressable) {index : Nat}
    (hentry : machine.entryAt machine.pointer = .ok index) {k : Nat} (hk : k < 5) :
    machine.Reaches k := by
  obtain ⟨hpointer, hindex⟩ := entryAt_eq_ok_iff.mp hentry
  have hbase := haddressable.toNat_ofEntry hindex
  have hcount := haddressable.wordCount_lt
  have hlt := machine.lt_wordCount_of_lt_programWords (machine.regions.entryWord_lt hindex hk)
  unfold Reaches
  omega

/-- An entry of the program is where its offset says. -/
theorem ofEntry_of_entryAt {machine : Machine} {offset : Offset} {index : Nat}
    (hentry : machine.entryAt offset = .ok index) : Offset.ofEntry index = offset := by
  obtain ⟨hoffset, -⟩ := entryAt_eq_ok_iff.mp hentry
  rw [Offset.ofEntry, ← hoffset, UInt32.ofNat_toNat]

/-- The address of a word that is reached is the number it should be. -/
theorem Reaches.toInt_address {machine : Machine} {k : Nat} (hreach : machine.Reaches k) :
    (machine.pointer + UInt32.ofNat (32 * k)).toInt32.toInt = machine.pointer.toNat + 32 * k := by
  unfold Reaches at hreach
  have hoffset : (machine.pointer + UInt32.ofNat (32 * k)).toNat =
      machine.pointer.toNat + 32 * k := by
    rw [UInt32.toNat_add, UInt32.toNat_ofNat']
    omega
  rw [toInt_toInt32 (by omega), hoffset]
  omega

/-- A word of the entry at the instruction pointer is found at its offset, also after registers were
written. -/
theorem readWord_pointer {reader machine : Machine} (hreader : reader.Agrees machine) {index : Nat}
    (hentry : machine.entryAt machine.pointer = .ok index) {k : Nat} (hk : k < 5)
    (hreach : machine.Reaches k) :
    reader.buffer.readWord (machine.pointer + UInt32.ofNat (32 * k)).toInt32.toInt =
      .ok (machine.buffer.word ((Offset.ofEntry index).toNat / 32 + k)) := by
  have hbase := ofEntry_of_entryAt hentry
  obtain ⟨hpointer, hindex⟩ := entryAt_eq_ok_iff.mp hentry
  have hword := machine.regions.entryWord_lt hindex hk
  have hlt := machine.lt_wordCount_of_lt_programWords hword
  rw [← hreader.word _ (Or.inl (hreader.regions ▸ hword))]
  refine readWord_eq (hreader.wordCount ▸ hlt) ?_
  rw [hreach.toInt_address, hbase]
  omega

end Machine

namespace Action

variable {machine : Machine}

/-! ### The fetch -/

/-- The machine after its instruction pointer was fetched. -/
private def fetchedPointer (machine : Machine) : Machine :=
  machine.setRegisters
    [ (.sizeAddress, 0), (.pointerAddress, 32),
      (.programWords, (machine.buffer.word 0).toInt32), (.pointer, machine.pointer.toInt32) ]

private theorem fetchedPointer_eq (machine : Machine) :
    let addressed := (machine.setRegister .sizeAddress Offset.wordCountField.toInt32).setRegister
      .pointerAddress Offset.pointerField.toInt32
    let counted := addressed.setRegister .programWords (addressed.buffer.word 0).toInt32
    counted.setRegister .pointer counted.pointer.toInt32 = fetchedPointer machine := by
  intro addressed counted
  have haddressed : addressed.Agrees machine :=
    ((Machine.Agrees.refl machine).setRegister_left _ _).setRegister_left _ _
  have hcounted : counted.Agrees machine := haddressed.setRegister_left _ _
  have hword : addressed.buffer.word 0 = machine.buffer.word 0 :=
    haddressed.word 0 (Regions.outsideRegisters_zero _)
  rw [hcounted.pointer]
  unfold counted
  rw [hword]
  rfl

private theorem fetchedPointer_agrees (machine : Machine) :
    (fetchedPointer machine).Agrees machine :=
  (Machine.Agrees.refl machine).setRegisters_left _

theorem fetch_eq {index : Nat} (hentry : machine.entryAt machine.pointer = .ok index)
    (hreach : machine.Reaches 0) {code : UInt32}
    (hcode : machine.buffer.word ((Offset.ofEntry index).toNat / 32) = code) :
    fetch machine =
      match Opcode.ofCode? code with
      | some opcode => .ok (machine.pointer, opcode) (machine.fetchedOpcode code)
      | none => .error (.unknownOpcode machine.pointer code) (machine.fetchedOpcode code) := by
  have hagrees := fetchedPointer_agrees machine
  have hread := Machine.readWord_pointer hagrees hentry (by decide : 0 < 5) hreach
  rw [Nat.mul_zero, Nat.add_zero, hcode, show UInt32.ofNat 0 = 0 from rfl, UInt32.add_zero]
    at hread
  unfold fetch
  rw [change_bind, change_bind, change_bind, change_bind, fetchedPointer_eq, query_pure_bind,
    hagrees.pointer, query_bind_ok _ ((hagrees.entryAt _).trans hentry), query_bind_ok _ hread,
    change_bind, change_bind]
  cases Opcode.ofCode? code with
  | some opcode => rfl
  | none => rfl

/-- What the fetch of operands relies on: the address of the last word that was fetched and the
width of a word are in registers. -/
private structure FetchedTo (machine reader : Machine) (k : Nat) (address : Register) : Prop where
  agrees : reader.Agrees machine
  address : reader.register address = (machine.pointer + UInt32.ofNat (32 * k)).toInt32
  width : reader.register .pointerAddress = 32

private theorem FetchedTo.next_address {reader : Machine} {k : Nat} {previous : Register}
    (hreader : FetchedTo machine reader k previous) :
    reader.register previous + reader.register .pointerAddress =
      (machine.pointer + UInt32.ofNat (32 * (k + 1))).toInt32 := by
  rw [hreader.address, hreader.width, Nat.mul_add, UInt32.ofNat_add, ← UInt32.add_assoc]
  rfl

private theorem fetchNext_eq {index : Nat} (hentry : machine.entryAt machine.pointer = .ok index)
    {reader : Machine} {k : Nat} {previous : Register}
    (hreader : FetchedTo machine reader k previous) (hk : k + 1 < 5)
    (hreach : machine.Reaches (k + 1))
    {address contents : Register} (hcontents : address ≠ contents)
    (haddress : Register.pointerAddress ≠ address)
    (hwidth : Register.pointerAddress ≠ contents) {word : UInt32}
    (hword : machine.buffer.word ((Offset.ofEntry index).toNat / 32 + (k + 1)) = word) :
    let after := (reader.setRegister address
      (machine.pointer + UInt32.ofNat (32 * (k + 1))).toInt32).setRegister contents word.toInt32
    fetchNext previous address contents reader = .ok word after ∧
      FetchedTo machine after (k + 1) address := by
  intro after
  have hagrees := hreader.agrees.setRegister_left address
    (machine.pointer + UInt32.ofNat (32 * (k + 1))).toInt32
  have hread := Machine.readWord_pointer hagrees hentry hk hreach
  refine ⟨?_, hagrees.setRegister_left _ _, ?_, ?_⟩
  · unfold fetchNext
    rw [change_bind, hreader.next_address,
      query_bind_ok _ (by rwa [Machine.register_setRegister, if_pos rfl]),
      change_bind, hword]
    rfl
  · rw [Machine.register_setRegister, if_neg hcontents, Machine.register_setRegister, if_pos rfl]
  · rw [Machine.register_setRegister, if_neg hwidth, Machine.register_setRegister, if_neg haddress,
      hreader.width]

private theorem fetchedTo_fetchedOpcode (machine : Machine) (code : UInt32) :
    FetchedTo machine (machine.fetchedOpcode code) 0 .pointer := by
  refine ⟨machine.fetchedOpcode_agrees code, ?_, ?_⟩
  · rw [Machine.fetchedOpcode, Machine.register_setRegisters, Nat.mul_zero,
      show UInt32.ofNat 0 = 0 from rfl, UInt32.add_zero]
    rfl
  · rw [Machine.fetchedOpcode, Machine.register_setRegisters]
    rfl

theorem fetchInstruction_eq {index : Nat} (hentry : machine.entryAt machine.pointer = .ok index)
    (hreach : machine.Reaches 4) {instruction : Instruction}
    (hwords : machine.entryWords index = Entry.encode (.instruction instruction)) :
    fetchInstruction instruction.opcode (machine.fetchedOpcode instruction.opcode.code) =
      .ok instruction (machine.fetched instruction) := by
  obtain ⟨-, hfirst, hsecond, hthird, hnext⟩ := EntryWords.mk.inj hwords
  obtain ⟨hfetch1, hreader1⟩ := fetchNext_eq hentry
    (fetchedTo_fetchedOpcode machine instruction.opcode.code) (by decide)
    (hreach.mono (by decide))
    (by decide : Register.firstAddress ≠ .first) (by decide) (by decide) hfirst
  obtain ⟨hfetch2, hreader2⟩ := fetchNext_eq hentry hreader1 (by decide)
    (hreach.mono (by decide))
    (by decide : Register.secondAddress ≠ .second) (by decide) (by decide) hsecond
  obtain ⟨hfetch3, hreader3⟩ := fetchNext_eq hentry hreader2 (by decide)
    (hreach.mono (by decide))
    (by decide : Register.thirdAddress ≠ .third) (by decide) (by decide) hthird
  obtain ⟨hfetch4, -⟩ := fetchNext_eq hentry hreader3 (by decide)
    (hreach.mono (by decide))
    (by decide : Register.nextAddress ≠ .next) (by decide) (by decide) hnext
  unfold fetchInstruction
  rw [bind_ok _ hfetch1, bind_ok _ hfetch2, bind_ok _ hfetch3, bind_ok _ hfetch4]
  rfl

/-! ### Steps -/

theorem entryWords_of_entry {index : Nat} {instruction : Instruction}
    (hinstruction : machine.entry index = .ok (.instruction instruction)) :
    machine.entryWords index = Entry.encode (.instruction instruction) ∧
      instruction.opcode ≠ .transition := by
  unfold Machine.entry at hinstruction
  split at hinstruction
  · exact Entry.encode_of_decode_instruction hinstruction
  · cases hinstruction

private theorem step_eq_stepInstruction {index : Nat}
    (hentry : machine.entryAt machine.pointer = .ok index) (hreach : machine.Reaches 0)
    {instruction : Instruction}
    (hinstruction : machine.entry index = .ok (.instruction instruction)) :
    step machine = stepInstruction machine.pointer instruction.opcode
      (machine.fetchedOpcode instruction.opcode.code) := by
  obtain ⟨hwords, hopcode⟩ := entryWords_of_entry hinstruction
  have hfetch := fetch_eq hentry hreach (congrArg EntryWords.opcode hwords)
  simp only [Entry.encode, Opcode.ofCode?_code] at hfetch
  unfold step
  rw [bind_ok _ hfetch]
  cases hcase : instruction.opcode with
  | transition => exact absurd hcase hopcode
  | _ => rfl

/-- The step of a machine on an instruction: the instruction is performed on the fetched machine. -/
theorem step_of_instruction {index : Nat} (hentry : machine.entryAt machine.pointer = .ok index)
    (hreach : machine.Reaches 4) {instruction : Instruction}
    (hinstruction : machine.entry index = .ok (.instruction instruction)) :
    step machine =
      match perform instruction (machine.fetched instruction) with
      | .error cause after => .error (.execution machine.pointer instruction cause) after
      | .ok () after =>
        match instruction.opcode with
        | .halt => .ok .halted after
        | .ret => .ok (.executed .ret) after
        | opcode => .ok (.executed opcode) (after.advanced instruction.next) := by
  have hoperands := fetchInstruction_eq hentry hreach (entryWords_of_entry hinstruction).1
  have hstep := step_eq_stepInstruction hentry (hreach.mono (by decide)) hinstruction
  rw [hstep, stepInstruction, bind_ok _ hoperands]
  cases hperform : perform instruction (machine.fetched instruction) with
  | error cause after =>
    exact bind_error _ (by simp only [mapFault, hperform])
  | ok answer after =>
    rw [bind_ok _ (show mapFault _ _ _ = .ok () after by simp only [mapFault, hperform])]
    cases instruction.opcode <;> rfl

/-- The step of a machine on a state: the head and the cell under it are checked, then the machine
halts or hands the state to the microcode. -/
theorem step_of_state {index : Nat} (hentry : machine.entryAt machine.pointer = .ok index)
    (hreach : machine.Reaches 0)
    (hcode : machine.buffer.word ((Offset.ofEntry index).toNat / 32) = Opcode.transition.code) :
    step machine =
      match machine.head with
      | .error fault => .error fault (machine.fetchedOpcode Opcode.transition.code)
      | .ok position =>
        match machine.cell position with
        | .error fault => .error fault (machine.fetchedOpcode Opcode.transition.code)
        | .ok symbol =>
          if machine.pointer = Offset.halt then
            .ok .halted (machine.fetchedOpcode Opcode.transition.code)
          else
            .ok (.transition
                { state := machine.pointer.state?, symbol := symbol, position := position })
              (machine.fetchedOpcode Opcode.transition.code).entered := by
  have hfetch := fetch_eq hentry hreach hcode
  simp only [Opcode.ofCode?_code] at hfetch
  have hagrees := machine.fetchedOpcode_agrees Opcode.transition.code
  unfold step
  rw [bind_ok _ hfetch]
  dsimp only
  unfold stepState
  rw [← hagrees.head]
  cases hhead : (machine.fetchedOpcode Opcode.transition.code).head with
  | error fault => exact query_bind_error _ hhead
  | ok position =>
    rw [query_bind_ok _ hhead]
    dsimp only
    rw [← hagrees.cell]
    cases hcell : (machine.fetchedOpcode Opcode.transition.code).cell position with
    | error fault => exact query_bind_error _ hcell
    | ok symbol =>
      obtain ⟨difference, hcompare, hzero⟩ :=
        machine.compare_fetchedOpcode Opcode.transition.code
      rw [query_bind_ok _ hcell, query_bind_ok _ hcompare]
      dsimp only
      by_cases hpointer : machine.pointer = Offset.halt
      · rw [if_pos hpointer, if_pos (hzero.mpr hpointer)]
        rfl
      · rw [if_neg hpointer, if_neg (mt hzero.mp hpointer)]
        rfl

/-! ### Fetches that fail -/

theorem step_of_not_entry {fault : Fault}
    (hentry : machine.entryAt machine.pointer = .error fault) :
    ∃ after, step machine = .error fault after := by
  have hagrees := fetchedPointer_agrees machine
  have hfetch : fetch machine = .error fault (fetchedPointer machine) := by
    unfold fetch
    rw [change_bind, change_bind, change_bind, change_bind, fetchedPointer_eq, query_pure_bind,
      hagrees.pointer, query_bind_error _ ((hagrees.entryAt _).trans hentry)]
  exact ⟨_, bind_error _ hfetch⟩

theorem step_of_unknown {index : Nat} (hentry : machine.entryAt machine.pointer = .ok index)
    (hreach : machine.Reaches 0) {code : UInt32}
    (hcode : machine.buffer.word ((Offset.ofEntry index).toNat / 32) = code)
    (hunknown : Opcode.ofCode? code = none) :
    step machine =
      .error (.unknownOpcode machine.pointer code) (machine.fetchedOpcode code) := by
  have hfetch := fetch_eq hentry hreach hcode
  rw [hunknown] at hfetch
  exact bind_error _ hfetch

/-- No word can be read at an offset that a register takes for a negative number. -/
private theorem readWord_of_negative (buffer : Buffer) {offset : UInt32}
    (hoffset : 0x80000000 ≤ offset.toNat) :
    buffer.readWord offset.toInt32.toInt =
      .error (.outOfBounds offset.toInt32.toInt buffer.bits) := by
  have hnegative : offset.toInt32.toInt < 0 := by
    have hlt := offset.toNat_lt
    rw [toInt32_eq_ofInt, Int32.toInt_ofInt, Int.bmod, show Int32.size = 4294967296 from rfl]
    omega
  unfold Buffer.readWord Buffer.wordAt
  rw [if_pos (Or.inl hnegative)]
  rfl

/-- An entry that registers cannot address cannot be fetched. -/
theorem step_of_not_reaches {index : Nat} (hentry : machine.entryAt machine.pointer = .ok index)
    (hbeyond : ¬ machine.Reaches 0) :
    ∃ offset bits after, step machine = .error (.outOfBounds offset bits) after := by
  have hagrees := fetchedPointer_agrees machine
  unfold Machine.Reaches at hbeyond
  have hread := readWord_of_negative (fetchedPointer machine).buffer
    (show 0x80000000 ≤ machine.pointer.toNat by omega)
  have hfetch : ∃ offset bits after, fetch machine = .error (.outOfBounds offset bits) after := by
    unfold fetch
    rw [change_bind, change_bind, change_bind, change_bind, fetchedPointer_eq, query_pure_bind,
      hagrees.pointer, query_bind_ok _ ((hagrees.entryAt _).trans hentry),
      query_bind_error _ hread]
    exact ⟨_, _, _, rfl⟩
  obtain ⟨offset, bits, after, hfault⟩ := hfetch
  exact ⟨offset, bits, after, bind_error _ hfault⟩

private theorem fetchNext_of_not_reaches {reader : Machine} {k : Nat} {previous : Register}
    (hreader : FetchedTo machine reader k previous)
    (hbeyond : 0x80000000 ≤ (machine.pointer + UInt32.ofNat (32 * (k + 1))).toNat)
    (address contents : Register) :
    ∃ fault after, fetchNext previous address contents reader = .error fault after := by
  unfold fetchNext
  rw [change_bind, hreader.next_address,
    query_bind_error _ (by rw [Machine.register_setRegister, if_pos rfl,
      readWord_of_negative _ hbeyond])]
  exact ⟨_, _, rfl⟩

/-- An instruction cannot be fetched if registers cannot address its operands. Entries are spaced so
that there is one place at most where this happens, and there the first operand is still found. -/
theorem step_of_operands_not_reached {index : Nat}
    (hentry : machine.entryAt machine.pointer = .ok index) (hreach : machine.Reaches 0)
    (hbeyond : ¬ machine.Reaches 4) {instruction : Instruction}
    (hinstruction : machine.entry index = .ok (.instruction instruction)) :
    ∃ fault after, step machine = .error fault after := by
  obtain ⟨hpointer, -⟩ := Machine.entryAt_eq_ok_iff.mp hentry
  obtain ⟨-, hfirst, -⟩ := EntryWords.mk.inj (entryWords_of_entry hinstruction).1
  unfold Machine.Reaches at hreach hbeyond
  obtain ⟨hfetch, hreader⟩ := fetchNext_eq hentry
    (fetchedTo_fetchedOpcode machine instruction.opcode.code) (by decide)
    (show machine.Reaches 1 by unfold Machine.Reaches; omega)
    (by decide : Register.firstAddress ≠ .first) (by decide) (by decide) hfirst
  have hsecond : 0x80000000 ≤ (machine.pointer + UInt32.ofNat (32 * (1 + 1))).toNat := by
    rw [UInt32.toNat_add, UInt32.toNat_ofNat']
    omega
  obtain ⟨fault, after, hfault⟩ :=
    fetchNext_of_not_reaches hreader hsecond .secondAddress .second
  have hoperands : fetchInstruction instruction.opcode
      (machine.fetchedOpcode instruction.opcode.code) = .error fault after := by
    unfold fetchInstruction
    rw [bind_ok _ hfetch, bind_error _ hfault]
  rw [step_eq_stepInstruction hentry hreach hinstruction]
  exact ⟨fault, after, bind_error _ hoperands⟩

end Action

end TapeMachine
