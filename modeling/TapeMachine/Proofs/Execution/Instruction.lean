import TapeMachine.Proofs.Execution.Step
import TapeMachine.Proofs.Machine.Build

/-!
# What an instruction means

A step decodes its instruction word by word through registers, and the instruction may then read,
clear or overwrite the same registers, the entry it came from or the header. `step_eq_operation`
says that none of this matters: a step is the named operation on the machine with the fetch
registers written, and then a move of the instruction pointer. An operation that fails leaves the
machine as it was (`atomic_operation`), so that a failed step leaves nothing behind but its fetch.
-/

set_option autoImplicit false

namespace TapeMachine

attribute [local irreducible] Buffer.setWord Buffer.setSlot

/-- The operation that an instruction names, on its operands. `Halt` names none. -/
def Instruction.operation? (instruction : Instruction) : Option (Action Unit) :=
  match instruction.opcode with
  | .clearRegisters => some Action.clearRegisters
  | .load => some (Action.load instruction.first instruction.second)
  | .wordRead => some (Action.wordRead instruction.first instruction.second)
  | .symbolRead => some (Action.symbolRead instruction.first instruction.second)
  | .multiply => some (Action.multiply instruction.first instruction.second instruction.third)
  | .add => some (Action.add instruction.first instruction.second instruction.third)
  | .wordWrite => some (Action.wordWrite instruction.first instruction.second)
  | .symbolWrite => some (Action.symbolWrite instruction.first instruction.second)
  | .ret => some (Action.wordWrite instruction.first instruction.second)
  | .halt => none
  | .transition => none

namespace Action

/-! ### Operations that fail -/

section Atomic

variable {α β : Type}

/-- Whether an action that fails leaves the machine as it was. -/
def Atomic (action : Action α) : Prop :=
  ∀ machine fault after, action machine = .error fault after → after = machine

theorem atomic_change (update : Machine → Machine) : (change update).Atomic := by
  intro machine fault after hfault
  cases hfault

/-- Questions may come before an atomic action. -/
theorem atomic_query_bind {ask : Machine → Except Fault α} {next : α → Action β}
    (hnext : ∀ answer, (next answer).Atomic) : (query ask >>= next).Atomic := by
  intro machine fault after hfault
  cases hask : ask machine with
  | error cause =>
    rw [query_bind_error _ hask] at hfault
    cases hfault
    rfl
  | ok answer =>
    rw [query_bind_ok _ hask] at hfault
    exact hnext answer machine fault after hfault

end Atomic

theorem atomic_load (value target : Int32) : (load value target).Atomic :=
  atomic_query_bind fun _ ↦ atomic_change _

theorem atomic_wordWrite (source address : Int32) : (wordWrite source address).Atomic :=
  atomic_query_bind fun _ ↦ atomic_query_bind fun _ ↦ atomic_query_bind fun _ ↦ atomic_change _

/-- An instruction finds out whether it can be performed before it changes anything. -/
theorem atomic_perform (instruction : Instruction) : (perform instruction).Atomic := by
  unfold perform
  cases instruction.opcode with
  | clearRegisters => exact atomic_change _
  | load => exact atomic_load _ _
  | wordRead => exact atomic_query_bind fun _ ↦ atomic_query_bind fun _ ↦ atomic_load _ _
  | symbolRead => exact atomic_query_bind fun _ ↦ atomic_query_bind fun _ ↦ atomic_load _ _
  | multiply => exact atomic_query_bind fun _ ↦ atomic_query_bind fun _ ↦ atomic_load _ _
  | add => exact atomic_query_bind fun _ ↦ atomic_query_bind fun _ ↦ atomic_load _ _
  | wordWrite => exact atomic_wordWrite _ _
  | symbolWrite =>
    exact atomic_query_bind fun _ ↦ atomic_query_bind fun _ ↦ atomic_query_bind fun _ ↦
      atomic_query_bind fun _ ↦ atomic_change _
  | halt => exact atomic_change id
  | ret => exact atomic_wordWrite _ _
  | transition => exact atomic_change id

/-- An instruction that names an operation is performed by it. -/
theorem perform_of_operation {instruction : Instruction} {operation : Action Unit}
    (hoperation : instruction.operation? = some operation) : perform instruction = operation := by
  unfold Instruction.operation? at hoperation
  unfold perform
  cases hopcode : instruction.opcode with
  | halt =>
    rw [hopcode] at hoperation
    cases hoperation
  | transition =>
    rw [hopcode] at hoperation
    cases hoperation
  | _ =>
    rw [hopcode] at hoperation
    exact Option.some.inj hoperation

end Action

/-! ### Steps -/

namespace Machine

/-- What the fetch of an instruction leaves of a machine: where the instruction was found and what
its words are stands in registers, addresses as the numbers they are, and all else is as it was. -/
structure HoldsFetched (machine : Machine) (instruction : Instruction) (fetched : Machine) :
    Prop where
  agrees : fetched.Agrees machine
  haltSentinel : (fetched.register 27).toInt = Offset.halt.toNat
  sizeAddress : fetched.register 30 = 0
  pointerAddress : fetched.register 31 = 32
  programWords : fetched.register 32 = (machine.buffer.word 0).toInt32
  pointer : (fetched.register 33).toInt = machine.pointer.toNat
  opcode : (fetched.register 35).toInt = instruction.opcode.code.toNat
  firstAddress : (fetched.register 36).toInt = machine.pointer.toNat + 32
  first : fetched.register 37 = instruction.first
  secondAddress : (fetched.register 38).toInt = machine.pointer.toNat + 64
  second : fetched.register 39 = instruction.second
  thirdAddress : (fetched.register 40).toInt = machine.pointer.toNat + 96
  third : fetched.register 41 = instruction.third
  nextAddress : (fetched.register 42).toInt = machine.pointer.toNat + 128
  next : fetched.register 43 = instruction.next.toInt32
  others : ∀ register, register ∉ ([27, 30, 31, 32, 33, 35, 36, 37, 38, 39, 40, 41, 42, 43] :
    List Register) → fetched.register register = machine.register register

variable {machine : Machine} {instruction : Instruction}

/-- The fetch of the operands leaves what was fetched before them. -/
private theorem register_fetched_of_notMem {register : Register}
    (hregister : register ∉ [Register.firstAddress, .first, .secondAddress, .second, .thirdAddress,
      .third, .nextAddress, .next]) :
    (machine.fetched instruction).register register =
      (machine.fetchedOpcode instruction.opcode.code).register register :=
  register_setRegisters_of_notMem _ hregister

/-- The fetch leaves what it should wherever registers can address the instruction. -/
theorem holdsFetched_fetched (hreach : machine.Reaches 4) (instruction : Instruction) :
    machine.HoldsFetched instruction (machine.fetched instruction) where
  agrees := machine.fetched_agrees instruction
  haltSentinel := by
    rw [register_fetched_of_notMem (by decide), fetchedOpcode, register_setRegisters]
    rfl
  sizeAddress := by
    rw [register_fetched_of_notMem (by decide), fetchedOpcode, register_setRegisters]
    rfl
  pointerAddress := by
    rw [register_fetched_of_notMem (by decide), fetchedOpcode, register_setRegisters]
    rfl
  programWords := by
    rw [register_fetched_of_notMem (by decide), fetchedOpcode, register_setRegisters]
    rfl
  pointer := by
    rw [register_fetched_of_notMem (by decide), fetchedOpcode, register_setRegisters]
    exact toInt_toInt32 (hreach.mono (Nat.zero_le 4))
  opcode := by
    rw [register_fetched_of_notMem (by decide), fetchedOpcode, register_setRegisters]
    cases instruction.opcode <;> rfl
  firstAddress := by
    rw [fetched, register_setRegisters]
    exact (hreach.mono (by decide : 1 ≤ 4)).toInt_address
  first := by
    rw [fetched, register_setRegisters]
    rfl
  secondAddress := by
    rw [fetched, register_setRegisters]
    exact (hreach.mono (by decide : 2 ≤ 4)).toInt_address
  second := by
    rw [fetched, register_setRegisters]
    rfl
  thirdAddress := by
    rw [fetched, register_setRegisters]
    exact (hreach.mono (by decide : 3 ≤ 4)).toInt_address
  third := by
    rw [fetched, register_setRegisters]
    rfl
  nextAddress := by
    rw [fetched, register_setRegisters]
    exact hreach.toInt_address
  next := by
    rw [fetched, register_setRegisters]
    rfl
  others := by
    intro register hregister
    refine machine.register_fetched (fun hmem ↦ hregister ?_) instruction
    revert register
    decide

/-- The step of an addressable machine on an instruction. The operation that the instruction names
is done on the machine as the fetch left it; if it fails, so does the step, and the machine stays as
fetched. `Halt` names no operation and ends the run. All others move the instruction pointer on,
except for `Return`, which has written it. -/
theorem step_eq_operation (haddressable : machine.Addressable)
    (hcurrent : machine.currentEntry = .ok (.instruction instruction)) :
    machine.HoldsFetched instruction (machine.fetched instruction) ∧
    (instruction.operation? = none ↔ instruction.opcode = .halt) ∧
    Action.step machine =
      match instruction.operation? with
      | none => .ok .halted (machine.fetched instruction)
      | some operation =>
        match operation (machine.fetched instruction) with
        | .error cause _ =>
          .error (.execution machine.pointer instruction cause) (machine.fetched instruction)
        | .ok () after =>
          .ok (.executed instruction.opcode)
            (if instruction.opcode = .ret then after else after.advanced instruction.next) := by
  obtain ⟨index, hentry, hinstruction⟩ := currentEntry_eq_ok_iff.mp hcurrent
  have hreach : machine.Reaches 4 := haddressable.reaches hentry (by decide)
  have hopcode := (Action.entryWords_of_entry hinstruction).2
  have hstep := Action.step_of_instruction hentry hreach hinstruction
  have hnone : instruction.operation? = none ↔ instruction.opcode = .halt := by
    unfold Instruction.operation?
    cases hcase : instruction.opcode with
    | transition => exact absurd hcase hopcode
    | _ => simp
  refine ⟨holdsFetched_fetched hreach instruction, hnone, ?_⟩
  cases hoperation : instruction.operation? with
  | none =>
    have hhalt := hnone.mp hoperation
    rw [hstep, Action.perform, hhalt]
    rfl
  | some operation =>
    have hperform := Action.perform_of_operation hoperation
    have hatomic := Action.atomic_perform instruction (machine.fetched instruction)
    have hhalt : instruction.opcode ≠ .halt := by
      intro hhalt
      rw [hnone.mpr hhalt] at hoperation
      cases hoperation
    rw [hperform] at hatomic hstep
    rw [hstep]
    dsimp only
    cases hresult : operation (machine.fetched instruction) with
    | error cause after =>
      dsimp only
      rw [hatomic cause after hresult]
    | ok answer after =>
      dsimp only
      cases hcase : instruction.opcode with
      | halt => exact absurd hcase hhalt
      | ret => rw [if_pos rfl]
      | _ => rw [if_neg (by decide)]

/-- An instruction that puts its own first operand, from the register it was fetched into, over its
own opcode. -/
def selfOverwriting : Instruction :=
  { opcode := .wordWrite, first := 37, second := 33, third := 0, next := Offset.ofEntry 1 }

theorem step_eq_operation_self_overwriting :
    ∃ machine, ofProgram [selfOverwriting, .halt] 16 = .ok machine ∧
      machine.currentEntry = .ok (.instruction selfOverwriting) ∧
      Action.step machine =
        .ok (.executed .wordWrite)
          (((machine.fetched selfOverwriting).setWord 2 37).advanced (Offset.ofEntry 1)) := by
  obtain ⟨machine, hmachine⟩ := exists_eq_ok_of_toBool
    (show (ofProgram [selfOverwriting, .halt] 16).toBool = true from rfl)
  obtain ⟨hbuilt, -⟩ := built_of_ofEntries hmachine
  have hindex : 0 < machine.regions.entries := hbuilt.count ▸ (by decide)
  have hpointer : machine.pointer = Offset.ofEntry 0 := hbuilt.pointer
  have hcurrent : machine.currentEntry = .ok (.instruction selfOverwriting) := by
    refine currentEntry_eq_ok_iff.mpr ⟨0, ?_, hbuilt.entry rfl (by decide)⟩
    rw [hpointer]
    exact hbuilt.addressable.entryAt_ofEntry hindex
  obtain ⟨hfetched, -, hstep⟩ := step_eq_operation hbuilt.addressable hcurrent
  have hwrite : Action.wordWrite 37 33 (machine.fetched selfOverwriting) =
      .ok () ((machine.fetched selfOverwriting).setWord 2 37) := by
    have hsource : Register.ofOperand 37 = .ok 37 := rfl
    have haddress : Register.ofOperand 33 = .ok 33 := rfl
    have hbase : ((machine.fetched selfOverwriting).register 33).toInt = 32 * (2 : Nat) := by
      rw [hfetched.pointer, hpointer]
      rfl
    have hword : 2 < (machine.fetched selfOverwriting).wordCount := by
      rw [hfetched.agrees.wordCount]
      refine machine.lt_wordCount_of_lt_programWords ?_
      rw [Regions.programWords]
      omega
    rw [Action.wordWrite_eq hsource haddress hword hbase, hfetched.first]
    rfl
  rw [show selfOverwriting.operation? = some (Action.wordWrite 37 33) from rfl] at hstep
  dsimp only at hstep
  rw [hwrite] at hstep
  dsimp only at hstep
  rw [if_neg (by decide)] at hstep
  exact ⟨machine, hmachine, hcurrent, hstep⟩

end Machine

end TapeMachine
