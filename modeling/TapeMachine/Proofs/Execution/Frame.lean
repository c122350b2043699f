import TapeMachine.Proofs.Execution.Instruction
import TapeMachine.Proofs.Machine.Tape

/-!
# What a step leaves alone

A step writes registers while it fetches, and only then finds out whether it can be done.
`step_cases` says of any machine, also of one whose registers cannot address all of its bits, that
the step fails or halts with nothing written but fetch registers, hands a state to the microcode
from there, or performs an instruction. What a fetch writes follows from what its parts write
(`Action.WritesOnly`), whether they fail or not.
-/

set_option autoImplicit false

namespace TapeMachine

attribute [local irreducible] Buffer.setWord Buffer.setSlot

namespace Machine

/-- Machines whose programs and tapes are the same byte for byte, and whose registers differ in some
at most. -/
structure SameBut (registers : List Register) (after machine : Machine) : Prop where
  regions : after.regions = machine.regions
  programBytes : after.programBytes = machine.programBytes
  tapeBytes : after.tapeBytes = machine.tapeBytes
  register : ∀ register, register ∉ registers → after.register register = machine.register register

namespace SameBut

variable {registers more : List Register} {machine middle after : Machine}

theorem refl (registers : List Register) (machine : Machine) : machine.SameBut registers machine :=
  ⟨rfl, rfl, rfl, fun _ _ ↦ rfl⟩

theorem trans (hsecond : after.SameBut registers middle)
    (hfirst : middle.SameBut registers machine) : after.SameBut registers machine :=
  ⟨hsecond.regions.trans hfirst.regions, hsecond.programBytes.trans hfirst.programBytes,
    hsecond.tapeBytes.trans hfirst.tapeBytes, fun register hregister ↦
      (hsecond.register register hregister).trans (hfirst.register register hregister)⟩

theorem mono (hsame : after.SameBut registers machine) (hmore : registers ⊆ more) :
    after.SameBut more machine :=
  ⟨hsame.regions, hsame.programBytes, hsame.tapeBytes, fun register hregister ↦
    hsame.register register fun hmem ↦ hregister (hmore hmem)⟩

/-- Machines with the same programs and tapes agree. -/
theorem agrees (hsame : after.SameBut registers machine) : after.Agrees machine := by
  rw [← agrees_eq_true_iff]
  unfold Machine.agrees
  rw [hsame.regions, hsame.programBytes, hsame.tapeBytes]
  simp [ByteArray.beq]

end SameBut

theorem sameBut_setRegister (machine : Machine) {registers : List Register} {register : Register}
    (hregister : register ∈ registers) (value : Int32) :
    (machine.setRegister register value).SameBut registers machine := by
  have hagrees := (Agrees.refl machine).setRegister_left register value
  refine ⟨hagrees.regions, hagrees.programBytes, hagrees.tapeBytes, fun other hother ↦ ?_⟩
  rw [register_setRegister, if_neg]
  rintro rfl
  exact hother hregister

end Machine

namespace Action

variable {α β : Type} {registers : List Register} {machine : Machine}

/-- Whether an action writes to nothing but some registers, also if it fails. -/
def WritesOnly (registers : List Register) (action : Action α) : Prop :=
  ∀ machine, (action.leaves machine).SameBut registers machine

theorem WritesOnly.of_ok {action : Action α} (hwrites : action.WritesOnly registers) {answer : α}
    {after : Machine} (haction : action machine = .ok answer after) :
    after.SameBut registers machine :=
  leaves_of_ok haction ▸ hwrites machine

theorem WritesOnly.of_error {action : Action α} (hwrites : action.WritesOnly registers)
    {fault : Fault} {after : Machine} (haction : action machine = .error fault after) :
    after.SameBut registers machine :=
  leaves_of_error haction ▸ hwrites machine

/-! ### The parts of a fetch -/

theorem writesOnly_query (registers : List Register) (ask : Machine → Except Fault α) :
    (query ask).WritesOnly registers := by
  intro machine
  have hleaves : (query ask).leaves machine = machine := by
    unfold leaves query
    cases ask machine with
    | error fault => rfl
    | ok answer => rfl
  rw [hleaves]
  exact .refl registers machine

theorem writesOnly_pure (registers : List Register) (answer : α) :
    (pure answer : Action α).WritesOnly registers :=
  Machine.SameBut.refl registers

theorem writesOnly_throw (registers : List Register) (fault : Fault) :
    (throw fault : Action α).WritesOnly registers :=
  Machine.SameBut.refl registers

theorem writesOnly_setRegister {register : Register} (hregister : register ∈ registers)
    (value : Machine → Int32) :
    (change fun machine ↦ machine.setRegister register (value machine)).WritesOnly registers :=
  fun machine ↦ machine.sameBut_setRegister hregister _

/-- What two actions write, one after the other, each of them writes. -/
theorem WritesOnly.bind {action : Action α} {next : α → Action β}
    (haction : action.WritesOnly registers) (hnext : ∀ answer, (next answer).WritesOnly registers) :
    (action >>= next).WritesOnly registers := by
  intro machine
  cases hresult : action machine with
  | error fault after =>
    rw [leaves_of_error (bind_error next hresult)]
    exact haction.of_error hresult
  | ok answer after =>
    have hleaves : (action >>= next).leaves machine = (next answer).leaves after := by
      rw [leaves, bind_ok next hresult, leaves]
    rw [hleaves]
    exact (hnext answer after).trans (haction.of_ok hresult)

/-- What comes out of two actions, one after the other, came out of the second. -/
theorem bind_eq_ok {action : Action α} {next : α → Action β} {result : β} {last : Machine}
    (hbind : (action >>= next) machine = .ok result last) :
    ∃ answer after, action machine = .ok answer after ∧ next answer after = .ok result last := by
  cases haction : action machine with
  | error fault after =>
    rw [bind_error next haction] at hbind
    cases hbind
  | ok answer after =>
    rw [bind_ok next haction] at hbind
    exact ⟨answer, after, rfl, hbind⟩

/-! ### The fetch -/

theorem writesOnly_fetch : fetch.WritesOnly Machine.fetchRegisters := by
  unfold fetch
  refine (writesOnly_setRegister (by decide) _).bind fun _ ↦ ?_
  refine (writesOnly_setRegister (by decide) _).bind fun _ ↦ ?_
  refine (writesOnly_setRegister (by decide) _).bind fun _ ↦ ?_
  refine (writesOnly_setRegister (by decide) _).bind fun _ ↦ ?_
  refine (writesOnly_query _ _).bind fun offset ↦ ?_
  refine (writesOnly_query _ _).bind fun _ ↦ ?_
  refine (writesOnly_query _ _).bind fun code ↦ ?_
  refine (writesOnly_setRegister (by decide) _).bind fun _ ↦ ?_
  refine (writesOnly_setRegister (by decide) _).bind fun _ ↦ ?_
  cases Opcode.ofCode? code with
  | some opcode => exact writesOnly_pure _ _
  | none => exact writesOnly_throw _ _

theorem writesOnly_fetchNext (previous : Register) {address contents : Register}
    (haddress : address ∈ registers) (hcontents : contents ∈ registers) :
    (fetchNext previous address contents).WritesOnly registers := by
  unfold fetchNext
  refine (writesOnly_setRegister haddress _).bind fun _ ↦ ?_
  refine (writesOnly_query _ _).bind fun word ↦ ?_
  exact (writesOnly_setRegister hcontents _).bind fun _ ↦ writesOnly_pure _ _

theorem writesOnly_fetchInstruction (opcode : Opcode) :
    (fetchInstruction opcode).WritesOnly Machine.fetchRegisters := by
  unfold fetchInstruction
  refine (writesOnly_fetchNext _ (by decide) (by decide)).bind fun _ ↦ ?_
  refine (writesOnly_fetchNext _ (by decide) (by decide)).bind fun _ ↦ ?_
  refine (writesOnly_fetchNext _ (by decide) (by decide)).bind fun _ ↦ ?_
  exact (writesOnly_fetchNext _ (by decide) (by decide)).bind fun _ ↦ writesOnly_pure _ _

theorem opcode_of_fetchInstruction {opcode : Opcode} {instruction : Instruction} {after : Machine}
    (hfetch : fetchInstruction opcode machine = .ok instruction after) :
    instruction.opcode = opcode := by
  unfold fetchInstruction at hfetch
  obtain ⟨_, _, -, hfetch⟩ := bind_eq_ok hfetch
  obtain ⟨_, _, -, hfetch⟩ := bind_eq_ok hfetch
  obtain ⟨_, _, -, hfetch⟩ := bind_eq_ok hfetch
  obtain ⟨_, _, -, hfetch⟩ := bind_eq_ok hfetch
  cases hfetch
  rfl

/-! ### Steps -/

/-- What a step can come to on a machine with its fetch registers written: it fails, halts, hands a
state to the microcode or performs an instruction. -/
inductive Concludes (fetched : Machine) : EStateM.Result Fault Machine Step → Prop where
  | failed (fault : Fault) : Concludes fetched (.error fault fetched)
  | halted : Concludes fetched (.ok .halted fetched)
  | handedOver (reading : Reading) : Concludes fetched (.ok (.transition reading) fetched.entered)
  | performed (opcode : Opcode) (after : Machine) : Concludes fetched (.ok (.executed opcode) after)

theorem concludes_stepState (offset : Offset) (machine : Machine) :
    Concludes machine (stepState offset machine) := by
  unfold stepState
  cases hhead : machine.head with
  | error fault =>
    rw [query_bind_error _ hhead]
    exact .failed fault
  | ok position =>
    rw [query_bind_ok _ hhead]
    cases hcell : machine.cell position with
    | error fault =>
      rw [query_bind_error _ hcell]
      exact .failed fault
    | ok symbol =>
      rw [query_bind_ok _ hcell, query_bind_ok _ (machine.compare_operand _ _)]
      split
      · exact .halted
      · exact .handedOver _

/-- An instruction that was fetched fails without a trace, or is performed. -/
theorem concludes_stepInstruction (offset : Offset) (opcode : Opcode) (machine : Machine) :
    ∃ fetched, fetched.SameBut Machine.fetchRegisters machine ∧
      Concludes fetched (stepInstruction offset opcode machine) := by
  unfold stepInstruction
  cases hfetch : fetchInstruction opcode machine with
  | error fault fetched =>
    refine ⟨fetched, (writesOnly_fetchInstruction opcode).of_error hfetch, ?_⟩
    rw [bind_error _ hfetch]
    exact .failed fault
  | ok instruction fetched =>
    refine ⟨fetched, (writesOnly_fetchInstruction opcode).of_ok hfetch, ?_⟩
    have hopcode := opcode_of_fetchInstruction hfetch
    rw [bind_ok _ hfetch]
    cases hperform : perform instruction fetched with
    | error cause after =>
      obtain rfl := atomic_perform instruction fetched cause after hperform
      rw [bind_error _ (by rw [mapFault, hperform])]
      exact .failed _
    | ok answer after =>
      rw [bind_ok _ (by rw [mapFault, hperform])]
      cases opcode with
      | halt =>
        rw [perform, hopcode] at hperform
        cases hperform
        exact .halted
      | _ => exact .performed _ _

/-- What a step of any machine can come to. -/
theorem step_cases (machine : Machine) :
    ∃ fetched, fetched.SameBut Machine.fetchRegisters machine ∧
      Concludes fetched (step machine) := by
  unfold step
  cases hfetch : fetch machine with
  | error fault fetched =>
    refine ⟨fetched, writesOnly_fetch.of_error hfetch, ?_⟩
    rw [bind_error _ hfetch]
    exact .failed fault
  | ok found fetched =>
    obtain ⟨offset, opcode⟩ := found
    have hsame := writesOnly_fetch.of_ok hfetch
    rw [bind_ok _ hfetch]
    by_cases hopcode : opcode = .transition
    · subst hopcode
      exact ⟨fetched, hsame, concludes_stepState offset fetched⟩
    · obtain ⟨last, hlast, hconcludes⟩ := concludes_stepInstruction offset opcode fetched
      refine ⟨last, hlast.trans hsame, ?_⟩
      cases opcode with
      | transition => exact absurd rfl hopcode
      | _ => exact hconcludes

end Action

namespace Machine

variable {machine fetched : Machine}

/-- What handing a state to the microcode leaves of a machine: the instruction pointer is where the
microcode begins, every other byte of the program and of the tape is as it was, and so are all
registers but some. -/
structure HandedOver (registers : List Register) (after machine : Machine) : Prop where
  regions : after.regions = machine.regions
  pointer : after.pointer = Offset.ofEntry 1
  byte : ∀ index, machine.regions.OutsideRegisters (index / 4) → index / 4 ≠ 1 →
    after.buffer.byte index = machine.buffer.byte index
  register : ∀ register, register ∉ registers → after.register register = machine.register register

/-- A state that is handed over right after the fetch. -/
theorem SameBut.handedOver {registers : List Register} (hsame : fetched.SameBut registers machine) :
    fetched.entered.HandedOver (.activeState :: .microcodeEntry :: registers) machine := by
  have hentered := fetched.entered_agrees
  refine ⟨hentered.regions.trans hsame.regions, ?_, fun index houtside hindex ↦ ?_,
    fun register hregister ↦ ?_⟩
  · rw [hentered.pointer, pointer_setPointer]
    rfl
  · have houtside' := hsame.regions ▸ houtside
    rw [hentered.byte_of_setPointer houtside' hindex, hsame.agrees.byte houtside']
  · rw [List.mem_cons, List.mem_cons, not_or, not_or] at hregister
    obtain ⟨hactive, hentry, hothers⟩ := hregister
    rw [fetched.register_entered_of_notMem, hsame.register register hothers]
    simp [hactive, hentry]

/-- A step that fails or finds the machine halted changes no byte of the program and none of the
tape, and writes no registers but those of its fetch. A step that hands a state to the microcode
moves the instruction pointer there, changes no other byte of the program or of the tape, and writes
two registers more. -/
theorem step_spares (machine : Machine) :
    match Action.step machine with
    | .error _ after =>
      after.SameBut [27, 30, 31, 32, 33, 35, 36, 37, 38, 39, 40, 41, 42, 43] machine
    | .ok .halted after =>
      after.SameBut [27, 30, 31, 32, 33, 35, 36, 37, 38, 39, 40, 41, 42, 43] machine
    | .ok (.transition _) after =>
      after.HandedOver [29, 49, 27, 30, 31, 32, 33, 35, 36, 37, 38, 39, 40, 41, 42, 43] machine
    | .ok (.executed _) _ => True := by
  obtain ⟨fetched, hsame, hconcludes⟩ := Action.step_cases machine
  have hfetched : fetched.SameBut [27, 30, 31, 32, 33, 35, 36, 37, 38, 39, 40, 41, 42, 43]
      machine := hsame.mono (by decide)
  cases hstep : Action.step machine with
  | error fault after =>
    rw [hstep] at hconcludes
    cases hconcludes
    exact hfetched
  | ok result after =>
    rw [hstep] at hconcludes
    cases hconcludes with
    | halted => exact hfetched
    | handedOver reading => exact hfetched.handedOver
    | performed opcode => trivial

end Machine

end TapeMachine
