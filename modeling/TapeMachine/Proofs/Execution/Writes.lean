import TapeMachine.Proofs.Buffer
import TapeMachine.Proofs.Execution.Frame
import TapeMachine.Proofs.Execution.Halted

/-!
# What a step writes

An instruction writes to the registers or to the word that its operands name, and to nothing else.
`Machine.Targets` says which words these are, and `sameOutside_of_perform` that the operation of the
instruction leaves all others as they were. A step adds what it needs itself: the registers of its
fetch and the instruction pointer. `leaves_cases` puts this together for the steps of any program,
also of one that writes to itself. What a step leaves is then known word by word, unless the step
hands a state to the microcode; what it leaves in that case is known as a whole.
-/

set_option autoImplicit false

namespace TapeMachine

attribute [local irreducible] Buffer.setWord Buffer.setSlot

namespace Machine

/-- Whether a machine has the regions of another and differs from it in some words at most. -/
structure SameOutside (words : Nat → Prop) (after machine : Machine) : Prop where
  regions : after.regions = machine.regions
  word : ∀ index, ¬ words index → after.buffer.word index = machine.buffer.word index

namespace SameOutside

variable {words more : Nat → Prop} {machine middle after : Machine}

theorem refl (words : Nat → Prop) (machine : Machine) : machine.SameOutside words machine :=
  ⟨rfl, fun _ _ ↦ rfl⟩

theorem mono (h : after.SameOutside words machine) (hmore : ∀ index, words index → more index) :
    after.SameOutside more machine :=
  ⟨h.regions, fun index hindex ↦ h.word index fun hword ↦ hindex (hmore index hword)⟩

theorem trans (hsecond : after.SameOutside words middle)
    (hfirst : middle.SameOutside words machine) : after.SameOutside words machine :=
  ⟨hsecond.regions.trans hfirst.regions, fun index hindex ↦
    (hsecond.word index hindex).trans (hfirst.word index hindex)⟩

theorem setWord (h : after.SameOutside words machine) {index : Nat} (hindex : words index)
    (value : UInt32) : (after.setWord index value).SameOutside words machine := by
  refine ⟨h.regions, fun other hother ↦ ?_⟩
  have hne : other ≠ index := fun hsame ↦ hother (hsame ▸ hindex)
  rw [after.word_setWord_of_ne value hne, h.word other hother]

theorem setSlot (h : after.SameOutside words machine) {index : Nat} (hindex : words (index / 16))
    (symbol : Symbol) : (after.setSlot index symbol).SameOutside words machine := by
  refine ⟨h.regions, fun other hother ↦ ?_⟩
  have hne : other ≠ index / 16 := fun hsame ↦ hother (hsame ▸ hindex)
  rw [after.word_setSlot_of_ne symbol hne, h.word other hother]

theorem setRegisters (h : after.SameOutside words machine) {updates : List (Register × Int32)}
    (hwords : ∀ register ∈ updates.map Prod.fst, words (machine.regions.registerWord register)) :
    (after.setRegisters updates).SameOutside words machine := by
  induction updates generalizing after with
  | nil => exact h
  | cons update rest ih =>
    rw [List.map_cons, List.forall_mem_cons] at hwords
    exact ih (h.setWord (h.regions ▸ hwords.1) _) hwords.2

/-- A register whose word is the same holds the same. -/
theorem register (h : after.SameOutside words machine) {register : Register}
    (hregister : ¬ words (machine.regions.registerWord register)) :
    after.register register = machine.register register := by
  unfold Machine.register
  rw [h.regions, h.word _ hregister]

/-- An entry whose words are the same is the same. -/
theorem entry (h : after.SameOutside words machine) {index : Nat}
    (hindex : index < machine.regions.entries →
      ∀ k < 5, ¬ words ((Offset.ofEntry index).toNat / 32 + k)) :
    after.entry index = machine.entry index := by
  unfold Machine.entry
  rw [h.regions]
  by_cases hlt : index < machine.regions.entries
  · rw [entryWords_congr fun k hk ↦ h.word _ (hindex hlt k hk)]
  · rw [if_neg hlt, if_neg hlt]

end SameOutside

/-- Machines that are the same but for some registers differ in the words of these. -/
theorem SameBut.sameOutside {registers : List Register} {machine after : Machine}
    (hsame : after.SameBut registers machine) :
    after.SameOutside
      (fun index ↦ ∃ register ∈ registers, index = machine.regions.registerWord register)
      machine := by
  refine ⟨hsame.regions, fun index hindex ↦ ?_⟩
  by_cases houtside : machine.regions.OutsideRegisters index
  · exact hsame.agrees.word index (hsame.regions ▸ houtside)
  · obtain ⟨register, rfl⟩ := machine.regions.exists_registerWord houtside
    have hregister := hsame.register register fun hmem ↦ hindex ⟨register, hmem, rfl⟩
    rw [word_registerWord, ← hregister, ← hsame.regions, word_registerWord]

/-! ### Operations -/

/-- Whether the operation of an instruction, done on a machine, may write to a word. A store goes to
the word that the bit offset in a register lies in. -/
def Targets (machine : Machine) (instruction : Instruction) (index : Nat) : Prop :=
  match instruction.opcode with
  | .clearRegisters => ∃ register, index = machine.regions.registerWord register
  | .load | .wordRead | .symbolRead =>
    ∃ register, Register.ofOperand instruction.second = .ok register ∧
      index = machine.regions.registerWord register
  | .multiply | .add =>
    ∃ register, Register.ofOperand instruction.third = .ok register ∧
      index = machine.regions.registerWord register
  | .wordWrite | .ret | .symbolWrite =>
    ∃ register, Register.ofOperand instruction.second = .ok register ∧
      (machine.register register).toInt / 32 = index
  | .halt | .transition => False

theorem foldl_setRegister (machine : Machine) (registers : List Register) (value : Int32) :
    registers.foldl (fun machine register ↦ machine.setRegister register value) machine =
      machine.setRegisters (registers.map fun register ↦ (register, value)) := by
  induction registers generalizing machine with
  | nil => rfl
  | cons register rest ih => exact ih _

theorem operandRegister_eq_ok_iff {machine : Machine} {operand value : Int32} :
    machine.operandRegister operand = .ok value ↔
      ∃ register, Register.ofOperand operand = .ok register ∧
        machine.register register = value := by
  unfold operandRegister
  cases Register.ofOperand operand with
  | error fault => simp [Except.map]
  | ok register => simp [Except.map]

end Machine

namespace Action

variable {α β : Type} {machine after : Machine} {words : Nat → Prop}

theorem query_bind_eq_ok {ask : Machine → Except Fault α} {next : α → Action β} {result : β}
    (hbind : (query ask >>= next) machine = .ok result after) :
    ∃ answer, ask machine = .ok answer ∧ next answer machine = .ok result after := by
  cases hask : ask machine with
  | error fault =>
    rw [query_bind_error next hask] at hbind
    cases hbind
  | ok answer =>
    rw [query_bind_ok next hask] at hbind
    exact ⟨answer, rfl, hbind⟩

theorem sameOutside_of_clearRegisters (hclear : clearRegisters machine = .ok () after)
    (hwords : ∀ register, words (machine.regions.registerWord register)) :
    after.SameOutside words machine := by
  cases hclear
  dsimp only
  rw [machine.foldl_setRegister Register.all 0]
  exact (Machine.SameOutside.refl words machine).setRegisters fun register _ ↦ hwords register

theorem sameOutside_of_load {value target : Int32}
    (hload : load value target machine = .ok () after)
    (hwords : ∀ register, Register.ofOperand target = .ok register →
      words (machine.regions.registerWord register)) :
    after.SameOutside words machine := by
  obtain ⟨register, hregister, hchange⟩ := query_bind_eq_ok hload
  cases hchange
  exact (Machine.SameOutside.refl words machine).setWord (hwords register hregister) _

theorem sameOutside_of_wordWrite {source address : Int32}
    (hwrite : wordWrite source address machine = .ok () after)
    (hwords : ∀ register, Register.ofOperand address = .ok register →
      ∀ index : Nat, (machine.register register).toInt / 32 = index → words index) :
    after.SameOutside words machine := by
  obtain ⟨value, -, hwrite⟩ := query_bind_eq_ok hwrite
  obtain ⟨offset, hoffset, hwrite⟩ := query_bind_eq_ok hwrite
  obtain ⟨index, hindex, hchange⟩ := query_bind_eq_ok hwrite
  obtain ⟨register, hregister, rfl⟩ := Machine.operandRegister_eq_ok_iff.mp hoffset
  have hbase := (Buffer.wordAt_eq_ok_iff.mp hindex).2
  cases hchange
  exact (Machine.SameOutside.refl words machine).setWord
    (hwords register hregister index (by omega)) _

theorem sameOutside_of_symbolWrite {source address : Int32}
    (hwrite : symbolWrite source address machine = .ok () after)
    (hwords : ∀ register, Register.ofOperand address = .ok register →
      ∀ index : Nat, (machine.register register).toInt / 32 = index → words index) :
    after.SameOutside words machine := by
  obtain ⟨value, -, hwrite⟩ := query_bind_eq_ok hwrite
  obtain ⟨offset, hoffset, hwrite⟩ := query_bind_eq_ok hwrite
  obtain ⟨symbol, -, hwrite⟩ := query_bind_eq_ok hwrite
  obtain ⟨index, hindex, hchange⟩ := query_bind_eq_ok hwrite
  obtain ⟨register, hregister, rfl⟩ := Machine.operandRegister_eq_ok_iff.mp hoffset
  have hbase := (Buffer.slotAt_eq_ok_iff.mp hindex).2
  cases hchange
  exact (Machine.SameOutside.refl words machine).setSlot
    (hwords register hregister (index / 16) (by omega)) _

/-- An operation leaves all words as they were but those that the instruction names. -/
theorem sameOutside_of_perform {instruction : Instruction}
    (hperform : perform instruction machine = .ok () after) :
    after.SameOutside (machine.Targets instruction) machine := by
  unfold Machine.Targets
  unfold perform at hperform
  cases hopcode : instruction.opcode with
  | clearRegisters =>
    rw [hopcode] at hperform
    exact sameOutside_of_clearRegisters hperform fun register ↦ ⟨register, rfl⟩
  | load =>
    rw [hopcode] at hperform
    exact sameOutside_of_load hperform fun register hregister ↦ ⟨register, hregister, rfl⟩
  | wordRead | symbolRead | multiply | add =>
    rw [hopcode] at hperform
    obtain ⟨_, -, hperform⟩ := query_bind_eq_ok hperform
    obtain ⟨_, -, hperform⟩ := query_bind_eq_ok hperform
    exact sameOutside_of_load hperform fun register hregister ↦ ⟨register, hregister, rfl⟩
  | wordWrite | ret =>
    rw [hopcode] at hperform
    exact sameOutside_of_wordWrite hperform fun register hregister index hindex ↦
      ⟨register, hregister, hindex⟩
  | symbolWrite =>
    rw [hopcode] at hperform
    exact sameOutside_of_symbolWrite hperform fun register hregister index hindex ↦
      ⟨register, hregister, hindex⟩
  | halt | transition =>
    rw [hopcode] at hperform
    cases hperform
    exact .refl _ machine

end Action

/-! ### Steps -/

namespace Machine

variable {machine after : Machine} {result : Step}

/-- The words that a step writes for itself, whatever the program is. -/
def Routine (machine : Machine) (index : Nat) : Prop :=
  index = 1 ∨ ∃ register ∈ fetchRegisters, index = machine.regions.registerWord register

/-- Whether the next step is that of an instruction which may write to a word. -/
def Overwrites (machine : Machine) (index : Nat) : Prop :=
  ∃ instruction, machine.currentEntry = .ok (.instruction instruction) ∧
    (machine.fetched instruction).Targets instruction index

theorem overwrites_iff {index place : Nat} {instruction : Instruction}
    (hentry : machine.entryAt machine.pointer = .ok index)
    (hinstruction : machine.entry index = .ok (.instruction instruction)) :
    machine.Overwrites place ↔ (machine.fetched instruction).Targets instruction place := by
  have hcurrent := currentEntry_eq_ok_iff.mpr ⟨index, hentry, hinstruction⟩
  unfold Overwrites
  rw [hcurrent]
  simp

/-- Whether the next step may write to a word. -/
def MayWrite (machine : Machine) (index : Nat) : Prop :=
  machine.Routine index ∨ machine.Overwrites index

/-- Registers of the fetch are written as a matter of routine. -/
theorem SameOutside.fetch (h : after.SameOutside machine.Routine machine)
    {updates : List (Register × Int32)} (hupdates : updates.map Prod.fst ⊆ fetchRegisters) :
    (after.setRegisters updates).SameOutside machine.Routine machine :=
  h.setRegisters fun register hregister ↦ Or.inr ⟨register, hupdates hregister, rfl⟩

theorem sameOutside_fetchedOpcode (machine : Machine) (code : UInt32) :
    (machine.fetchedOpcode code).SameOutside machine.Routine machine :=
  (SameOutside.refl _ machine).fetch (by simp [fetchRegisters])

theorem sameOutside_fetched (machine : Machine) (instruction : Instruction) :
    (machine.fetched instruction).SameOutside machine.Routine machine :=
  (machine.sameOutside_fetchedOpcode _).fetch (by simp [fetchRegisters])

theorem sameOutside_advanced (machine : Machine) (next : Offset) :
    (machine.advanced next).SameOutside machine.Routine machine :=
  ((SameOutside.refl _ machine).fetch (by simp [fetchRegisters])).setWord (Or.inl rfl) next

/-- A step on an entry stored as a state writes nothing but its fetch, or hands the state over. -/
theorem leaves_of_state {index : Nat} (hentry : machine.entryAt machine.pointer = .ok index)
    (hcode : (machine.entryWords index).opcode = Opcode.transition.code)
    (hstep : Action.step machine = .ok result after) :
    after.SameOutside machine.Routine machine ∨
      after = (machine.fetchedOpcode Opcode.transition.code).entered := by
  by_cases hreach : machine.Reaches 0
  · obtain ⟨⟨symbol, hread⟩, -⟩ := symbol_of_step hentry hcode hstep
    obtain ⟨position, hhead, hcell⟩ := symbolUnderHead_eq_ok_iff.mp hread
    rw [Action.step_of_state hentry hreach hcode, hhead] at hstep
    dsimp only at hstep
    rw [hcell] at hstep
    dsimp only at hstep
    split at hstep
    · cases hstep
      exact Or.inl (machine.sameOutside_fetchedOpcode _)
    · cases hstep
      exact Or.inr rfl
  · obtain ⟨_, _, _, hfails⟩ := Action.step_of_not_reaches hentry hreach
    rw [hfails] at hstep
    cases hstep

/-- A step on an instruction writes its fetch, the instruction pointer and what the instruction
names. -/
theorem leaves_of_instruction {index : Nat} {instruction : Instruction}
    (hentry : machine.entryAt machine.pointer = .ok index)
    (hinstruction : machine.entry index = .ok (.instruction instruction))
    (hstep : Action.step machine = .ok result after) :
    after.SameOutside machine.MayWrite machine := by
  obtain ⟨hreach, -⟩ := reaches_of_step hentry hinstruction hstep
  rw [Action.step_of_instruction hentry hreach hinstruction] at hstep
  cases hperform : Action.perform instruction (machine.fetched instruction) with
  | error cause middle =>
    rw [hperform] at hstep
    cases hstep
  | ok answer middle =>
    have hfetched : (machine.fetched instruction).SameOutside machine.MayWrite machine :=
      (machine.sameOutside_fetched instruction).mono fun _ ↦ Or.inl
    have hmiddle : middle.SameOutside machine.MayWrite machine :=
      ((Action.sameOutside_of_perform hperform).mono fun _ htargets ↦
        Or.inr ((overwrites_iff hentry hinstruction).mpr htargets)).trans hfetched
    have hadvanced : (middle.advanced instruction.next).SameOutside machine.MayWrite machine := by
      refine ((middle.sameOutside_advanced instruction.next).mono fun index hroutine ↦ ?_).trans
        hmiddle
      unfold Routine at hroutine
      rw [hmiddle.regions] at hroutine
      exact Or.inl hroutine
    rw [hperform] at hstep
    dsimp only at hstep
    split at hstep
    · cases hstep
      exact hmiddle
    · cases hstep
      exact hmiddle
    · cases hstep
      exact hadvanced

/-- What a step of any machine leaves, also one that fails. -/
theorem leaves_cases (machine : Machine) :
    (Action.step.leaves machine).SameOutside machine.MayWrite machine ∨
    ∃ index, machine.entryAt machine.pointer = .ok index ∧
      (machine.entryWords index).opcode = Opcode.transition.code ∧
      Action.step.leaves machine = (machine.fetchedOpcode Opcode.transition.code).entered := by
  cases hstep : Action.step machine with
  | error fault after =>
    obtain ⟨fetched, hsame, hconcludes⟩ := Action.step_cases machine
    rw [hstep] at hconcludes
    cases hconcludes
    rw [Action.leaves_of_error hstep]
    exact Or.inl (hsame.sameOutside.mono fun _ hindex ↦ Or.inl (Or.inr hindex))
  | ok result after =>
    rw [Action.leaves_of_ok hstep]
    obtain ⟨index, hentry, hcode | ⟨instruction, hinstruction⟩⟩ := entry_of_step hstep
    · refine (leaves_of_state hentry hcode hstep).imp (fun hsame ↦ ?_) fun hentered ↦ ?_
      · exact hsame.mono fun _ ↦ Or.inl
      · exact ⟨index, hentry, hcode, hentered⟩
    · exact Or.inl (leaves_of_instruction hentry hinstruction hstep)

end Machine

end TapeMachine
