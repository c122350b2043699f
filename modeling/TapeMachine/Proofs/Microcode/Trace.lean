import Mathlib.Algebra.GroupWithZero.Nat
import TapeMachine.Microcode
import TapeMachine.Proofs.Execution.Step
import TapeMachine.Proofs.Machine.ProgramFrame

/-!
# The trace of a pass

A pass of the microcode makes one transition. Its trace lists what each of its instructions leaves
in which register. Only the last three instructions write to anything but a register, and none reads
a register before the pass has written it: that is what `Computes` says of an instruction, a
register and a value, for the registers known so far, and what `Pass.computes` shows of every
instruction in the trace.
-/

set_option autoImplicit false

namespace TapeMachine

attribute [local irreducible] Buffer.setWord Buffer.setSlot

/-- The registers whose values are known, each with its value. -/
abbrev Known := List (Register × Int)

/-- Whether the registers of a machine hold the values that are known of them. -/
def Known.Holds (known : Known) (machine : Machine) : Prop :=
  ∀ register value, known.lookup register = some value →
    machine.register register = Int32.ofInt value

/-- An instruction puts a value into a register and changes nothing else, on a machine whose
registers hold known values. Memory is read where known registers say. -/
inductive Computes (known : Known) (machine : Machine) :
    Opcode → Int32 → Int32 → Int32 → Register → Int → Prop where
  | load {constant target unused : Int32} {register : Register} {value : Int}
    (htarget : Register.ofOperand target = .ok register) (hvalue : constant.toInt = value) :
    Computes known machine .load constant target unused register value
  | add {left right target : Int32} {first second register : Register} {augend addend sum : Int}
    (hleft : Register.ofOperand left = .ok first) (hfirst : known.lookup first = some augend)
    (hright : Register.ofOperand right = .ok second) (hsecond : known.lookup second = some addend)
    (htarget : Register.ofOperand target = .ok register) (hsum : augend + addend = sum) :
    Computes known machine .add left right target register sum
  | multiply {left right target : Int32} {first second register : Register}
    {multiplicand multiplier product : Int} (hleft : Register.ofOperand left = .ok first)
    (hfirst : known.lookup first = some multiplicand)
    (hright : Register.ofOperand right = .ok second)
    (hsecond : known.lookup second = some multiplier)
    (htarget : Register.ofOperand target = .ok register)
    (hproduct : multiplicand * multiplier = product) :
    Computes known machine .multiply left right target register product
  | wordRead {address target unused : Int32} {base register : Register} {offset : Int}
    {index : Nat} (haddress : Register.ofOperand address = .ok base)
    (hbase : known.lookup base = some offset)
    (htarget : Register.ofOperand target = .ok register) (hoffset : offset = 32 * index)
    (hindex : index < machine.wordCount) (houtside : machine.regions.OutsideRegisters index)
    {value : Int} (hvalue : (machine.buffer.word index).toNat = value) :
    Computes known machine .wordRead address target unused register value
  | symbolRead {address target unused : Int32} {base register : Register} {offset : Int}
    {index : Nat} {symbol : Symbol} (haddress : Register.ofOperand address = .ok base)
    (hbase : known.lookup base = some offset)
    (htarget : Register.ofOperand target = .ok register) (hoffset : offset = 2 * index)
    (hindex : index / 16 < machine.wordCount)
    (houtside : machine.regions.OutsideRegisters (index / 16))
    (hsymbol : machine.buffer.slot index = symbol.code) {value : Int}
    (hvalue : symbol.code.toNat = value) :
    Computes known machine .symbolRead address target unused register value

/-- The address in a known register comes out as the number it is. -/
theorem Known.Holds.toInt_eq {known : Known} {machine reader : Machine}
    (hknown : known.Holds reader) (haddressable : machine.Addressable) {register : Register}
    {offset : Int} (hregister : known.lookup register = some offset) (hnonneg : 0 ≤ offset)
    (hoffset : offset < 32 * machine.wordCount) : (reader.register register).toInt = offset := by
  have hcount := haddressable.wordCount_lt
  rw [hknown register offset hregister]
  exact Int32.toInt_ofInt_of_le (by omega) (by omega)

/-- What an instruction computes is what it does. -/
theorem Computes.perform_eq {known : Known} {machine reader : Machine} {opcode : Opcode}
    {first second third : Int32} {register : Register} {value : Int}
    (hcomputes : Computes known machine opcode first second third register value)
    (haddressable : machine.Addressable) (hreader : reader.Agrees machine)
    (hknown : known.Holds reader) (next : Offset) :
    Action.perform ⟨opcode, first, second, third, next⟩ reader =
      .ok () (reader.setRegister register (Int32.ofInt value)) := by
  cases hcomputes with
  | load htarget hvalue =>
    rw [← hvalue, Int32.ofInt_toInt]
    exact Action.load_eq htarget _
  | add hleft hfirst hright hsecond htarget hsum =>
    rw [← hsum, Int32.ofInt_add, ← hknown _ _ hfirst, ← hknown _ _ hsecond]
    exact Action.add_eq hleft hright htarget
  | multiply hleft hfirst hright hsecond htarget hproduct =>
    rw [← hproduct, Int32.ofInt_mul, ← hknown _ _ hfirst, ← hknown _ _ hsecond]
    exact Action.multiply_eq hleft hright htarget
  | wordRead haddress hbase htarget hoffset hindex houtside hvalue =>
    rw [← hvalue, ← toInt32_eq_ofInt, ← hreader.word _ (hreader.regions ▸ houtside)]
    refine Action.wordRead_eq haddress htarget (hreader.wordCount ▸ hindex) ?_
    rw [hknown.toInt_eq haddressable hbase (by omega) (by omega), hoffset]
  | symbolRead haddress hbase htarget hoffset hindex houtside hsymbol hvalue =>
    rw [← hvalue, Int32.ofInt_eq_ofNat]
    refine Action.symbolRead_eq haddress htarget (hreader.wordCount ▸ hindex) ?_ ?_
    · rw [hknown.toInt_eq haddressable hbase (by omega) (by omega), hoffset]
    · rw [hreader.slot (hreader.regions ▸ houtside), hsymbol]

/-! ### The pass -/

/-- What a pass works on: the state that was handed over, the position of the head, the symbol read
there and the rule of the state for it. -/
structure Pass where
  state : Offset
  position : Nat
  read : Symbol
  rule : Rule Offset

namespace Pass

variable (pass : Pass)

/-- There are registers, so that a numeral can stand for one. -/
local instance : NeZero 50 := ⟨by decide⟩

/-- What the hand-over and each instruction up to the three that take effect leave in which
register. -/
def trace (regions : Regions) : Known :=
  let state : Int := pass.state.toNat
  let position : Int := pass.position
  let read : Int := pass.read.code.toNat
  let write : Int := pass.rule.write.code.toNat
  let move : Int := pass.rule.move.code.toNat
  [ (.activeState, state),
    -- The tape follows the program and the registers.
    (0, 0),
    (1, 32),
    (2, regions.programWords),
    (4, 50),
    (5, regions.tapeWord),
    (6, 32 * regions.tapeWord),
    -- The symbol under the head.
    (7, 32 * regions.headWord),
    (8, 64 + 2 * position),
    (9, 32 * regions.tapeWord + 64 + 2 * position),
    (10, read),
    -- The symbol to write.
    (11, 2),
    (12, 2 * read),
    (26, state + 2 * read),
    (13, state + 32 + 2 * read),
    (24, write),
    -- The move, as a displacement in bits.
    (14, 8),
    (15, state + 40 + 2 * read),
    (19, move),
    (20, -1),
    (21, move - 1),
    (22, 2 * (move - 1)),
    (23, 62 + 2 * position + 2 * move),
    -- The next state.
    (16, state + 32),
    (16, state + 64),
    (17, 32 * read),
    (18, state + 64 + 32 * read),
    (25, pass.rule.next.toNat) ]

/-- What is known once a number of instructions were performed; the last write to a register
counts. -/
def known (regions : Regions) (k : Nat) : Known :=
  ((pass.trace regions).take (k + 1)).reverse

/-- Whether a state of the program has a rule for a symbol, read off its fields. -/
structure RuleAt (machine : Machine) (state : Offset) (read : Symbol) (rule : Rule Offset) :
    Prop where
  write : machine.buffer.slot (state.toNat / 2 + 16 + read.code.toNat) = rule.write.code
  move : machine.buffer.slot (state.toNat / 2 + 20 + read.code.toNat) = rule.move.code
  next : machine.buffer.word (state.toNat / 32 + 2 + read.code.toNat) = rule.next

/-- What an instruction of the pass has to find in memory. -/
def Reads (machine : Machine) : Nat → Prop
  | 7 => machine.headField.toNat = 64 + 2 * pass.position
  | 9 => machine.buffer.slot (machine.regions.cellSlot pass.position) = pass.read.code
  | 14 => machine.buffer.slot (pass.state.toNat / 2 + 16 + pass.read.code.toNat) =
    pass.rule.write.code
  | 17 => machine.buffer.slot (pass.state.toNat / 2 + 20 + pass.read.code.toNat) =
    pass.rule.move.code
  | 26 => machine.buffer.word (pass.state.toNat / 32 + 2 + pass.read.code.toNat) = pass.rule.next
  | _ => True

/-- Whether the state of a pass is an entry and its position a cell of the machine. -/
structure Fits (machine : Machine) : Prop where
  state : ∃ index < machine.regions.entries, pass.state.toNat = 64 + 160 * index
  position : pass.position < machine.cellCount

/-- A move is stored like the symbol with its code. -/
private theorem exists_symbol_code (move : HeadMove) : ∃ symbol : Symbol, symbol.code = move.code :=
  match move with
  | .left => ⟨.zero, rfl⟩
  | .stay => ⟨.one, rfl⟩
  | .right => ⟨.blank, rfl⟩

/-- Every instruction up to the three that take effect computes its value of the trace from what is
known before it. -/
theorem computes {machine : Machine}
    (hcount : (machine.buffer.word 0).toNat = machine.regions.programWords)
    (hfits : pass.Fits machine) {k : Nat} (hk : k < 27) (hreads : pass.Reads machine k) :
    ∃ opcode first second third register value,
      Microcode.steps[k]? = some (opcode, first, second, third) ∧
      (pass.trace machine.regions)[k + 1]? = some (register, value) ∧
      Computes (pass.known machine.regions k) machine opcode first second third register value := by
  obtain ⟨⟨index, hindex, hstate⟩, hposition⟩ := hfits
  have hread := pass.read.code_toNat_lt
  have hprogram : machine.regions.programWords = 2 + 5 * machine.regions.entries := rfl
  have hwords : machine.regions.programWords < machine.wordCount := by
    have hhead := machine.headWord_lt_wordCount
    rw [Regions.headWord_eq] at hhead
    omega
  match k, hk with
  | 0, _ => exact ⟨_, _, _, _, _, _, rfl, rfl, .load rfl rfl⟩
  | 1, _ => exact ⟨_, _, _, _, _, _, rfl, rfl, .load rfl rfl⟩
  | 2, _ =>
    exact ⟨_, _, _, _, _, _, rfl, rfl, .wordRead rfl rfl rfl rfl (by omega)
      machine.regions.outsideRegisters_zero (by rw [hcount])⟩
  | 3, _ => exact ⟨_, _, _, _, _, _, rfl, rfl, .load rfl rfl⟩
  | 4, _ => exact ⟨_, _, _, _, _, _, rfl, rfl, .add rfl rfl rfl rfl rfl rfl⟩
  | 5, _ => exact ⟨_, _, _, _, _, _, rfl, rfl, .multiply rfl rfl rfl rfl rfl (by omega)⟩
  | 6, _ =>
    exact ⟨_, _, _, _, _, _, rfl, rfl, .add rfl rfl rfl rfl rfl (by rw [Regions.headWord]; omega)⟩
  | 7, _ =>
    exact ⟨_, _, _, _, _, _, rfl, rfl, .wordRead rfl rfl rfl rfl machine.headWord_lt_wordCount
      machine.regions.outsideRegisters_headWord (by rw [← Machine.headField, hreads]; rfl)⟩
  | 8, _ => exact ⟨_, _, _, _, _, _, rfl, rfl, .add rfl rfl rfl rfl rfl (by omega)⟩
  | 9, _ =>
    exact ⟨_, _, _, _, _, _, rfl, rfl, .symbolRead rfl rfl rfl
      (by rw [Regions.cellSlot]; omega) (machine.cellSlot_lt_wordCount hposition)
      (machine.regions.outsideRegisters_cellSlot _) hreads rfl⟩
  | 10, _ => exact ⟨_, _, _, _, _, _, rfl, rfl, .load rfl rfl⟩
  | 11, _ => exact ⟨_, _, _, _, _, _, rfl, rfl, .multiply rfl rfl rfl rfl rfl rfl⟩
  | 12, _ => exact ⟨_, _, _, _, _, _, rfl, rfl, .add rfl rfl rfl rfl rfl rfl⟩
  | 13, _ => exact ⟨_, _, _, _, _, _, rfl, rfl, .add rfl rfl rfl rfl rfl (by omega)⟩
  | 14, _ =>
    exact ⟨_, _, _, _, _, _, rfl, rfl, .symbolRead rfl rfl rfl (by omega) (by omega)
      (Or.inl (by omega)) hreads rfl⟩
  | 15, _ => exact ⟨_, _, _, _, _, _, rfl, rfl, .load rfl rfl⟩
  | 16, _ => exact ⟨_, _, _, _, _, _, rfl, rfl, .add rfl rfl rfl rfl rfl (by omega)⟩
  | 17, _ =>
    obtain ⟨symbol, hsymbol⟩ := exists_symbol_code pass.rule.move
    exact ⟨_, _, _, _, _, _, rfl, rfl, .symbolRead rfl rfl rfl (by omega) (by omega)
      (Or.inl (by omega)) (hreads.trans hsymbol.symm) (by rw [hsymbol])⟩
  | 18, _ => exact ⟨_, _, _, _, _, _, rfl, rfl, .load rfl rfl⟩
  | 19, _ => exact ⟨_, _, _, _, _, _, rfl, rfl, .add rfl rfl rfl rfl rfl rfl⟩
  | 20, _ => exact ⟨_, _, _, _, _, _, rfl, rfl, .multiply rfl rfl rfl rfl rfl rfl⟩
  | 21, _ => exact ⟨_, _, _, _, _, _, rfl, rfl, .add rfl rfl rfl rfl rfl (by omega)⟩
  | 22, _ => exact ⟨_, _, _, _, _, _, rfl, rfl, .add rfl rfl rfl rfl rfl (by omega)⟩
  | 23, _ => exact ⟨_, _, _, _, _, _, rfl, rfl, .add rfl rfl rfl rfl rfl (by omega)⟩
  | 24, _ => exact ⟨_, _, _, _, _, _, rfl, rfl, .multiply rfl rfl rfl rfl rfl rfl⟩
  | 25, _ => exact ⟨_, _, _, _, _, _, rfl, rfl, .add rfl rfl rfl rfl rfl rfl⟩
  | 26, _ =>
    have hnext : pass.state.toNat / 32 + 2 + pass.read.code.toNat < machine.wordCount := by omega
    exact ⟨_, _, _, _, _, _, rfl, rfl, .wordRead rfl rfl rfl (by omega) hnext
      (Or.inl (by omega)) (by rw [hreads])⟩
  | _ + 27, hk => exact absurd hk (by omega)

/-! ### What is known -/

theorem known_succ {regions : Regions} {k : Nat} {register : Register} {value : Int}
    (htrace : (pass.trace regions)[k + 1]? = some (register, value)) :
    pass.known regions (k + 1) = (register, value) :: pass.known regions k := by
  rw [known, List.take_add_one, htrace, Option.toList_some, List.reverse_append,
    List.reverse_singleton, List.singleton_append, known]

/-- No instruction of the pass puts anything in place of the state that was handed over. -/
theorem lookup_known_activeState (regions : Regions) (k : Nat) :
    (pass.known regions k).lookup .activeState = some (pass.state.toNat : Int) := by
  have hnames : ∀ name ∈ (pass.trace regions).tail.map Prod.fst, name ≠ .activeState := by
    change ∀ name ∈ [0, 1, 2, 4, 5, 6, 7, 8, 9, 10, 11, 12, 26, 13, 24, 14, 15, 19, 20, 21, 22, 23,
      16, 16, 17, 18, 25], name ≠ Register.activeState
    decide
  have hsplit : pass.known regions k =
      ((pass.trace regions).tail.take k).reverse ++ [(.activeState, (pass.state.toNat : Int))] := by
    rw [← List.reverse_cons]
    rfl
  rw [List.lookup_eq_some_iff]
  refine ⟨_, [], hsplit, fun entry hentry ↦ ?_⟩
  have hmem := List.mem_of_mem_take (List.mem_reverse.mp hentry)
  exact bne_iff_ne.mpr (hnames entry.1 (List.mem_map_of_mem hmem)).symm

/-- The pass and the fetch of its instructions do not share registers. -/
theorem notMem_fetchRegisters {regions : Regions} {k : Nat} {register : Register} {value : Int}
    (hregister : (pass.known regions k).lookup register = some value) :
    register ∉ Machine.fetchRegisters := by
  have hnames : ∀ name ∈ (pass.trace regions).map Prod.fst, name ∉ Machine.fetchRegisters := by
    change ∀ name ∈ [.activeState, 0, 1, 2, 4, 5, 6, 7, 8, 9, 10, 11, 12, 26, 13, 24, 14, 15, 19,
      20, 21, 22, 23, 16, 16, 17, 18, 25], name ∉ Machine.fetchRegisters
    decide
  have hmem : (register, value) ∈ pass.known regions k := by
    rw [List.lookup_eq_some_iff] at hregister
    obtain ⟨before, after, hsplit, -⟩ := hregister
    rw [hsplit]
    simp
  refine hnames register (List.mem_map.mpr ⟨(register, value), ?_, rfl⟩)
  exact List.mem_of_mem_take (List.mem_reverse.mp hmem)

end Pass

end TapeMachine
