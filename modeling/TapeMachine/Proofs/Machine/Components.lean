import TapeMachine.Proofs.Machine.Build

/-!
# The components of a machine

Entries, registers, cells, the head and the instruction pointer are kept in one buffer, and each can
be set on its own. Every slot of the buffer has at most one owner among them (`owner?`); what a
component holds depends on its own slots (`get_congr`), and setting it writes no others
(`set_cases`). So they behave as independent variables, which is what `set_independent` says.
-/

set_option autoImplicit false

namespace TapeMachine

attribute [local irreducible] Buffer.setWord Buffer.setSlot

namespace Register

theorem ofOperand_eq_ok_iff {operand : Int32} {register : Register} :
    ofOperand operand = .ok register ↔ operand.toInt = register.val := by
  rw [← ofIndex?_eq_some_iff]
  unfold ofOperand
  cases ofIndex? operand.toInt with
  | none => simp
  | some found => simp

/-- The operands that name registers. -/
theorem exists_ofOperand_iff {operand : Int32} :
    (∃ register, ofOperand operand = .ok register) ↔ 0 ≤ operand.toInt ∧ operand.toInt < 50 := by
  simp only [ofOperand_eq_ok_iff]
  constructor
  · rintro ⟨register, hregister⟩
    have hlt := register.isLt
    omega
  · rintro ⟨hle, hlt⟩
    exact ⟨⟨operand.toInt.toNat, by omega⟩, (Int.toNat_of_nonneg hle).symm⟩

theorem ofNat_of_ofOperand {operand : Int32} {register : Register}
    (hregister : ofOperand operand = .ok register) : Int32.ofNat register.val = operand := by
  have hlt := register.isLt
  apply Int32.toInt_inj.mp
  rw [Int32.toInt_ofNat_of_lt (by omega), ofOperand_eq_ok_iff.mp hregister]

end Register

/-- What can be set on its own in a machine. Registers are named by operands, which may be out of
range. -/
inductive Component where
  | entry (index : Nat)
  | register (operand : Int32)
  | cell (position : Nat)
  | head
  | pointer
  deriving DecidableEq

namespace Component

/-- What a component can hold. -/
abbrev Content : Component → Type
  | entry _ => Entry
  | register _ => Int32
  | cell _ => Symbol
  | head => Nat
  | pointer => Offset

/-- What a component of a machine holds. -/
def get (machine : Machine) : (component : Component) → Except Fault component.Content
  | entry index => machine.entry index
  | register operand => machine.operandRegister operand
  | cell position => machine.cell position
  | head => machine.head
  | pointer => .ok machine.pointer

/-- Replaces what a component holds. -/
def set : (component : Component) → component.Content → Action Unit
  | entry index, content => Action.setEntry index content
  | register operand, value => Action.load value operand
  | cell position, symbol => Action.setCell position symbol
  | head, position => Action.setHead position
  | pointer, offset => Action.setPointer offset

/-- Whether a machine has a component, and the cell or the entry that the head or the instruction
pointer is to be put on. -/
def Admits (machine : Machine) : (component : Component) → component.Content → Prop
  | entry index, _ => index < machine.regions.entries
  | register operand, _ => 0 ≤ operand.toInt ∧ operand.toInt < 50
  | cell position, _ => position < machine.cellCount
  | head, position => position < machine.cellCount
  | pointer, offset => ∃ index < machine.regions.entries, offset = Offset.ofEntry index

/-- Whether a content comes back as what it was; an instruction with the opcode of a state would
come back as a state. -/
def Storable : (component : Component) → component.Content → Prop
  | entry _, content => content.opcode = .transition → content.isState = true
  | _, _ => True

/-! ### Slots and their owners -/

/-- The component that a slot of the buffer belongs to. The two word counts belong to none. -/
def owner? (regions : Regions) (slot : Nat) : Option Component :=
  let word := slot / 16
  if word = 1 then some pointer
  else if 2 ≤ word ∧ word < regions.programWords then some (entry ((word - 2) / 5))
  else if regions.programWords ≤ word ∧ word < regions.tapeWord then
    some (register (Int32.ofNat (word - regions.programWords)))
  else if word = regions.headWord then some head
  else if regions.headWord < word then some (cell (slot - regions.cellSlot 0))
  else none

variable {regions : Regions} {slot : Nat}

theorem owner?_of_pointer (hslot : slot / 16 = 1) : owner? regions slot = some pointer :=
  if_pos hslot

theorem owner?_of_entry {index k : Nat} (hindex : index < regions.entries) (hk : k < 5)
    (hslot : slot / 16 = 2 + 5 * index + k) : owner? regions slot = some (entry index) := by
  have hprogram : slot / 16 < regions.programWords := by
    rw [Regions.programWords]
    omega
  unfold owner?
  dsimp only
  rw [if_neg (by omega), if_pos ⟨by omega, hprogram⟩, show (slot / 16 - 2) / 5 = index by omega]

theorem owner?_of_head (hslot : slot / 16 = regions.headWord) :
    owner? regions slot = some head := by
  have htwo := regions.two_le_programWords
  have hhead := regions.headWord_eq
  have htape := regions.tapeWord_eq
  unfold owner?
  dsimp only
  rw [if_neg (by omega), if_neg (by omega), if_neg (by omega), if_pos hslot]

theorem owner?_of_cell (position : Nat) :
    owner? regions (regions.cellSlot position) = some (cell position) := by
  have htwo := regions.two_le_programWords
  have hhead := regions.headWord_eq
  have htape := regions.tapeWord_eq
  have hslot : regions.cellSlot position / 16 = regions.tapeWord + 2 + position / 16 := by
    unfold Regions.cellSlot
    omega
  have hposition : regions.cellSlot position - regions.cellSlot 0 = position := by
    unfold Regions.cellSlot
    omega
  unfold owner?
  dsimp only
  rw [if_neg (by omega), if_neg (by omega), if_neg (by omega), if_neg (by omega),
    if_pos (by omega), hposition]

theorem owner?_of_register {operand : Int32} {target : Register}
    (htarget : Register.ofOperand operand = .ok target)
    (hslot : slot / 16 = regions.registerWord target) :
    owner? regions slot = some (register operand) := by
  have htwo := regions.two_le_programWords
  have htape := regions.tapeWord_eq
  have hlt := target.isLt
  have hoperand : Int32.ofNat (slot / 16 - regions.programWords) = operand := by
    rw [hslot, Regions.registerWord, Nat.add_sub_cancel_left]
    exact Register.ofNat_of_ofOperand htarget
  rw [Regions.registerWord] at hslot
  unfold owner?
  dsimp only
  rw [if_neg (by omega), if_neg (by omega), if_pos (by omega), hoperand]

/-- The word counts are nobody's. -/
theorem owner?_of_wordCount (hslot : slot / 16 = 0 ∨ slot / 16 = regions.tapeWord) :
    owner? regions slot = none := by
  have htwo := regions.two_le_programWords
  have hhead := regions.headWord_eq
  have htape := regions.tapeWord_eq
  unfold owner?
  dsimp only
  rw [if_neg (by omega), if_neg (by omega), if_neg (by omega), if_neg (by omega),
    if_neg (by omega)]

/-! ### Reading a component -/

variable {machine other after : Machine}

/-- The words of an entry are owned by it. -/
theorem owner?_of_entryWord (haddressable : machine.Addressable) {index k : Nat}
    (hindex : index < machine.regions.entries) (hk : k < 5)
    (hslot : slot / 16 = (Offset.ofEntry index).toNat / 32 + k) :
    owner? machine.regions slot = some (entry index) := by
  have hbase := haddressable.toNat_ofEntry hindex
  exact owner?_of_entry hindex hk (by omega)

/-- What a component holds depends on its own slots. -/
theorem get_congr (hregions : machine.regions = other.regions) (haddressable : machine.Addressable)
    {component : Component} (hslot : ∀ slot, owner? machine.regions slot = some component →
      machine.buffer.slot slot = other.buffer.slot slot) :
    component.get machine = component.get other := by
  cases component with
  | entry index =>
    change machine.entry index = other.entry index
    unfold Machine.entry
    by_cases hindex : index < machine.regions.entries
    · have hwords : machine.entryWords index = other.entryWords index := by
        refine Machine.entryWords_congr fun k hk ↦ Buffer.word_eq_of_slot_eq fun slot hword ↦ ?_
        exact hslot slot (owner?_of_entryWord haddressable hindex hk hword)
      rw [if_pos hindex, if_pos (hregions ▸ hindex), hwords]
    · rw [if_neg hindex, if_neg (hregions ▸ hindex), hregions]
  | register operand =>
    change machine.operandRegister operand = other.operandRegister operand
    unfold Machine.operandRegister
    cases htarget : Register.ofOperand operand with
    | error fault => rfl
    | ok target =>
      have hregister : machine.register target = other.register target := by
        unfold Machine.register
        rw [← hregions]
        refine congrArg _ (Buffer.word_eq_of_slot_eq fun slot hword ↦ ?_)
        exact hslot slot (owner?_of_register htarget hword)
      exact congrArg Except.ok hregister
  | cell position =>
    refine Machine.cell_congr hregions ?_
    rw [hslot _ (owner?_of_cell position), hregions]
  | head =>
    have hfield : machine.headField = other.headField := by
      unfold Machine.headField
      rw [← hregions]
      exact Buffer.word_eq_of_slot_eq fun slot hword ↦ hslot slot (owner?_of_head hword)
    change machine.head = other.head
    unfold Machine.head Machine.cellCount
    rw [hfield, hregions]
  | pointer =>
    have hpointer : machine.pointer = other.pointer :=
      Buffer.word_eq_of_slot_eq fun slot hword ↦ hslot slot (owner?_of_pointer hword)
    exact congrArg Except.ok hpointer

/-! ### Setting a component -/

/-- What setting a component makes of a machine: the component holds what was set, and slots that
are not its own are what they were. -/
structure Replaces (component : Component) (content : component.Content)
    (machine after : Machine) : Prop where
  regions : after.regions = machine.regions
  slot : ∀ slot, owner? machine.regions slot ≠ some component →
    after.buffer.slot slot = machine.buffer.slot slot
  get : component.Storable content → component.get after = .ok content

theorem replaces_entry (haddressable : machine.Addressable) {index : Nat}
    (hindex : index < machine.regions.entries) (content : Entry) :
    Replaces (.entry index) content machine (machine.setEntryWords index content.encode) := by
  refine ⟨rfl, fun slot howner ↦ ?_, fun hstorable ↦ ?_⟩
  · have hne : ∀ k < 5, slot / 16 ≠ (Offset.ofEntry index).toNat / 32 + k :=
      fun k hk hword ↦ howner (owner?_of_entryWord haddressable hindex hk hword)
    refine Buffer.slot_eq_of_word_eq ?_
    rw [Machine.word_setEntryWords hindex _ rfl, if_neg (hne 4 (by decide)),
      if_neg (hne 3 (by decide)), if_neg (hne 2 (by decide)), if_neg (hne 1 (by decide)),
      if_neg (by exact hne 0 (by decide))]
  · change Machine.entry _ index = .ok content
    rw [Machine.entry, machine.regions_setEntryWords, if_pos hindex,
      Machine.entryWords_setEntryWords haddressable hindex hindex, if_pos rfl,
      Entry.decode_encode _ hstorable]

theorem replaces_register {operand : Int32} {target : Register}
    (htarget : Register.ofOperand operand = .ok target) (value : Int32) :
    Replaces (.register operand) value machine (machine.setRegister target value) := by
  refine ⟨rfl, fun slot howner ↦ ?_, fun _ ↦ ?_⟩
  · exact machine.slot_setWord_of_ne _ fun hword ↦ howner (owner?_of_register htarget hword)
  · change Machine.operandRegister _ operand = .ok value
    rw [Machine.operandRegister_eq htarget, Machine.register_setRegister, if_pos rfl]

theorem replaces_cell {position : Nat} (hposition : position < machine.cellCount)
    (symbol : Symbol) :
    Replaces (.cell position) symbol machine (machine.setCell position symbol) := by
  refine ⟨rfl, fun slot howner ↦ ?_, fun _ ↦ ?_⟩
  · have hne : slot ≠ machine.regions.cellSlot position := by
      rintro rfl
      exact howner (owner?_of_cell position)
    rw [Machine.setCell, machine.slot_setSlot _ (machine.cellSlot_lt_wordCount hposition),
      if_neg hne]
  · change Machine.cell _ position = .ok symbol
    rw [machine.cell_setCell hposition, if_pos rfl]

theorem replaces_head (haddressable : machine.Addressable) {position : Nat}
    (hposition : position < machine.cellCount) :
    Replaces .head position machine (machine.putHead position) := by
  refine ⟨rfl, fun slot howner ↦ ?_, fun _ ↦ ?_⟩
  · exact machine.slot_setWord_of_ne _ fun hword ↦ howner (owner?_of_head hword)
  · exact Machine.head_eq_ok_iff.mpr ⟨Machine.headAt_putHead haddressable hposition, hposition⟩

theorem replaces_pointer (machine : Machine) (offset : Offset) :
    Replaces .pointer offset machine (machine.setWord 1 offset) := by
  refine ⟨rfl, fun slot howner ↦ ?_, fun _ ↦ ?_⟩
  · exact machine.slot_setWord_of_ne _ fun hword ↦ howner (owner?_of_pointer hword)
  · exact congrArg Except.ok (machine.pointer_setPointer offset)

/-- A component that the machine has is replaced. -/
theorem set_of_admits (haddressable : machine.Addressable) {component : Component}
    {content : component.Content} (hadmits : component.Admits machine content) :
    ∃ after, component.set content machine = .ok () after ∧
      Replaces component content machine after := by
  cases component with
  | entry index =>
    exact ⟨_, Action.query_bind_ok _ (if_pos hadmits), replaces_entry haddressable hadmits _⟩
  | register operand =>
    obtain ⟨target, htarget⟩ := Register.exists_ofOperand_iff.mpr hadmits
    exact ⟨_, Action.load_eq htarget _, replaces_register htarget _⟩
  | cell position => exact ⟨_, Action.query_bind_ok _ (if_pos hadmits), replaces_cell hadmits _⟩
  | head => exact ⟨_, Action.query_bind_ok _ (if_pos hadmits), replaces_head haddressable hadmits⟩
  | pointer =>
    obtain ⟨index, hindex, rfl⟩ := hadmits
    exact ⟨_, Action.query_bind_ok _ (haddressable.entryAt_ofEntry hindex),
      replaces_pointer machine _⟩

/-- A component that the machine does not have cannot be set, and nothing happens. -/
theorem set_of_not_admits (haddressable : machine.Addressable) {component : Component}
    {content : component.Content} (hadmits : ¬ component.Admits machine content) :
    ∃ fault, component.set content machine = .error fault machine := by
  cases component with
  | entry index => exact ⟨_, Action.query_bind_error _ (if_neg hadmits)⟩
  | register operand =>
    cases htarget : Register.ofOperand operand with
    | ok target => exact absurd (Register.exists_ofOperand_iff.mp ⟨target, htarget⟩) hadmits
    | error fault => exact ⟨fault, Action.query_bind_error _ htarget⟩
  | cell position => exact ⟨_, Action.query_bind_error _ (if_neg hadmits)⟩
  | head => exact ⟨_, Action.query_bind_error _ (if_neg hadmits)⟩
  | pointer =>
    cases hentry : machine.entryAt content with
    | ok index =>
      obtain ⟨hoffset, hindex⟩ := Machine.entryAt_eq_ok_iff.mp hentry
      refine absurd ⟨index, hindex, UInt32.toNat.inj ?_⟩ hadmits
      rw [hoffset, haddressable.toNat_ofEntry hindex]
    | error fault => exact ⟨fault, Action.query_bind_error _ hentry⟩

/-- Setting a component fails exactly if the machine has no such component, and then nothing
happens. Otherwise the component holds what was set, and every other component and both word counts
are what they were. -/
theorem set_independent (haddressable : machine.Addressable) (component : Component)
    (content : component.Content) :
    (¬ component.Admits machine content →
      ∃ fault, component.set content machine = .error fault machine) ∧
    (component.Admits machine content →
      ∃ after, component.set content machine = .ok () after ∧
        (component.Storable content → component.get after = .ok content) ∧
        (∀ other, other ≠ component → other.get after = other.get machine) ∧
        after.regions = machine.regions ∧ after.buffer.word 0 = machine.buffer.word 0 ∧
        after.buffer.word machine.regions.tapeWord =
          machine.buffer.word machine.regions.tapeWord) := by
  refine ⟨set_of_not_admits haddressable, fun hadmits ↦ ?_⟩
  obtain ⟨after, hset, hreplaces⟩ := set_of_admits haddressable hadmits
  have hcount : ∀ index, index = 0 ∨ index = machine.regions.tapeWord →
      after.buffer.word index = machine.buffer.word index := by
    intro index hindex
    refine Buffer.word_eq_of_slot_eq fun slot hslot ↦ hreplaces.slot slot ?_
    rw [owner?_of_wordCount (hslot ▸ hindex)]
    exact Option.some_ne_none _ |>.symm
  refine ⟨after, hset, hreplaces.get, fun other hother ↦ ?_, hreplaces.regions,
    hcount 0 (Or.inl rfl), hcount _ (Or.inr rfl)⟩
  refine get_congr hreplaces.regions (haddressable.of_regions hreplaces.regions) ?_
  refine fun slot howner ↦ hreplaces.slot slot ?_
  rw [← hreplaces.regions, howner]
  exact fun hsame ↦ hother (Option.some.inj hsame)

/-- The second of the four cells in a byte is set: its neighbours stay blank and the head where it
was. There is no cell beyond the tape to set. -/
theorem set_independent_cells_of_byte :
    ∃ machine after, Machine.ofProgram [.halt] 16 = .ok machine ∧
      Action.setCell 1 .one machine = .ok () after ∧ after.cell 1 = .ok .one ∧
      after.cell 0 = .ok .blank ∧ after.cell 2 = .ok .blank ∧ after.head = .ok 0 ∧
      ∃ fault, Action.setCell 16 .one machine = .error fault machine := by
  obtain ⟨machine, hmachine⟩ := Machine.exists_eq_ok_of_toBool
    (show (Machine.ofProgram [.halt] 16).toBool = true from rfl)
  obtain ⟨hbuilt, hplan⟩ := Machine.built_of_ofEntries hmachine
  have hcells : machine.cellCount = 16 := Machine.cellCount_of_plan hplan
  have hinside := set_independent hbuilt.addressable (.cell 1) .one
  have hbeyond := set_independent hbuilt.addressable (.cell 16) .one
  obtain ⟨after, hset, hget, hother, -⟩ := hinside.2 (by rw [Admits, hcells]; decide)
  have hhead : after.head = machine.head := hother .head (by decide)
  have hlow : after.cell 0 = machine.cell 0 := hother (.cell 0) (by decide)
  have hhigh : after.cell 2 = machine.cell 2 := hother (.cell 2) (by decide)
  refine ⟨machine, after, hmachine, hset, hget trivial, ?_, ?_, ?_, hbeyond.1 ?_⟩
  · rw [hlow, hbuilt.cell 0 (by omega)]
  · rw [hhigh, hbuilt.cell 2 (by omega)]
  · rw [hhead, hbuilt.head]
  · rw [Admits, hcells]
    decide

end Component

end TapeMachine
