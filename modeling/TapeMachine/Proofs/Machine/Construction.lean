import TapeMachine.Proofs.Machine.Build
import TapeMachine.Proofs.Machine.Image

/-!
# Building from entries

`Machine.ofEntries` refuses a machine that is too large, and after that a start that is not one of
its entries; it refuses nothing else (`ofEntries_exact`). What it builds holds every entry in the
words it is encoded as, has zeros in all registers, and comes back from its image. Registers stay
zero because entries are written to the program (`word_putEntries_of_le`), and headers and cells on
either side of the registers.
-/

set_option autoImplicit false

namespace TapeMachine

attribute [local irreducible] Buffer.setWord Buffer.setSlot

theorem Buffer.word_zeros (size index : Nat) : (zeros size).word index = 0 := by
  rw [word, byte_zeros, byte_zeros, byte_zeros, byte_zeros]
  rfl

namespace Machine

variable {machine : Machine} {entries : List Entry} {cells : Nat} {start : Offset}

/-! ### Registers -/

/-- Entries are put into the program and nowhere else. -/
theorem word_putEntries_of_le {index : Nat}
    (hroom : index + entries.length ≤ machine.regions.entries) {word : Nat}
    (hword : machine.regions.programWords ≤ word) :
    (machine.putEntries index entries).buffer.word word = machine.buffer.word word := by
  induction entries generalizing machine index with
  | nil => rw [putEntries_nil]
  | cons entry entries ih =>
    rw [List.length_cons] at hroom
    have hindex : index < machine.regions.entries := by omega
    have hlt : ∀ k < 5, (Offset.ofEntry index).toNat / 32 + k < machine.regions.programWords :=
      fun k hk ↦ machine.regions.entryWord_lt hindex hk
    have hfirst := hlt 0 (by decide)
    have hlast := hlt 4 (by decide)
    have hregions := machine.regions_setEntryWords index entry.encode
    rw [putEntries_cons, ih (by rw [hregions]; omega) (by rw [hregions]; exact hword),
      word_setEntryWords hindex _ rfl, if_neg (by omega), if_neg (by omega), if_neg (by omega),
      if_neg (by omega), if_neg (by omega)]

theorem regions_putEntries_zeroed (regions : Regions) (entries : List Entry) :
    ((zeroed regions).putEntries 0 entries).regions = regions :=
  regions_putEntries _ _ _

/-- The registers of a new machine are cleared. -/
theorem register_of_ofEntries (hmachine : ofEntries entries cells start = .ok machine)
    (register : Register) : machine.register register = 0 := by
  obtain ⟨regions, found, hplan, -, rfl⟩ := of_ofEntries hmachine
  have hregions := regions_putEntries_zeroed regions entries
  have hroom : 0 + entries.length ≤ (zeroed regions).regions.entries := by
    rw [Nat.zero_add, ← (addressable_of_plan hplan).1]
    exact Nat.le_refl _
  have hlast := register.isLt
  have htwo := regions.two_le_programWords
  have htape := regions.tapeWord_eq
  rw [Machine.register, regions_withHeaders, hregions, Regions.registerWord,
    word_withHeaders _ _ (by rw [hregions]; omega), hregions, if_neg (by omega),
    if_neg (by omega), if_neg (by omega),
    word_putEntries_of_le hroom (show regions.programWords ≤ _ from Nat.le_add_right _ _)]
  exact congrArg UInt32.toInt32 (Buffer.word_zeros _ _)

/-! ### Starts -/

/-- An offset at which no entry begins is refused as such. -/
theorem entryAt_eq_error {offset : Offset}
    (hnone : ∀ index < machine.regions.entries, offset ≠ Offset.ofEntry index) :
    machine.entryAt offset = .error (.notAnEntry offset) := by
  unfold entryAt
  split
  · next index hindex =>
    rw [if_neg]
    intro hlt
    refine hnone index hlt (UInt32.toNat_inj.mp ?_)
    rw [Offset.ofEntry, ← Offset.entry?_eq_some_iff.mp hindex, UInt32.ofNat_toNat]
  · rfl

/-! ### What is built -/

/-- Whether a machine is what entries, a number of cells and a start ask for. -/
structure LaidOut (entries : List Entry) (cells : Nat) (start : Offset) (machine : Machine) :
    Prop where
  entryWords : ∀ index entry, entries[index]? = some entry →
    machine.entryWords index = entry.encode
  entry : ∀ index entry, entries[index]? = some entry →
    (entry.opcode = .transition → entry.isState = true) → machine.entry index = .ok entry
  register : ∀ register, machine.register register = 0
  pointer : machine.pointer = start
  head : machine.head = .ok 0
  cellCount : machine.cellCount = 16 * ((max cells 1 + 15) / 16)
  cell : ∀ position < machine.cellCount, machine.cell position = .ok .blank
  image : ofImage machine.buffer = .ok machine

theorem laidOut_of_ofEntries (hmachine : ofEntries entries cells start = .ok machine) :
    LaidOut entries cells start machine := by
  obtain ⟨hbuilt, hplan⟩ := built_of_ofEntries hmachine
  exact
    { entryWords := hbuilt.entryWords
      entry := fun _ _ ↦ hbuilt.entry
      register := register_of_ofEntries hmachine
      pointer := hbuilt.pointer
      head := hbuilt.head
      cellCount := cellCount_of_plan hplan
      cell := hbuilt.cell
      image := ofImage_buffer hbuilt.programWords hbuilt.tapeWords }

theorem ofEntries_of_plan_error {fault : Fault}
    (hplan : Regions.plan entries.length cells = .error fault) :
    ofEntries entries cells start = .error fault := by
  unfold ofEntries
  rw [hplan]
  rfl

/-- A machine that can be addressed and starts at one of its entries is built. -/
theorem exists_of_ofEntries {regions : Regions}
    (hplan : Regions.plan entries.length cells = .ok regions) {index : Nat}
    (hindex : index < entries.length) :
    ∃ machine, ofEntries entries cells (Offset.ofEntry index) = .ok machine ∧
      machine.regions = regions := by
  obtain ⟨hcount, haddressable⟩ := addressable_of_plan hplan
  have hregions := regions_putEntries_zeroed regions entries
  have hentry : ((zeroed regions).putEntries 0 entries).entryAt (Offset.ofEntry index) =
      .ok index :=
    (haddressable.of_regions hregions).entryAt_ofEntry (by rw [hregions, hcount]; exact hindex)
  refine ⟨((zeroed regions).putEntries 0 entries).withHeaders (Offset.ofEntry index), ?_, ?_⟩
  · unfold ofEntries
    simp only [bind, Except.bind, hplan, hentry]
    rfl
  · rw [regions_withHeaders, hregions]

/-- A machine is refused if it cannot be addressed, and else if its start is not one of its
entries; any other is built as asked for. -/
theorem ofEntries_exact (entries : List Entry) (cells : Nat) (start : Offset) :
    match Regions.plan entries.length cells with
    | .error fault =>
      fault = .tooLarge entries.length cells ∧ ofEntries entries cells start = .error fault
    | .ok regions =>
      if ∃ index < entries.length, start = Offset.ofEntry index then
        ∃ machine, ofEntries entries cells start = .ok machine ∧ machine.regions = regions ∧
          LaidOut entries cells start machine
      else ofEntries entries cells start = .error (.notAnEntry start) := by
  cases hplan : Regions.plan entries.length cells with
  | error fault => exact ⟨Regions.eq_tooLarge_of_plan hplan, ofEntries_of_plan_error hplan⟩
  | ok regions =>
    dsimp only
    split
    · next hstart =>
      obtain ⟨index, hindex, rfl⟩ := hstart
      obtain ⟨machine, hmachine, hregions⟩ := exists_of_ofEntries hplan hindex
      exact ⟨machine, hmachine, hregions, laidOut_of_ofEntries hmachine⟩
    · next hstart =>
      have hcount := (addressable_of_plan hplan).1
      have hregions := regions_putEntries_zeroed regions entries
      have hentry : ((zeroed regions).putEntries 0 entries).entryAt start =
          .error (.notAnEntry start) := by
        refine entryAt_eq_error fun index hindex heq ↦ hstart ⟨index, ?_, heq⟩
        rwa [hregions, hcount] at hindex
      unfold ofEntries
      simp only [bind, Except.bind, hplan, hentry]

end Machine

end TapeMachine
