import TapeMachine.Proofs.Collect
import TapeMachine.Proofs.Machine.Tape

/-!
# What a validated machine guarantees

`validate` accepts a machine whose entries decode, whose rules all go on with a state, and whose
instruction pointer and head are in range. `StateAt` says that an offset is that of a state with
given rules, and `Closed` that the rules of every state lead to states again; both depend on the
program alone. `Readable` says that every cell holds a symbol, which is when the tape has a text.
-/

set_option autoImplicit false

namespace TapeMachine

namespace Machine

variable {machine other : Machine}

/-! ### Entries -/

/-- The entries of a machine, one by one. -/
theorem entry_of_entries {entries : List Entry} (hentries : machine.entries = .ok entries)
    {index : Nat} {entry : Entry} :
    entries[index]? = some entry ↔ machine.entry index = .ok entry := by
  have hmap := congrArg (·[index]?) (mapM_eq_ok_iff.mp hentries)
  simp only [List.getElem?_map] at hmap
  by_cases hindex : index < machine.regions.entries
  · rw [List.getElem?_range hindex] at hmap
    cases hentry : entries[index]? with
    | none => rw [hentry] at hmap; cases hmap
    | some found =>
      rw [hentry] at hmap
      simp only [Option.map_some, Option.some.injEq] at hmap
      rw [hmap, Option.some.injEq, Except.ok.injEq]
  · rw [List.getElem?_eq_none (by rw [List.length_range]; omega)] at hmap
    have hnone : entries[index]? = none := by
      rwa [Option.map_none, eq_comm, Option.map_eq_none_iff] at hmap
    rw [hnone, Machine.entry, if_neg hindex]
    simp

/-- Whether an offset is that of a state with given rules. -/
def StateAt (machine : Machine) (offset : Offset) (rules : StateRules) : Prop :=
  ∃ index, machine.entryAt offset = .ok index ∧ machine.entry index = .ok (.state rules)

/-- Whether the rules of every state of a machine go on with a state. -/
def Closed (machine : Machine) : Prop :=
  ∀ offset rules, machine.StateAt offset rules → ∀ read, ∃ next,
    machine.StateAt (rules.get read).next next

theorem StateAt.of_sameProgram {offset : Offset} {rules : StateRules}
    (hsame : machine.SameProgram other) (haddressable : machine.Addressable)
    (hstate : machine.StateAt offset rules) : other.StateAt offset rules := by
  obtain ⟨index, hindex, hentry⟩ := hstate
  refine ⟨index, ?_, ?_⟩
  · rw [← hsame.entryAt, hindex]
  · rw [← hsame.entry haddressable, hentry]

theorem Closed.of_sameProgram (hsame : machine.SameProgram other)
    (haddressable : machine.Addressable) (hclosed : machine.Closed) : other.Closed := by
  intro offset rules hstate read
  have hback := hstate.of_sameProgram hsame.symm (hsame.addressable haddressable)
  obtain ⟨next, hnext⟩ := hclosed offset rules hback read
  exact ⟨next, hnext.of_sameProgram hsame haddressable⟩

/-- A program without stray rules is closed. -/
theorem closed_of_strayNext {entries : List Entry} (hentries : machine.entries = .ok entries)
    (hstray : Entry.strayNext? entries = none) : machine.Closed := by
  rintro offset rules ⟨index, -, hentry⟩ read
  have hmem : Entry.state rules ∈ entries :=
    List.mem_of_getElem? ((entry_of_entries hentries).mpr hentry)
  have hnext : (rules.get read).next ∈ entries.flatMap Entry.nexts := by
    rw [List.mem_flatMap]
    refine ⟨_, hmem, ?_⟩
    exact List.mem_map_of_mem (rules.get_mem_toList read)
  unfold Entry.strayNext? at hstray
  have hleads : Entry.leadsToState entries.toArray (rules.get read).next = true := by
    simpa using List.find?_eq_none.mp hstray _ hnext
  unfold Entry.leadsToState at hleads
  split at hleads
  · next found hfound =>
    obtain ⟨target, htarget, hat⟩ := Option.bind_eq_some_iff.mp hfound
    rw [List.getElem?_toArray, entry_of_entries hentries] at hat
    cases found with
    | instruction content => cases hleads
    | state next =>
      refine ⟨next, target, ?_, hat⟩
      rw [Offset.entry?_eq_some_iff] at htarget
      exact entryAt_eq_ok_iff.mpr ⟨htarget, lt_entries_of_entry hat⟩
  · cases hleads

/-! ### Cells -/

/-- Whether every cell of the tape holds a symbol. -/
def Readable (machine : Machine) : Prop :=
  ∀ position < machine.cellCount, ∃ symbol, machine.cell position = .ok symbol

theorem readable_iff_tape : machine.Readable ↔ ∃ symbols, machine.tape = .ok symbols := by
  unfold tape Readable
  rw [exists_mapM_eq_ok_iff]
  simp only [List.mem_reverse, List.mem_range]

/-- The symbols of the cells, from the highest down, make the tape. -/
theorem tape_of_cell {symbols : Nat → Symbol}
    (hcell : ∀ position < machine.cellCount, machine.cell position = .ok (symbols position)) :
    machine.tape = .ok ((List.range machine.cellCount).reverse.map symbols) := by
  unfold tape
  rw [mapM_eq_ok_iff, List.map_map]
  refine List.map_congr_left fun position hposition ↦ ?_
  exact hcell position (List.mem_range.mp (List.mem_reverse.mp hposition))

/-- The tape has a text exactly if every cell can be read. -/
theorem readable_iff_tapeText : machine.Readable ↔ ∃ text, machine.tapeText = .ok text := by
  rw [readable_iff_tape]
  unfold tapeText
  cases machine.tape with
  | error fault => simp [Except.map]
  | ok symbols => simp [Except.map]

/-! ### Validation -/

/-- On a sound program with the instruction pointer in range, only the head is left to validate. -/
theorem validate_eq {entries : List Entry} (hentries : machine.entries = .ok entries)
    (hstray : Entry.strayNext? entries = none) {index : Nat}
    (hpointer : machine.entryAt machine.pointer = .ok index) :
    machine.validate = machine.head.map fun _ ↦ () := by
  unfold validate
  simp only [hentries, hstray, hpointer, bind, Except.bind, pure, Except.pure]
  cases machine.head with
  | error fault => rfl
  | ok position => rfl

theorem of_validate_eq_ok (hvalid : machine.validate = .ok ()) :
    ∃ entries, machine.entries = .ok entries ∧ Entry.strayNext? entries = none ∧
      ∃ position, machine.head = .ok position := by
  unfold validate at hvalid
  simp only [bind, Except.bind] at hvalid
  split at hvalid
  · cases hvalid
  next entries hentries =>
  refine ⟨entries, hentries, ?_⟩
  cases hstray : Entry.strayNext? entries with
  | some next => rw [hstray] at hvalid; cases hvalid
  | none =>
    rw [hstray] at hvalid
    simp only [pure, Except.pure] at hvalid
    split at hvalid
    · cases hvalid
    split at hvalid
    · cases hvalid
    next position hposition =>
    exact ⟨rfl, position, hposition⟩

end Machine

end TapeMachine
