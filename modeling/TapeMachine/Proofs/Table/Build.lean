import TapeMachine.Proofs.Machine.Build
import TapeMachine.Proofs.Microcode.Transition
import TapeMachine.Table
import TapeMachine.Turing

/-!
# Machines of tables

A machine carries a table if its program has the microcode and an entry for each state, and no rule
of the table leads outside it. The machine that is built for a table carries it
(`carries_of_ofTable`), starts in its first state and validates (`validate_of_ofTable`).
-/

set_option autoImplicit false

namespace TapeMachine

attribute [local irreducible] Buffer.setWord Buffer.setSlot

theorem Turing.startState_le (rows : List Row) : startState rows ≤ rows.length := by
  unfold startState
  cases rows with
  | nil => exact Nat.le_refl 0
  | cons row rows => exact Nat.succ_le_succ (Nat.zero_le _)

theorem PerSymbol.exists_get_of_mem_toList {α : Type} {choices : PerSymbol α} {choice : α}
    (hchoice : choice ∈ choices.toList) : ∃ symbol, choices.get symbol = choice := by
  simp only [toList, List.mem_cons, List.not_mem_nil, or_false] at hchoice
  rcases hchoice with rfl | rfl | rfl
  · exact ⟨.zero, rfl⟩
  · exact ⟨.one, rfl⟩
  · exact ⟨.blank, rfl⟩

theorem Row.next_le_of_find?_nexts {row : Row} {last : Nat}
    (hfind : (row.nexts.find? fun state ↦ last < state) = none) (read : Symbol) :
    (row.get read).next ≤ last := by
  have hmem : (row.get read).next ∈ row.nexts := List.mem_map_of_mem (row.get_mem_toList read)
  have hnot := List.find?_eq_none.mp hfind _ hmem
  simpa using hnot

namespace Table

variable {rows : List Row}

theorem start_eq (rows : List Row) : start rows = Offset.ofState (Turing.startState rows) := by
  unfold start Turing.startState
  split
  · rfl
  · rfl

theorem next_le_of_missingState (hmissing : missingState? rows = none) {row : Row}
    (hrow : row ∈ rows) (read : Symbol) : (row.get read).next ≤ rows.length := by
  unfold missingState? at hmissing
  rw [List.find?_flatMap, List.findSome?_eq_none_iff] at hmissing
  exact Row.next_le_of_find?_nexts (hmissing row hrow) read

theorem length_entries (rows : List Row) : (entries rows).length = 32 + rows.length := by
  have hmicrocode : (Microcode.program.map Entry.instruction).length = 30 := rfl
  unfold entries
  rw [List.length_append, List.length_cons, hmicrocode, List.length_map, List.length_cons]
  omega

theorem entries_microcode (rows : List Row) {k : Nat} {instruction : Instruction}
    (hinstruction : Microcode.program[k]? = some instruction) :
    (entries rows)[Offset.firstMicrocodeEntry + k]? = some (.instruction instruction) := by
  have hk : k < 30 := (List.getElem?_eq_some_iff.mp hinstruction).1
  unfold entries Offset.firstMicrocodeEntry
  rw [List.cons_append, Nat.add_comm, List.getElem?_cons_succ, List.getElem?_append_left,
    List.getElem?_map, hinstruction]
  · rfl
  · rw [List.length_map]
    exact hk

theorem entries_state {state : Nat} {row : Row} (hrow : (Row.halt :: rows)[state]? = some row) :
    (entries rows)[Offset.firstStateEntry + state]? = some row.toEntry := by
  have hlength : (Microcode.program.map Entry.instruction).length = 30 := rfl
  unfold entries Offset.firstStateEntry
  rw [List.cons_append, show 31 + state = 30 + state + 1 by omega, List.getElem?_cons_succ,
    List.getElem?_append_right (by omega), hlength, Nat.add_sub_cancel_left, List.getElem?_map,
    hrow]
  rfl

/-- No instruction of the program of a table is taken for a state. -/
theorem stored_of_mem_entries {entry : Entry} (hentry : entry ∈ entries rows) :
    entry.opcode = .transition → entry.isState = true := by
  unfold entries at hentry
  rw [List.cons_append, List.mem_cons, List.mem_append] at hentry
  rcases hentry with rfl | hentry | hentry
  · intro hopcode
    cases hopcode
  · obtain ⟨instruction, hinstruction, rfl⟩ := List.mem_map.mp hentry
    exact fun hopcode ↦ absurd hopcode (Microcode.opcode_of_mem hinstruction).2
  · obtain ⟨row, -, rfl⟩ := List.mem_map.mp hentry
    exact fun _ ↦ rfl

/-- Every rule goes on with a state of the table or with the halt state. -/
theorem next_of_mem_entries (hmissing : missingState? rows = none) {next : Offset}
    (hnext : next ∈ (entries rows).flatMap Entry.nexts) :
    ∃ state ≤ rows.length, next = Offset.ofState state := by
  obtain ⟨entry, hentry, hmem⟩ := List.mem_flatMap.mp hnext
  unfold entries at hentry
  rw [List.cons_append, List.mem_cons, List.mem_append] at hentry
  rcases hentry with rfl | hentry | hentry
  · cases hmem
  · obtain ⟨instruction, -, rfl⟩ := List.mem_map.mp hentry
    cases hmem
  · obtain ⟨row, hrow, rfl⟩ := List.mem_map.mp hentry
    obtain ⟨rule, hrule, rfl⟩ := List.mem_map.mp hmem
    obtain ⟨read, rfl⟩ := PerSymbol.exists_get_of_mem_toList hrule
    rw [PerSymbol.get_map]
    refine ⟨(row.get read).next, ?_, rfl⟩
    rcases List.mem_cons.mp hrow with rfl | hrow
    · rw [Row.halt, PerSymbol.get_ofFun]
      exact Nat.zero_le _
    · exact next_le_of_missingState hmissing hrow read

/-- No rule of a table leads to anything but a state. -/
theorem strayNext_entries (hmissing : missingState? rows = none)
    (hcount : Offset.firstStateEntry + rows.length ≤ Offset.lastEntry) :
    Entry.strayNext? (entries rows) = none := by
  unfold Entry.strayNext?
  rw [List.find?_eq_none]
  intro next hnext
  obtain ⟨state, hstate, rfl⟩ := next_of_mem_entries hmissing hnext
  have hlt : state < (Row.halt :: rows).length := by
    rw [List.length_cons]
    omega
  have hentry := entries_state (List.getElem?_eq_getElem hlt)
  have hoffset : Offset.entry? (Offset.ofState state) = some (Offset.firstStateEntry + state) :=
    Offset.entry?_eq_some_iff.mpr (Offset.toNat_ofEntry (by omega))
  unfold Entry.leadsToState
  rw [hoffset, Option.bind_some, List.getElem?_toArray, hentry]
  simp [Row.toEntry, Entry.isState]

end Table

namespace Machine

/-- Whether the program of a machine is that of a table. -/
structure Carries (rows : List Row) (machine : Machine) : Prop where
  program : machine.Microprogrammed
  entry : ∀ state row, (Row.halt :: rows)[state]? = some row →
    machine.entry (Offset.firstStateEntry + state) = .ok row.toEntry
  next : ∀ row ∈ rows, ∀ read, (row.get read).next ≤ rows.length

variable {rows : List Row} {cells : Nat} {machine other : Machine}

theorem Carries.of_sameProgram (hsame : machine.SameProgram other)
    (hcarries : machine.Carries rows) : other.Carries rows := by
  refine ⟨hsame.microprogrammed hcarries.program, fun state row hrow ↦ ?_, hcarries.next⟩
  rw [← hsame.entry hcarries.program.addressable, hcarries.entry state row hrow]

theorem Carries.stateAt (hcarries : machine.Carries rows) {state : Nat} {row : Row}
    (hrow : (Row.halt :: rows)[state]? = some row) :
    machine.StateAt (Offset.ofState state) (row.map (Rule.map Offset.ofState)) := by
  have hentry := hcarries.entry state row hrow
  exact ⟨_, hcarries.program.addressable.entryAt_ofEntry (lt_entries_of_entry hentry), hentry⟩

/-- The offset of a state names the state. -/
theorem Carries.state?_ofState (hcarries : machine.Carries rows) {state : Nat}
    (hstate : state ≤ rows.length) : (Offset.ofState state).state? = some state := by
  have hlt : state < (Row.halt :: rows).length := Nat.lt_succ_of_le hstate
  have hentry := lt_entries_of_entry (hcarries.entry state _ (List.getElem?_eq_getElem hlt))
  have hoffset := hcarries.program.addressable.toNat_ofEntry hentry
  rw [Offset.ofState, Offset.state?_of_toNat hoffset, if_pos (Nat.le_add_right _ _),
    Nat.add_sub_cancel_left]

/-- Only the halt state has the offset of the halt state. -/
theorem Carries.ofState_eq_halt_iff (hcarries : machine.Carries rows) {state : Nat}
    (hstate : state ≤ rows.length) : Offset.ofState state = Offset.halt ↔ state = 0 := by
  constructor
  · intro heq
    have hnamed := hcarries.state?_ofState hstate
    rw [heq] at hnamed
    exact (Option.some.inj hnamed).symm
  · rintro rfl
    rfl

/-! ### Building -/

theorem built_of_ofTable (hmachine : ofTable rows cells = .ok machine) :
    Built (Table.entries rows) (Table.start rows) machine ∧ Table.missingState? rows = none := by
  unfold ofTable at hmachine
  split at hmachine
  · cases hmachine
  · next hmissing => exact ⟨(built_of_ofEntries hmachine).1, hmissing⟩

/-- The tape of the machine of a table is as long as asked for, rounded up to whole words. -/
theorem cellCount_of_ofTable (hmachine : ofTable rows cells = .ok machine) :
    machine.cellCount = 16 * ((max cells 1 + 15) / 16) := by
  unfold ofTable at hmachine
  split at hmachine
  · cases hmachine
  · exact cellCount_of_plan (built_of_ofEntries hmachine).2

/-- The machine of a table has its program. -/
theorem carries_of_ofTable (hmachine : ofTable rows cells = .ok machine) :
    machine.Carries rows := by
  obtain ⟨hbuilt, hmissing⟩ := built_of_ofTable hmachine
  refine ⟨⟨hbuilt.addressable, hbuilt.programWords, fun k instruction hinstruction ↦ ?_⟩,
    fun state row hrow ↦ ?_, fun row hrow read ↦ ?_⟩
  · have hentry := Table.entries_microcode rows hinstruction
    exact hbuilt.entry hentry (Table.stored_of_mem_entries (List.mem_of_getElem? hentry))
  · exact hbuilt.entry (Table.entries_state hrow) fun _ ↦ rfl
  · exact Table.next_le_of_missingState hmissing hrow read

theorem pointer_of_ofTable (hmachine : ofTable rows cells = .ok machine) :
    machine.pointer = Offset.ofState (Turing.startState rows) := by
  rw [(built_of_ofTable hmachine).1.pointer, Table.start_eq]

/-- The machine of a table starts on a state. -/
theorem stateAt_of_ofTable (hmachine : ofTable rows cells = .ok machine) :
    ∃ rules, machine.StateAt machine.pointer rules := by
  have hstart : Turing.startState rows < (Row.halt :: rows).length :=
    Nat.lt_succ_of_le (Turing.startState_le rows)
  rw [pointer_of_ofTable hmachine]
  exact ⟨_, (carries_of_ofTable hmachine).stateAt (List.getElem?_eq_getElem hstart)⟩

/-- The machine of a table validates. -/
theorem validate_of_ofTable (hmachine : ofTable rows cells = .ok machine) :
    machine.validate = .ok () := by
  obtain ⟨hbuilt, hmissing⟩ := built_of_ofTable hmachine
  obtain ⟨index, hindex⟩ := hbuilt.entryAt
  rw [← hbuilt.pointer] at hindex
  have hcount : Offset.firstStateEntry + rows.length ≤ Offset.lastEntry := by
    have hwords := hbuilt.addressable.wordCount_lt
    have hentries := hbuilt.count
    have hlength := Table.length_entries rows
    rw [wordCount, Regions.tapeWord_eq, Regions.programWords] at hwords
    unfold Offset.firstStateEntry Offset.lastEntry
    omega
  rw [validate_eq (hbuilt.entries_eq fun _ ↦ Table.stored_of_mem_entries)
    (Table.strayNext_entries hmissing hcount) hindex, hbuilt.head]
  rfl

end Machine

end TapeMachine
