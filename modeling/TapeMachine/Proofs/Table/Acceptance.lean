import TapeMachine.Proofs.Machine.Construction
import TapeMachine.Proofs.Table.Build
import TapeMachine.Table.Generator

/-!
# Which tables are accepted

A table is refused for the first next state that it does not have (`Table.FirstMissing`), and after
that only for its size. The machine of any other table has its program (`Machine.Tabulated`): a
`Halt`, the microcode, the halt state and the states of the table, whose offsets name them again.
A random table has all its next states as long as every number that is drawn is below its bound
(`Draw.InRange`); what it can be refused for is its size. A table with more rows than a list can
have is never drawn, so that its machine is not refused: `random_table_overflows`.
-/

set_option autoImplicit false

namespace TapeMachine

/-! ### Missing states -/

namespace Row

variable {row : Row} {last state : Nat}

/-- The next states of a row are searched in the order of the symbols. -/
theorem exists_of_find?_nexts
    (hfind : (row.nexts.find? fun state ↦ last < state) = some state) :
    ∃ read, (row.get read).next = state ∧ last < state ∧
      ∀ symbol, symbol.code < read.code → (row.get symbol).next ≤ last := by
  have hlt : last < state := by simpa using List.find?_some hfind
  simp only [nexts, PerSymbol.toList, List.map, List.find?_cons, List.find?_nil] at hfind
  by_cases hzero : last < row.zero.next
  · rw [decide_eq_true hzero] at hfind
    refine ⟨.zero, Option.some.inj hfind, hlt, fun symbol hsymbol ↦ ?_⟩
    cases symbol <;> exact absurd hsymbol (by decide)
  · rw [decide_eq_false hzero] at hfind
    have hzeroLe : row.zero.next ≤ last := Nat.le_of_not_lt hzero
    by_cases hone : last < row.one.next
    · rw [decide_eq_true hone] at hfind
      refine ⟨.one, Option.some.inj hfind, hlt, fun symbol hsymbol ↦ ?_⟩
      cases symbol with
      | zero => exact hzeroLe
      | one => exact absurd hsymbol (by decide)
      | blank => exact absurd hsymbol (by decide)
    · rw [decide_eq_false hone] at hfind
      have honeLe : row.one.next ≤ last := Nat.le_of_not_lt hone
      by_cases hblank : last < row.blank.next
      · rw [decide_eq_true hblank] at hfind
        refine ⟨.blank, Option.some.inj hfind, hlt, fun symbol hsymbol ↦ ?_⟩
        cases symbol with
        | zero => exact hzeroLe
        | one => exact honeLe
        | blank => exact absurd hsymbol (by decide)
      · rw [decide_eq_false hblank] at hfind
        cases hfind

end Row

namespace Table

variable {rows : List Row}

/-- Whether a rule goes on with a state that the table does not have, while every rule before it,
in an earlier row or for an earlier symbol of its row, goes on with one that the table has. -/
def FirstMissing (rows : List Row) (state : Nat) : Prop :=
  ∃ before row after read, rows = before ++ row :: after ∧ (row.get read).next = state ∧
    rows.length < state ∧
    (∀ earlier ∈ before, ∀ symbol, (earlier.get symbol).next ≤ rows.length) ∧
    ∀ symbol, symbol.code < read.code → (row.get symbol).next ≤ rows.length

theorem firstMissing_of_missingState {state : Nat} (hmissing : missingState? rows = some state) :
    FirstMissing rows state := by
  unfold missingState? at hmissing
  rw [List.find?_flatMap, List.findSome?_eq_some_iff] at hmissing
  obtain ⟨before, row, after, hrows, hfind, hbefore⟩ := hmissing
  obtain ⟨read, hread, hlt, hearlier⟩ := Row.exists_of_find?_nexts hfind
  exact ⟨before, row, after, read, hrows, hread, hlt,
    fun earlier hmem ↦ Row.next_le_of_find?_nexts (hbefore earlier hmem), hearlier⟩

end Table

/-! ### Draws -/

/-- Whether every number that is drawn is below its bound, whatever state the source is in. -/
def Draw.InRange {σ : Type} (draw : Draw σ) : Prop :=
  ∀ bound, 0 < bound → ∀ source, (draw bound source).1 < bound

namespace Generator

/-- The high half of the product of a draw and a bound is below the bound. -/
theorem mul_div_lt {bound : Nat} (hbound : 0 < bound) (draw : UInt64) :
    draw.toNat * bound / UInt64.size < bound := by
  refine Nat.div_lt_of_lt_mul ?_
  exact Nat.mul_lt_mul_of_pos_right draw.toNat_lt hbound

theorem belowWithin_lt {bound : Nat} (hbound : 0 < bound) (attempts : Nat)
    (generator : Generator) : (belowWithin bound attempts generator).1 < bound := by
  induction attempts generalizing generator with
  | zero => exact mul_div_lt hbound _
  | succ attempts ih =>
    rw [belowWithin]
    dsimp only
    split
    · exact ih _
    · exact mul_div_lt hbound _

theorem inRange_below : Draw.InRange below := fun _ hbound ↦ belowWithin_lt hbound _

end Generator

namespace Table

variable {σ α β : Type}

/-- Whether whatever comes of a drawing satisfies a predicate. -/
def Draws (accepted : α → Prop) (action : StateM σ α) : Prop :=
  ∀ source, accepted (action source).1

theorem draws_pure {accepted : α → Prop} {value : α} (hvalue : accepted value) :
    Draws accepted (pure value : StateM σ α) := fun _ ↦ hvalue

theorem draws_bind {first : α → Prop} {accepted : β → Prop} {action : StateM σ α}
    {next : α → StateM σ β} (haction : Draws first action)
    (hnext : ∀ value, first value → Draws accepted (next value)) :
    Draws accepted (action >>= next) := fun source ↦
  hnext _ (haction source) (action source).2

variable {draw : Draw σ} (hdraw : draw.InRange) (states : Nat)

include hdraw

theorem draws_number {bound : Nat} (hbound : 0 < bound) : Draws (· < bound) (draw bound) :=
  hdraw bound hbound

theorem draws_randomRule : Draws (fun rule ↦ rule.next ≤ states) (randomRule draw states) := by
  refine draws_bind (draws_number hdraw (Nat.succ_pos 2)) fun write _ ↦ ?_
  refine draws_bind (draws_number hdraw (Nat.succ_pos 2)) fun move _ ↦ ?_
  refine draws_bind (draws_number hdraw states.succ_pos) fun next hnext ↦ ?_
  exact draws_pure (Nat.le_of_lt_succ hnext)

theorem draws_randomRow :
    Draws (fun row ↦ ∀ read, (row.get read).next ≤ states) (randomRow draw states) := by
  refine draws_bind (draws_randomRule hdraw states) fun zero hzero ↦ ?_
  refine draws_bind (draws_randomRule hdraw states) fun one hone ↦ ?_
  refine draws_bind (draws_randomRule hdraw states) fun blank hblank ↦ ?_
  refine draws_pure fun read ↦ ?_
  cases read with
  | zero => exact hzero
  | one => exact hone
  | blank => exact hblank

theorem draws_randomRows (count : Nat) :
    Draws (fun rows ↦ rows.length = count ∧ ∀ row ∈ rows, ∀ read, (row.get read).next ≤ states)
      (randomRows draw states count) := by
  induction count with
  | zero => exact draws_pure ⟨rfl, List.forall_mem_nil _⟩
  | succ count ih =>
    refine draws_bind (draws_randomRow hdraw states) fun row hrow ↦ ?_
    refine draws_bind ih fun rows hrows ↦ ?_
    exact draws_pure ⟨congrArg Nat.succ hrows.1, List.forall_mem_cons.mpr ⟨hrow, hrows.2⟩⟩

theorem length_random (source : σ) : (random draw states source).length = states :=
  (draws_randomRows hdraw states states source).1

/-- A random table has all the states that it goes on with. -/
theorem missingState_random (source : σ) : missingState? (random draw states source) = none := by
  unfold missingState?
  rw [List.find?_eq_none]
  intro next hnext
  obtain ⟨row, hrow, hmem⟩ := List.mem_flatMap.mp hnext
  obtain ⟨rule, hrule, rfl⟩ := List.mem_map.mp hmem
  obtain ⟨read, rfl⟩ := PerSymbol.exists_get_of_mem_toList hrule
  rw [length_random hdraw]
  simpa using (draws_randomRows hdraw states states source).2 row hrow read

end Table

/-! ### Machines -/

namespace Machine

variable {rows : List Row} {cells : Nat} {machine : Machine}

/-- Whether the program of a machine is that of a table, entry by entry, and validates. -/
structure Tabulated (rows : List Row) (machine : Machine) : Prop where
  count : machine.regions.entries = 32 + rows.length
  halt : machine.entry 0 = .ok (.instruction Instruction.halt)
  microcode : ∀ k < 30, ∃ instruction, Microcode.program[k]? = some instruction ∧
    machine.entry (1 + k) = .ok (.instruction instruction)
  haltState : machine.entry 31 = .ok Row.halt.toEntry
  state : ∀ index row, rows[index]? = some row →
    ∃ rules, machine.entry (31 + (index + 1)) = .ok (.state rules) ∧
      ∀ read, (rules.get read).write = (row.get read).write ∧
        (rules.get read).move = (row.get read).move ∧
        (rules.get read).next.state? = some (row.get read).next
  valid : machine.validate = .ok ()

theorem tabulated_of_ofTable (hmachine : ofTable rows cells = .ok machine) :
    Tabulated rows machine := by
  have hcarries := carries_of_ofTable hmachine
  have hbuilt := (built_of_ofTable hmachine).1
  refine ⟨?_, ?_, ?_, ?_, ?_, validate_of_ofTable hmachine⟩
  · rw [hbuilt.count, Table.length_entries]
  · refine hbuilt.entry rfl fun hopcode ↦ ?_
    cases hopcode
  · intro k hk
    have hinstruction : Microcode.program[k]? = some _ := List.getElem?_eq_getElem hk
    exact ⟨_, hinstruction, hcarries.program.microcode k _ hinstruction⟩
  · exact hcarries.entry 0 _ rfl
  · intro index row hrow
    refine ⟨_, hcarries.entry (index + 1) row hrow, fun read ↦ ?_⟩
    have hnext := hcarries.next row (List.mem_of_getElem? hrow) read
    rw [PerSymbol.get_map]
    exact ⟨rfl, rfl, hcarries.state?_ofState hnext⟩

/-- A table that has all its states makes a machine unless it is too large. -/
theorem ofTable_of_missingState (hmissing : Table.missingState? rows = none) (cells : Nat) :
    match Regions.plan (32 + rows.length) cells with
    | .error fault =>
      fault = .tooLarge (32 + rows.length) cells ∧ ofTable rows cells = .error fault
    | .ok regions => ∃ machine, ofTable rows cells = .ok machine ∧ machine.regions = regions ∧
        Tabulated rows machine := by
  have htable : ofTable rows cells = ofEntries (Table.entries rows) cells (Table.start rows) := by
    rw [ofTable, hmissing]
  have hlength := Table.length_entries rows
  cases hplan : Regions.plan (32 + rows.length) cells with
  | error fault =>
    refine ⟨Regions.eq_tooLarge_of_plan hplan, ?_⟩
    rw [htable, ofEntries_of_plan_error (by rw [hlength, hplan])]
  | ok regions =>
    rw [← hlength] at hplan
    have hstart :
        Offset.firstStateEntry + Turing.startState rows < (Table.entries rows).length := by
      have hle := Turing.startState_le rows
      unfold Offset.firstStateEntry
      omega
    obtain ⟨machine, hmachine, hregions⟩ := exists_of_ofEntries hplan hstart
    rw [← Offset.ofState, ← Table.start_eq, ← htable] at hmachine
    exact ⟨machine, hmachine, hregions, tabulated_of_ofTable hmachine⟩

/-- More rows than a list can have are not drawn. -/
theorem ofDraws_of_overflow {σ : Type} (draw : Draw σ) {states : Nat}
    (hstates : 0x400000000000000 ≤ states) (source : σ) :
    ofDraws draw states cells source = .error .overflow := by
  unfold ofDraws Table.maxBytes Row.bytes
  exact if_pos (by omega)

/-- Else the table is drawn, and has its machine unless that is too large. -/
theorem ofDraws_of_lt {σ : Type} {draw : Draw σ} (hdraw : draw.InRange) {states : Nat}
    (hstates : states < 0x400000000000000) (cells : Nat) (source : σ) :
    match Regions.plan (32 + states) cells with
    | .error fault =>
      fault = .tooLarge (32 + states) cells ∧
        ofDraws draw states cells source = .error (.refused fault)
    | .ok regions => ∃ machine, ofDraws draw states cells source = .ok machine ∧
        machine.regions = regions ∧ Tabulated (Table.random draw states source) machine := by
  have hfits : ¬ Table.maxBytes < Row.bytes * states := by
    unfold Table.maxBytes Row.bytes
    omega
  have hcases := ofTable_of_missingState (Table.missingState_random hdraw states source) cells
  rw [Table.length_random hdraw] at hcases
  unfold ofDraws
  rw [if_neg hfits]
  cases hregions : Regions.plan (32 + states) cells with
  | error fault =>
    rw [hregions] at hcases
    obtain ⟨hfault, hrefused⟩ := hcases
    exact ⟨hfault, congrArg (Except.mapError RandomFailure.refused) hrefused⟩
  | ok regions =>
    rw [hregions] at hcases
    obtain ⟨machine, hmachine, htabulated⟩ := hcases
    exact ⟨machine, congrArg (Except.mapError RandomFailure.refused) hmachine, htabulated⟩

/-- A table is refused for the first next state that it does not have, and else for its size; any
other makes a machine that validates. So does every table that is drawn with numbers below their
bounds, up to the size, unless it has more rows than a list can have: then it is not drawn, and its
machine is not refused either. -/
theorem ofTable_exact (cells : Nat) :
    (∀ rows : List Row,
      (∃ state, Table.FirstMissing rows state ∧
        ofTable rows cells = .error (.noState state (rows.length + 1))) ∨
      (∀ row ∈ rows, ∀ read, (row.get read).next ≤ rows.length) ∧
        match Regions.plan (32 + rows.length) cells with
        | .error fault =>
          fault = .tooLarge (32 + rows.length) cells ∧ ofTable rows cells = .error fault
        | .ok regions => ∃ machine, ofTable rows cells = .ok machine ∧
            machine.regions = regions ∧ Tabulated rows machine) ∧
    ∀ (σ : Type) (draw : Draw σ), draw.InRange → ∀ (states : Nat) (source : σ),
      (0x400000000000000 ≤ states → ofDraws draw states cells source = .error .overflow) ∧
      (states < 0x400000000000000 →
        match Regions.plan (32 + states) cells with
        | .error fault =>
          fault = .tooLarge (32 + states) cells ∧
            ofDraws draw states cells source = .error (.refused fault)
        | .ok regions => ∃ machine, ofDraws draw states cells source = .ok machine ∧
            machine.regions = regions ∧ Tabulated (Table.random draw states source) machine) := by
  refine ⟨fun rows ↦ ?_, fun σ draw hdraw states source ↦
    ⟨fun hstates ↦ ofDraws_of_overflow draw hstates source,
      fun hstates ↦ ofDraws_of_lt hdraw hstates cells source⟩⟩
  cases hmissing : Table.missingState? rows with
  | some state =>
    refine .inl ⟨state, Table.firstMissing_of_missingState hmissing, ?_⟩
    rw [ofTable, hmissing]
  | none =>
    exact .inr ⟨fun row hrow ↦ Table.next_le_of_missingState hmissing hrow,
      ofTable_of_missingState hmissing cells⟩

/-- The generator draws three states for a tape of sixteen cells. -/
theorem ofTable_exact_seeded :
    Draw.InRange Generator.below ∧ ∃ machine,
      ofDraws Generator.below 3 16 (Generator.ofSeed 7) = .ok machine ∧
        machine.regions.entries = 35 ∧ machine.validate = .ok () := by
  refine ⟨Generator.inRange_below, ?_⟩
  obtain ⟨-, hdrawn⟩ := ofTable_exact 16
  have hcases := (hdrawn Generator Generator.below Generator.inRange_below 3
    (Generator.ofSeed 7)).2 (by decide)
  obtain ⟨regions, hplan⟩ : ∃ regions, Regions.plan (32 + 3) 16 = .ok regions :=
    Regions.exists_plan (by decide)
  rw [hplan] at hcases
  obtain ⟨machine, hmachine, hregions, htabulated⟩ := hcases
  exact ⟨machine, hmachine, hregions ▸ (Regions.of_plan hplan).1, htabulated.valid⟩

/-- A table of `2 ^ 58` random states is not refused, though its machine is too large. -/
theorem random_table_overflows :
    Regions.plan (32 + 0x400000000000000) 16 = .error (.tooLarge (32 + 0x400000000000000) 16) ∧
      ofDraws Generator.below 0x400000000000000 16 (Generator.ofSeed 0) = .error .overflow :=
  ⟨rfl, if_pos (by decide)⟩

end Machine

end TapeMachine
