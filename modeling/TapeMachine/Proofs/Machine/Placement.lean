import TapeMachine.Proofs.Machine.Build

/-!
# Placing a text and reading it back

`place` checks everything it needs before it writes anything. A text that can be placed is then what
the tape shows from its position down, between blanks (`tape_place`), and nothing else has changed
but the head. Conversely a machine is what its tape shows, its head and the words before them
(`Retaped.eq_of_shows`), so that placing the text of a tape on it again changes nothing.
-/

set_option autoImplicit false

namespace TapeMachine

attribute [local irreducible] Buffer.setWord Buffer.setSlot

namespace Symbol

theorem toChar_injective : Function.Injective toChar := by
  intro symbol other hchar
  have hsymbol := congrArg ofChar? hchar
  rw [ofChar?_toChar, ofChar?_toChar] at hsymbol
  exact Option.some.inj hsymbol

theorem mapM_ofChar?_toChar (symbols : List Symbol) :
    (symbols.map toChar).mapM ofChar? = some symbols := by
  induction symbols with
  | nil => rfl
  | cons symbol symbols ih =>
    rw [List.map_cons, List.mapM_cons, ih, ofChar?_toChar]
    rfl

theorem ofChar?_eq_none {c : Char} (hc : ¬ (c = '0' ∨ c = '1' ∨ c = ' ')) : ofChar? c = none := by
  rw [not_or, not_or] at hc
  rw [ofChar?, if_neg hc.1, if_neg hc.2.1, if_neg hc.2.2]

end Symbol

/-- Whether every character of a text stands for a symbol. -/
def IsTapeText (text : String) : Prop :=
  ∀ c ∈ text.toList, c = '0' ∨ c = '1' ∨ c = ' '

instance (text : String) : Decidable (IsTapeText text) :=
  List.decidableBAll _ text.toList

theorem exists_toChar_iff (chars : List Char) :
    (∃ symbols : List Symbol, chars = symbols.map Symbol.toChar) ↔
      ∀ c ∈ chars, c = '0' ∨ c = '1' ∨ c = ' ' := by
  constructor
  · rintro ⟨symbols, rfl⟩ c hc
    obtain ⟨symbol, -, rfl⟩ := List.mem_map.mp hc
    cases symbol <;> decide
  · intro hchars
    induction chars with
    | nil => exact ⟨[], rfl⟩
    | cons c chars ih =>
      obtain ⟨hc, hrest⟩ := List.forall_mem_cons.mp hchars
      obtain ⟨symbols, rfl⟩ := ih hrest
      rcases hc with rfl | rfl | rfl
      · exact ⟨.zero :: symbols, rfl⟩
      · exact ⟨.one :: symbols, rfl⟩
      · exact ⟨.blank :: symbols, rfl⟩

theorem mapM_ofChar?_eq_none {chars : List Char}
    (hchars : ¬ ∀ c ∈ chars, c = '0' ∨ c = '1' ∨ c = ' ') : chars.mapM Symbol.ofChar? = none := by
  induction chars with
  | nil => simp at hchars
  | cons c chars ih =>
    rw [List.forall_mem_cons, not_and_or] at hchars
    rw [List.mapM_cons]
    rcases hchars with hc | hrest
    · rw [Symbol.ofChar?_eq_none hc]
      rfl
    · rw [ih hrest]
      cases Symbol.ofChar? c <;> rfl

namespace Machine

variable {machine other : Machine}

/-! ### What a tape shows -/

theorem exists_tape_of_tapeText {text : String} (hshown : machine.tapeText = .ok text) :
    ∃ symbols, machine.tape = .ok symbols ∧ text.toList = symbols.map Symbol.toChar := by
  unfold tapeText at hshown
  cases htape : machine.tape with
  | error fault =>
    rw [htape] at hshown
    cases hshown
  | ok symbols =>
    rw [htape] at hshown
    cases hshown
    exact ⟨symbols, rfl, String.toList_ofList⟩

theorem length_of_tape {symbols : List Symbol} (htape : machine.tape = .ok symbols) :
    symbols.length = machine.cellCount := by
  rw [length_of_mapM_eq_ok htape, List.length_reverse, List.length_range]

/-- Every cell is on the tape, at its distance from the highest. -/
theorem exists_cell_of_tape {symbols : List Symbol} (htape : machine.tape = .ok symbols)
    {position : Nat} (hposition : position < machine.cellCount) :
    ∃ symbol, symbols[machine.cellCount - 1 - position]? = some symbol ∧
      machine.cell position = .ok symbol := by
  have hlength := length_of_tape htape
  have hindex : machine.cellCount - 1 - position < symbols.length := by omega
  have hsame := congrArg (·[machine.cellCount - 1 - position]?) (mapM_eq_ok_iff.mp htape)
  have hcell : (List.range machine.cellCount).reverse[machine.cellCount - 1 - position]? =
      some position := by
    rw [List.getElem?_reverse (by rw [List.length_range]; omega), List.length_range,
      List.getElem?_range (by omega)]
    congr 1
    omega
  simp only [List.getElem?_map, hcell, List.getElem?_eq_getElem hindex, Option.map_some,
    Option.some.injEq] at hsame
  exact ⟨_, List.getElem?_eq_getElem hindex, hsame⟩

/-- There is nothing where the cells beyond the end of the tape would be. -/
theorem byte_beyond (machine : Machine) {position : Nat}
    (hposition : machine.cellCount ≤ position) :
    machine.buffer.byte (machine.regions.cellSlot position / 4) = 0 := by
  unfold cellCount Regions.cells at hposition
  refine Buffer.byte_eq_zero ?_
  rw [machine.size_eq_wordCount, wordCount, Regions.tapeWords]
  unfold Regions.cellSlot
  omega

/-- A machine is the words before its tape, its head and the symbols in its cells. -/
theorem Retaped.eq_of_shows (h : machine.Retaped other)
    (hhead : machine.headField = other.headField)
    (hcell : ∀ position < machine.cellCount, ∃ symbol,
      machine.cell position = .ok symbol ∧ other.cell position = .ok symbol) :
    machine = other := by
  refine ext_word h.regions fun index ↦ ?_
  rcases Nat.lt_trichotomy index machine.regions.headWord with hlt | rfl | hgt
  · exact h.word index (Nat.le_of_lt_succ hlt)
  · have hfield : machine.headField = other.buffer.word other.regions.headWord := hhead
    rwa [← h.regions] at hfield
  · refine Buffer.word_eq_of_slot_eq fun slot hslot ↦ ?_
    obtain ⟨position, rfl⟩ : ∃ position, slot = machine.regions.cellSlot position := by
      refine ⟨slot - machine.regions.cellSlot 0, ?_⟩
      rw [Regions.headWord] at hgt
      unfold Regions.cellSlot
      omega
    by_cases hposition : position < machine.cellCount
    · obtain ⟨symbol, hmachine, hother⟩ := hcell position hposition
      rw [(cell_eq_ok_iff.mp hmachine).2, h.regions, (cell_eq_ok_iff.mp hother).2]
    · have hbeyond := other.byte_beyond (h.cellCount ▸ Nat.le_of_not_lt hposition)
      rw [← h.regions] at hbeyond
      rw [Buffer.slot, Buffer.slot, hbeyond, machine.byte_beyond (Nat.le_of_not_lt hposition)]

/-- Edits of the tape change no bytes but those of the head field and of the cells. -/
theorem Retaped.byte (h : machine.Retaped other) {index : Nat}
    (hhead : index / 4 ≠ machine.regions.headWord)
    (hcell : ∀ position < machine.cellCount, index ≠ machine.regions.cellSlot position / 4) :
    machine.buffer.byte index = other.buffer.byte index := by
  rcases Nat.lt_trichotomy (index / 4) machine.regions.headWord with hlt | heq | hgt
  · exact Buffer.byte_eq_of_word_eq (h.word _ (Nat.le_of_lt_succ hlt))
  · exact absurd heq hhead
  · obtain ⟨position, rfl⟩ : ∃ position, index = machine.regions.cellSlot position / 4 := by
      refine ⟨4 * index - machine.regions.cellSlot 0, ?_⟩
      rw [Regions.headWord] at hgt
      unfold Regions.cellSlot
      omega
    have hposition : machine.cellCount ≤ position := Nat.le_of_not_lt fun hlt ↦ hcell _ hlt rfl
    have hbeyond := other.byte_beyond (h.cellCount ▸ hposition)
    rw [← h.regions] at hbeyond
    rw [hbeyond, machine.byte_beyond hposition]

/-- What symbols from a position down look like on a tape that is blank otherwise, from its highest
cell. -/
theorem map_putAt {cells position : Nat} {symbols : List Symbol} (hposition : position < cells)
    (hroom : symbols.length ≤ position + 1) :
    (List.range cells).reverse.map (fun cell ↦ (putAt position symbols cell).getD .blank) =
      List.replicate (cells - 1 - position) .blank ++ symbols ++
        List.replicate (position + 1 - symbols.length) .blank := by
  refine List.ext_getElem ?_ fun k hleft hright ↦ ?_
  · simp only [List.length_map, List.length_reverse, List.length_range, List.length_append,
      List.length_replicate]
    omega
  · rw [List.length_map, List.length_reverse, List.length_range] at hleft
    rw [List.getElem_map, List.getElem_reverse, List.getElem_range, List.length_range, putAt]
    by_cases habove : k < cells - 1 - position
    · rw [if_neg (by omega), List.getElem_append_left (by simp; omega),
        List.getElem_append_left (by simpa using habove), List.getElem_replicate]
      rfl
    · rw [if_pos (by omega), show position - (cells - 1 - k) = k - (cells - 1 - position) by omega]
      by_cases hinside : k < cells - 1 - position + symbols.length
      · rw [List.getElem_append_left (by simpa using hinside),
          List.getElem_append_right (by simp; omega), List.getElem?_eq_getElem (by omega)]
        simp
      · rw [List.getElem_append_right (by simp; omega), List.getElem_replicate,
          List.getElem?_eq_none (by omega)]
        rfl

/-! ### Placing -/

/-- Whether a tape has room for a text from a position down. -/
def HasRoom (machine : Machine) (text : String) (position : Nat) : Prop :=
  position < machine.cellCount ∧ text.length ≤ position + 1

variable {text : String} {position head : Nat}

theorem place_of_foreign (htext : ¬ IsTapeText text) :
    Action.place text position head machine =
      .error (.unplaceable text .foreignCharacter) machine := by
  unfold Action.place
  rw [mapM_ofChar?_eq_none htext]
  exact Action.query_bind_error _ rfl

theorem place_of_noRoom (htext : IsTapeText text) (hroom : ¬ machine.HasRoom text position) :
    Action.place text position head machine = .error (.unplaceable text .noRoom) machine := by
  obtain ⟨symbols, hsymbols⟩ := (exists_toChar_iff _).mpr htext
  have hlength : symbols.length = text.length := by
    rw [← String.length_toList, hsymbols, List.length_map]
  unfold HasRoom at hroom
  unfold Action.place
  rw [hsymbols, Symbol.mapM_ofChar?_toChar]
  exact Action.query_bind_error _ (if_pos (by omega))

/-- The checks on the text come to an end. -/
theorem place_of_room {symbols : List Symbol} (htext : text.toList = symbols.map Symbol.toChar)
    (hroom : machine.HasRoom text position) :
    Action.place text position head machine = (do
      Action.query fun machine ↦ machine.checkPosition head
      Action.change fun machine ↦
        (machine.blankTape.putDownward position symbols).putHead head : Action Unit) machine := by
  have hlength : symbols.length = text.length := by
    rw [← String.length_toList, htext, List.length_map]
  unfold HasRoom at hroom
  unfold Action.place
  rw [htext, Symbol.mapM_ofChar?_toChar, Action.query_bind_ok _ (if_neg (by omega))]

theorem place_of_head_off (htext : IsTapeText text) (hroom : machine.HasRoom text position)
    (hhead : machine.cellCount ≤ head) :
    Action.place text position head machine =
      .error (.offTapeAt head machine.cellCount) machine := by
  obtain ⟨symbols, hsymbols⟩ := (exists_toChar_iff _).mpr htext
  rw [place_of_room hsymbols hroom]
  exact Action.query_bind_error _ (if_neg (by omega))

theorem place_eq_ok {symbols : List Symbol} (htext : text.toList = symbols.map Symbol.toChar)
    (hroom : machine.HasRoom text position) (hhead : head < machine.cellCount) :
    Action.place text position head machine =
      .ok () ((machine.blankTape.putDownward position symbols).putHead head) := by
  rw [place_of_room htext hroom]
  exact Action.query_bind_ok _ (if_pos hhead)

theorem head_place (haddressable : machine.Addressable) (position : Nat) (symbols : List Symbol)
    (hhead : head < machine.cellCount) :
    ((machine.blankTape.putDownward position symbols).putHead head).head = .ok head := by
  refine head_eq_ok_iff.mpr ⟨machine.headAt_place haddressable position symbols hhead, ?_⟩
  rwa [(machine.retaped_place position head symbols).cellCount]

/-- A placed text is what the tape shows from its position down, and around it there are blanks. -/
theorem tapeText_place {symbols : List Symbol} (htext : text.toList = symbols.map Symbol.toChar)
    (hroom : machine.HasRoom text position) :
    ((machine.blankTape.putDownward position symbols).putHead head).tapeText =
      .ok (String.ofList (List.replicate (machine.cellCount - 1 - position) ' ' ++ text.toList ++
        List.replicate (position + 1 - text.length) ' ')) := by
  have hlength : symbols.length = text.length := by
    rw [← String.length_toList, htext, List.length_map]
  have hcells := (machine.retaped_place position head symbols).cellCount
  rw [HasRoom, ← hlength] at hroom
  unfold tapeText
  rw [tape_of_cell fun cell hcell ↦ machine.cell_place hroom.1 hroom.2 (hcells ▸ hcell), hcells,
    map_putAt hroom.1 hroom.2, htext, ← hlength]
  simp only [Except.map, List.map_append, List.map_replicate, Symbol.toChar]

/-- Placing what the tape shows again, with the head where it is, changes nothing. -/
theorem place_tapeText (haddressable : machine.Addressable) (hshown : machine.tapeText = .ok text)
    (hhead : machine.head = .ok head) :
    Action.place text (machine.cellCount - 1) head machine = .ok () machine := by
  obtain ⟨hat, honTape⟩ := head_eq_ok_iff.mp hhead
  obtain ⟨symbols, htape, htext⟩ := exists_tape_of_tapeText hshown
  have hlength : symbols.length = machine.cellCount := length_of_tape htape
  have htextLength : text.length = machine.cellCount := by
    rw [← String.length_toList, htext, List.length_map, hlength]
  have hroom : machine.HasRoom text (machine.cellCount - 1) := ⟨by omega, by omega⟩
  have hretaped := machine.retaped_place (machine.cellCount - 1) head symbols
  have hplaced := machine.headAt_place haddressable (machine.cellCount - 1) symbols honTape
  rw [place_eq_ok htext hroom honTape]
  congr 1
  refine hretaped.eq_of_shows (UInt32.toNat.inj (Int.ofNat.inj (hplaced.trans hat.symm))) ?_
  intro position hposition
  rw [hretaped.cellCount] at hposition
  obtain ⟨symbol, hsymbol, hcell⟩ := exists_cell_of_tape htape hposition
  refine ⟨symbol, ?_, hcell⟩
  rw [machine.cell_place hroom.1 (by omega) hposition, putAt, if_pos (by omega), hsymbol]
  rfl

/-- A text is placed unless a character of it stands for no symbol, there is no room for it or the
head would be off the tape, and otherwise nothing happens. Where it is placed, the head is where it
was put, the tape shows the text and blanks around it, and no bytes but those of the head field and
the cells have changed. Placing what a tape shows leaves every byte as it was. -/
theorem place_exact (haddressable : machine.Addressable) (text : String) (position head : Nat) :
    (¬ IsTapeText text →
      Action.place text position head machine =
        .error (.unplaceable text .foreignCharacter) machine) ∧
    (IsTapeText text → ¬ machine.HasRoom text position →
      Action.place text position head machine = .error (.unplaceable text .noRoom) machine) ∧
    (IsTapeText text → machine.HasRoom text position → machine.cellCount ≤ head →
      Action.place text position head machine =
        .error (.offTapeAt head machine.cellCount) machine) ∧
    (IsTapeText text → machine.HasRoom text position → head < machine.cellCount →
      ∃ after, Action.place text position head machine = .ok () after ∧ after.head = .ok head ∧
        after.tapeText =
          .ok (String.ofList (List.replicate (machine.cellCount - 1 - position) ' ' ++
            text.toList ++ List.replicate (position + 1 - text.length) ' ')) ∧
        after.regions = machine.regions ∧
        ∀ index, index / 4 ≠ machine.regions.headWord →
          (∀ cell < machine.cellCount, index ≠ machine.regions.cellSlot cell / 4) →
          after.buffer.byte index = machine.buffer.byte index) ∧
    ∀ shown found, machine.tapeText = .ok shown → machine.head = .ok found →
      Action.place shown (machine.cellCount - 1) found machine = .ok () machine := by
  refine ⟨place_of_foreign, place_of_noRoom, place_of_head_off, fun htext hroom hhead ↦ ?_,
    fun shown found ↦ place_tapeText haddressable⟩
  obtain ⟨symbols, hsymbols⟩ := (exists_toChar_iff _).mpr htext
  have hretaped := machine.retaped_place position head symbols
  refine ⟨_, place_eq_ok hsymbols hroom hhead, head_place haddressable position symbols hhead,
    tapeText_place hsymbols hroom, hretaped.regions, fun index hfield hcells ↦ ?_⟩
  refine hretaped.byte ?_ fun cell hcell ↦ ?_
  · rwa [hretaped.regions]
  · rw [hretaped.regions]
    exact hcells cell (hretaped.cellCount ▸ hcell)

/-- On sixteen cells, two digits are placed from cell 7 down, and placed again as part of the whole
tape; placed from cell 0 down they have no room. -/
theorem place_exact_two_digits :
    ∃ machine after, ofProgram [.halt] 16 = .ok machine ∧
      Action.place "10" 7 7 machine = .ok () after ∧ after.head = .ok 7 ∧
      after.tapeText = .ok "        10      " ∧
      Action.place "        10      " 15 7 after = .ok () after ∧
      Action.place "10" 0 7 machine = .error (.unplaceable "10" .noRoom) machine := by
  obtain ⟨machine, hmachine⟩ := exists_eq_ok_of_toBool
    (show (ofProgram [.halt] 16).toBool = true from rfl)
  obtain ⟨hbuilt, hplan⟩ := built_of_ofEntries hmachine
  have hcells : machine.cellCount = 16 := cellCount_of_plan hplan
  have htext : IsTapeText "10" := by decide
  obtain ⟨-, -, -, hplace, -⟩ := place_exact hbuilt.addressable "10" 7 7
  obtain ⟨-, hnoRoom, -⟩ := place_exact hbuilt.addressable "10" 0 7
  obtain ⟨after, hok, hhead, hshown, hregions, -⟩ :=
    hplace htext (by rw [HasRoom, hcells]; decide) (by omega)
  rw [hcells] at hshown
  have hagain := (place_exact (hbuilt.addressable.of_regions hregions) "10" 7 7).2.2.2.2
  have hlast : after.cellCount - 1 = 15 := by
    rw [cellCount, hregions, ← cellCount, hcells]
  refine ⟨machine, after, hmachine, hok, hhead, hshown, ?_, hnoRoom htext ?_⟩
  · have hsame := hagain _ _ hshown hhead
    rwa [hlast] at hsame
  · rw [HasRoom, hcells]
    decide

end Machine

end TapeMachine
