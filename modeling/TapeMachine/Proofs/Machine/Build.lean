import TapeMachine.Machine.Build
import TapeMachine.Proofs.Entry.Codec
import TapeMachine.Proofs.Machine.Retaping
import TapeMachine.Proofs.Machine.Validation

/-!
# What a new machine holds

`Machine.ofEntries` gives an addressable machine that holds the entries it was given
(`entry_of_ofEntries`), with both word counts right, the instruction pointer at its start, the head
on the first cell and a blank tape.
-/

set_option autoImplicit false

namespace TapeMachine

attribute [local irreducible] Buffer.setWord Buffer.setSlot

namespace Machine

variable {machine : Machine}

/-! ### Entries -/

theorem word_setEntryWords {index : Nat} (hindex : index < machine.regions.entries)
    (words : EntryWords) {base : Nat} (hbase : (Offset.ofEntry index).toNat / 32 = base)
    (word : Nat) :
    (machine.setEntryWords index words).buffer.word word =
      if word = base + 4 then words.fourth else if word = base + 3 then words.third
      else if word = base + 2 then words.second else if word = base + 1 then words.first
      else if word = base then words.opcode else machine.buffer.word word := by
  have hword : ∀ k < 5, base + k < machine.wordCount := fun k hk ↦
    machine.lt_wordCount_of_lt_programWords (hbase ▸ machine.regions.entryWord_lt hindex hk)
  unfold setEntryWords
  dsimp only
  rw [hbase, word_setWord _ _ (by exact hword 4 (by decide)),
    word_setWord _ _ (by exact hword 3 (by decide)),
    word_setWord _ _ (by exact hword 2 (by decide)),
    word_setWord _ _ (by exact hword 1 (by decide)),
    word_setWord _ _ (by exact hword 0 (by decide))]

/-- An entry holds the words that were put there, and every other entry what it held. -/
theorem entryWords_setEntryWords (haddressable : machine.Addressable) {index other : Nat}
    (hindex : index < machine.regions.entries) (hother : other < machine.regions.entries)
    (words : EntryWords) :
    (machine.setEntryWords index words).entryWords other =
      if other = index then words else machine.entryWords other := by
  have hbase := haddressable.toNat_ofEntry hindex
  have hotherBase := haddressable.toNat_ofEntry hother
  have hword := word_setEntryWords hindex words rfl
  by_cases hsame : other = index
  · rw [if_pos hsame, hsame]
    unfold entryWords
    simp only [hword]
    simp
  · rw [if_neg hsame]
    refine entryWords_congr fun k hk ↦ ?_
    rw [hword, if_neg (by omega), if_neg (by omega), if_neg (by omega), if_neg (by omega),
      if_neg (by omega)]

theorem regions_setEntryWords (machine : Machine) (index : Nat) (words : EntryWords) :
    (machine.setEntryWords index words).regions = machine.regions := rfl

theorem putEntries_nil (machine : Machine) (index : Nat) : machine.putEntries index [] = machine :=
  rfl

theorem putEntries_cons (machine : Machine) (index : Nat) (entry : Entry) (entries : List Entry) :
    machine.putEntries index (entry :: entries) =
      (machine.setEntryWords index entry.encode).putEntries (index + 1) entries := rfl

theorem regions_putEntries (machine : Machine) (index : Nat) (entries : List Entry) :
    (machine.putEntries index entries).regions = machine.regions := by
  induction entries generalizing machine index with
  | nil => rfl
  | cons entry entries ih => exact ih _ _

theorem Addressable.of_regions {other : Machine} (hregions : other.regions = machine.regions)
    (haddressable : machine.Addressable) : other.Addressable := by
  rw [Addressable, bits_eq, wordCount] at *
  rwa [hregions]

/-- Entries are found where they were put. -/
theorem entryWords_putEntries (haddressable : machine.Addressable) {start : Nat}
    {entries : List Entry} (hroom : start + entries.length ≤ machine.regions.entries) {index : Nat}
    (hindex : index < machine.regions.entries) :
    (machine.putEntries start entries).entryWords index =
      if start ≤ index then (entries[index - start]?.map Entry.encode).getD
        (machine.entryWords index)
      else machine.entryWords index := by
  induction entries generalizing machine start with
  | nil =>
    rw [putEntries_nil]
    split
    · rfl
    · rfl
  | cons entry entries ih =>
    rw [List.length_cons] at hroom
    have hstart : start < machine.regions.entries := by omega
    have hput := entryWords_setEntryWords haddressable hstart hindex entry.encode
    have hregions := machine.regions_setEntryWords start entry.encode
    have hnext : start + 1 + entries.length ≤
        (machine.setEntryWords start entry.encode).regions.entries := by
      rw [hregions]
      omega
    have hrest := ih (haddressable.of_regions hregions) hnext (hregions ▸ hindex)
    rw [putEntries_cons, hrest, hput]
    rcases Nat.lt_trichotomy index start with hlt | rfl | hgt
    · rw [if_neg (by omega), if_neg (by omega), if_neg (by omega)]
    · rw [if_neg (by omega), if_pos rfl, if_pos (Nat.le_refl _), Nat.sub_self]
      rfl
    · rw [if_pos (by omega), if_neg (by omega), if_pos (by omega),
        show index - start = index - (start + 1) + 1 by omega, List.getElem?_cons_succ]

/-! ### Headers -/

/-- The words that the headers of a new machine do not change. -/
theorem word_withHeaders (machine : Machine) (start : Offset) {index : Nat}
    (hindex : index ≤ machine.regions.tapeWord) :
    (machine.withHeaders start).buffer.word index =
      if index = machine.regions.tapeWord then UInt32.ofNat machine.regions.tapeWords
      else if index = 1 then start
      else if index = 0 then UInt32.ofNat machine.regions.programWords
      else machine.buffer.word index := by
  have hone := machine.lt_wordCount_of_lt_programWords machine.regions.two_le_programWords
  have htape : machine.regions.tapeWord < machine.wordCount := by
    have hhead := machine.headWord_lt_wordCount
    rw [Regions.headWord] at hhead
    omega
  unfold withHeaders
  rw [(retaped_blankTape _).word index (by rw [(retaped_blankTape _).regions]; exact hindex),
    (retaped_putHead _ 0).word index (by exact hindex), word_setWord _ _ (by exact htape),
    word_setWord _ _ (by exact hone), word_setWord _ _ (by exact Nat.lt_of_succ_lt hone)]

/-- A machine that was just built. -/
structure Built (entries : List Entry) (start : Offset) (machine : Machine) : Prop where
  addressable : machine.Addressable
  count : machine.regions.entries = entries.length
  programWords : machine.buffer.word 0 = UInt32.ofNat machine.regions.programWords
  tapeWords : machine.buffer.word machine.regions.tapeWord =
    UInt32.ofNat machine.regions.tapeWords
  pointer : machine.pointer = start
  entryAt : ∃ index, machine.entryAt start = .ok index
  headAt : machine.HeadAt 0
  cell : ∀ position < machine.cellCount, machine.cell position = .ok .blank
  entryWords : ∀ index entry, entries[index]? = some entry →
    machine.entryWords index = entry.encode

theorem regions_withHeaders (machine : Machine) (start : Offset) :
    (machine.withHeaders start).regions = machine.regions :=
  (retaped_blankTape _).regions

/-- The headers complete a machine that holds its entries. -/
theorem built_withHeaders (haddressable : machine.Addressable) {entries : List Entry}
    (hcount : machine.regions.entries = entries.length) {start : Offset}
    (hstart : ∃ index, machine.entryAt start = .ok index)
    (hentries : ∀ index entry, entries[index]? = some entry →
      machine.entryWords index = entry.encode) :
    Built entries start (machine.withHeaders start) := by
  have hregions := machine.regions_withHeaders start
  have htwo := machine.regions.two_le_programWords
  have htape := machine.regions.tapeWord_eq
  have hcells : (machine.withHeaders start).cellCount = machine.cellCount := by
    rw [cellCount, cellCount, hregions]
  refine ⟨haddressable.of_regions hregions, by rw [hregions, hcount], ?_, ?_, ?_, ?_, ?_, ?_, ?_⟩
  · rw [machine.word_withHeaders start (Nat.zero_le _), if_neg (by omega), if_neg (by decide),
      if_pos rfl, hregions]
  · rw [hregions, machine.word_withHeaders start (Nat.le_refl _), if_pos rfl]
  · rw [pointer, machine.word_withHeaders start (by omega), if_neg (by omega), if_pos rfl]
  · obtain ⟨index, hindex⟩ := hstart
    refine ⟨index, ?_⟩
    rw [entryAt_eq_ok_iff] at hindex ⊢
    rwa [hregions]
  · unfold HeadAt withHeaders
    rw [headField_blankTape, putHead, headField_setHeadField]
    rfl
  · intro position hposition
    exact cell_blankTape _ (hcells ▸ hposition)
  · intro index entry hentry
    rw [← hentries index entry hentry]
    have hindex : index < machine.regions.entries :=
      hcount ▸ (List.getElem?_eq_some_iff.mp hentry).1
    have hbase := haddressable.toNat_ofEntry hindex
    refine entryWords_congr fun k hk ↦ ?_
    have hlt := machine.regions.entryWord_lt hindex hk
    rw [machine.word_withHeaders start (by omega), if_neg (by omega), if_neg (by omega),
      if_neg (by omega)]

/-- The entries of a new machine are the ones it was built from. -/
theorem Built.entry {entries : List Entry} {start : Offset} (hbuilt : Built entries start machine)
    {index : Nat} {entry : Entry} (hentry : entries[index]? = some entry)
    (hstored : entry.opcode = .transition → entry.isState = true) :
    machine.entry index = .ok entry := by
  have hindex : index < machine.regions.entries := by
    rw [hbuilt.count]
    exact (List.getElem?_eq_some_iff.mp hentry).1
  rw [Machine.entry, if_pos hindex, hbuilt.entryWords index entry hentry,
    Entry.decode_encode _ hstored]

/-- The head of a new machine is on the first cell; there always is one. -/
theorem Built.head {entries : List Entry} {start : Offset} (hbuilt : Built entries start machine) :
    machine.head = .ok 0 := by
  refine head_eq_ok_iff.mpr ⟨hbuilt.headAt, ?_⟩
  have hwords := machine.regions.cellWords_pos
  unfold cellCount Regions.cells
  omega

theorem Built.entries_eq {entries : List Entry} {start : Offset}
    (hbuilt : Built entries start machine)
    (hstored : ∀ entry ∈ entries, entry.opcode = .transition → entry.isState = true) :
    machine.entries = .ok entries := by
  unfold Machine.entries
  rw [mapM_eq_ok_iff, hbuilt.count]
  refine List.ext_getElem? fun index ↦ ?_
  rw [List.getElem?_map, List.getElem?_map]
  by_cases hindex : index < entries.length
  · have hentry := List.getElem?_eq_getElem hindex
    rw [List.getElem?_range hindex, hentry, Option.map_some, Option.map_some,
      hbuilt.entry hentry (hstored _ (List.getElem_mem hindex))]
  · rw [List.getElem?_eq_none (by rw [List.length_range]; omega),
      List.getElem?_eq_none (by omega)]
    rfl

theorem addressable_of_plan {entries cells : Nat} {regions : Regions}
    (hplan : Regions.plan entries cells = .ok regions) :
    regions.entries = entries ∧ (zeroed regions).Addressable := by
  obtain ⟨hentries, -, hsize⟩ := Regions.of_plan hplan
  refine ⟨hentries, ?_⟩
  rw [Addressable, Buffer.bits, (zeroed regions).size_eq]
  exact hsize

/-- The tape of a new machine is as long as asked for, rounded up to whole words. -/
theorem cellCount_of_plan {entries cells : Nat}
    (hplan : Regions.plan entries cells = .ok machine.regions) :
    machine.cellCount = 16 * ((max cells 1 + 15) / 16) := by
  rw [cellCount, Regions.cells, (Regions.of_plan hplan).2.1]

/-- What can be seen to succeed has a result. -/
theorem exists_eq_ok_of_toBool {ε α : Type} {attempt : Except ε α}
    (hattempt : attempt.toBool = true) : ∃ result, attempt = .ok result := by
  cases attempt with
  | error fault => cases hattempt
  | ok result => exact ⟨result, rfl⟩

/-- A new machine is its entries, put into a buffer of zeros, with headers. -/
theorem of_ofEntries {entries : List Entry} {cells : Nat} {start : Offset}
    (hmachine : ofEntries entries cells start = .ok machine) :
    ∃ regions found, Regions.plan entries.length cells = .ok regions ∧
      ((zeroed regions).putEntries 0 entries).entryAt start = .ok found ∧
      machine = ((zeroed regions).putEntries 0 entries).withHeaders start := by
  unfold ofEntries at hmachine
  simp only [bind, Except.bind] at hmachine
  split at hmachine
  · cases hmachine
  next regions hplan =>
  split at hmachine
  · cases hmachine
  next found hfound =>
  cases hmachine
  exact ⟨regions, found, hplan, hfound, rfl⟩

/-- What was built holds what it was built from. -/
theorem built_of_ofEntries {entries : List Entry} {cells : Nat} {start : Offset}
    (hmachine : ofEntries entries cells start = .ok machine) :
    Built entries start machine ∧ Regions.plan entries.length cells = .ok machine.regions := by
  obtain ⟨regions, found, hplan, hfound, rfl⟩ := of_ofEntries hmachine
  obtain ⟨hcount, haddressable⟩ := addressable_of_plan hplan
  have hregions := (zeroed regions).regions_putEntries 0 entries
  refine ⟨built_withHeaders (haddressable.of_regions hregions) ?_ ⟨found, hfound⟩ ?_, ?_⟩
  · rw [hregions]
    exact hcount
  · intro index entry hentry
    have hlength : 0 + entries.length ≤ (zeroed regions).regions.entries := by
      rw [Nat.zero_add, ← hcount]
      exact Nat.le_refl _
    have hindex : index < (zeroed regions).regions.entries := by
      have hlt := (List.getElem?_eq_some_iff.mp hentry).1
      omega
    rw [entryWords_putEntries haddressable hlength hindex, if_pos (Nat.zero_le _), Nat.sub_zero,
      hentry]
    rfl
  · rw [regions_withHeaders, hregions, hplan]
    rfl

end Machine

end TapeMachine
