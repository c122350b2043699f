import TapeMachine.Regions

/-!
# Headers of images

The two word counts of an image say how many entries and how many cell words it has, and where the
second count is depends on the first. `Headed` says what a buffer must hold to be an image, and
`Refused` which of the checks is the first that a buffer fails. Between them they leave no buffer
out, and so each describes one side of what `Regions.ofHeader` answers.
-/

set_option autoImplicit false

namespace TapeMachine

namespace Regions

/-- Both sizes together determine the regions. -/
theorem eq_of_sizes {regions other : Regions} (hentries : regions.entries = other.entries)
    (hcells : regions.cellWords = other.cellWords) : regions = other := by
  cases regions
  cases other
  cases hentries
  cases hcells
  rfl

/-- Whether a buffer is the image of a machine with a number of entries and of cell words. -/
structure Headed (buffer : Buffer) (entries cellWords : Nat) : Prop where
  programWords : (buffer.word 0).toNat = 2 + 5 * entries
  tapeWords : (buffer.word (2 + 5 * entries + 50)).toNat = 2 + cellWords
  size : buffer.size = imageSize entries (16 * cellWords)

/-- Why a buffer is no image: the first of five checks that it fails. -/
inductive Refused (buffer : Buffer) : ImageError → Prop where
  /-- It ends before the word count of its program. -/
  | short (hsize : buffer.size < 4) : Refused buffer (.tooShort buffer.size)
  /-- No number of entries takes up as many words. -/
  | ragged (hsize : 4 ≤ buffer.size)
    (hprogram : ∀ entries, (buffer.word 0).toNat ≠ 2 + 5 * entries) :
    Refused buffer (.raggedProgram (buffer.word 0))
  /-- It ends before the word count of its tape. -/
  | cut {entries : Nat} (hsize : 4 ≤ buffer.size)
    (hprogram : (buffer.word 0).toNat = 2 + 5 * entries)
    (hcut : buffer.size < 4 * (2 + 5 * entries) + 204) : Refused buffer (.tooShort buffer.size)
  /-- Its tape has a header and no cells. -/
  | empty {entries : Nat} (hprogram : (buffer.word 0).toNat = 2 + 5 * entries)
    (hsize : 4 * (2 + 5 * entries) + 204 ≤ buffer.size)
    (htape : (buffer.word (2 + 5 * entries + 50)).toNat ≤ 2) :
    Refused buffer (.emptyTape (buffer.word (2 + 5 * entries + 50)))
  /-- It does not end where its headers say. -/
  | mismatch {entries cellWords : Nat} (hprogram : (buffer.word 0).toNat = 2 + 5 * entries)
    (hsize : 4 * (2 + 5 * entries) + 204 ≤ buffer.size) (hcells : 1 ≤ cellWords)
    (htape : (buffer.word (2 + 5 * entries + 50)).toNat = 2 + cellWords)
    (hne : buffer.size ≠ imageSize entries (16 * cellWords)) :
    Refused buffer (.lengthMismatch (imageSize entries (16 * cellWords)) buffer.size)

variable {buffer : Buffer} {regions : Regions}

/-- Images have regions. -/
theorem Headed.ofHeader_eq {entries cellWords : Nat} (hheaded : Headed buffer entries cellWords)
    (hcells : 1 ≤ cellWords) :
    ∃ regions, ofHeader buffer = .ok regions ∧ regions.entries = entries ∧
      regions.cellWords = cellWords := by
  obtain ⟨hprogram, htape, hsize⟩ := hheaded
  rw [imageSize] at hsize
  unfold ofHeader
  simp only [hprogram, htape]
  rw [if_neg (by omega), dif_neg (by omega), if_neg (by omega), dif_neg (by omega), if_pos]
  · refine ⟨_, rfl, ?_, ?_⟩
    · dsimp only
      omega
    · dsimp only
      omega
  · rw [size_eq_imageSize, imageSize, cells]
    dsimp only
    omega

/-- What is no image is refused for the first check that it fails. -/
theorem Refused.ofHeader_eq {error : ImageError} (hrefused : Refused buffer error) :
    ofHeader buffer = .error error := by
  unfold ofHeader
  cases hrefused with
  | short hsize => exact if_pos hsize
  | ragged hsize hprogram =>
    dsimp only
    have hrest := hprogram (((buffer.word 0).toNat - 2) / 5)
    rw [if_neg (by omega), dif_pos (by omega)]
  | cut hsize hprogram hcut =>
    simp only [hprogram]
    rw [if_neg (by omega), dif_neg (by omega), if_pos (by omega)]
  | empty hprogram hsize htape =>
    simp only [hprogram]
    rw [if_neg (by omega), dif_neg (by omega), if_neg (by omega), dif_pos htape]
  | @mismatch entries cellWords hprogram hsize hcells htape hne =>
    simp only [hprogram, htape, size_eq_imageSize]
    have hentries : (2 + 5 * entries - 2) / 5 = entries := by omega
    have hwords : 16 * (2 + cellWords - 2) = 16 * cellWords := by omega
    rw [if_neg (by omega), dif_neg (by omega), if_neg (by omega), dif_neg (by omega)]
    simp only [cells, hentries, hwords]
    exact if_neg hne.symm

/-- Every buffer is an image or fails a check. -/
theorem headed_or_refused (buffer : Buffer) :
    (∃ entries cellWords, 1 ≤ cellWords ∧ Headed buffer entries cellWords) ∨
      ∃ error, Refused buffer error := by
  by_cases hshort : buffer.size < 4
  · exact Or.inr ⟨_, .short hshort⟩
  have hsize := Nat.le_of_not_lt hshort
  by_cases hragged : ∀ entries, (buffer.word 0).toNat ≠ 2 + 5 * entries
  · exact Or.inr ⟨_, .ragged hsize hragged⟩
  obtain ⟨entries, hprogram⟩ : ∃ entries, (buffer.word 0).toNat = 2 + 5 * entries := by
    simpa using hragged
  by_cases hends : buffer.size < 4 * (2 + 5 * entries) + 204
  · exact Or.inr ⟨_, .cut hsize hprogram hends⟩
  have hcut := Nat.le_of_not_lt hends
  by_cases hempty : (buffer.word (2 + 5 * entries + 50)).toNat ≤ 2
  · exact Or.inr ⟨_, .empty hprogram hcut hempty⟩
  obtain ⟨cellWords, hcells, htape⟩ : ∃ cellWords, 1 ≤ cellWords ∧
      (buffer.word (2 + 5 * entries + 50)).toNat = 2 + cellWords :=
    ⟨(buffer.word (2 + 5 * entries + 50)).toNat - 2, by omega, by omega⟩
  by_cases hend : buffer.size = imageSize entries (16 * cellWords)
  · exact Or.inl ⟨entries, cellWords, hcells, hprogram, htape, hend⟩
  · exact Or.inr ⟨_, .mismatch hprogram hcut hcells htape hend⟩

theorem ofHeader_eq_ok_iff :
    ofHeader buffer = .ok regions ↔ Headed buffer regions.entries regions.cellWords := by
  constructor
  · intro hregions
    rcases headed_or_refused buffer with ⟨entries, cellWords, hcells, hheaded⟩ | ⟨error, hrefused⟩
    · obtain ⟨found, hfound, rfl, rfl⟩ := hheaded.ofHeader_eq hcells
      rw [hregions] at hfound
      cases hfound
      exact hheaded
    · rw [hrefused.ofHeader_eq] at hregions
      cases hregions
  · intro hheaded
    obtain ⟨found, hfound, hentries, hcells⟩ := hheaded.ofHeader_eq regions.cellWords_pos
    rw [hfound, eq_of_sizes hentries hcells]

theorem ofHeader_eq_error_iff {error : ImageError} :
    ofHeader buffer = .error error ↔ Refused buffer error := by
  constructor
  · intro herror
    rcases headed_or_refused buffer with ⟨entries, cellWords, hcells, hheaded⟩ | ⟨other, hrefused⟩
    · obtain ⟨found, hfound, -⟩ := hheaded.ofHeader_eq hcells
      rw [herror] at hfound
      cases hfound
    · have hother := hrefused.ofHeader_eq
      rw [herror] at hother
      cases hother
      exact hrefused
  · exact Refused.ofHeader_eq

/-! ### Word counts -/

/-- The word counts of regions fit a word, so that nothing is lost when they are cut to one. -/
theorem toNat_programWordCount (regions : Regions) :
    (programWordCount regions.entries).toNat = regions.programWords := by
  have hlt := regions.programWords_lt
  rw [programWordCount, UInt32.toNat_ofNat', programWords]
  omega

theorem toNat_tapeWordCount (regions : Regions) :
    (tapeWordCount regions.cells).toNat = regions.tapeWords := by
  have hlt := regions.tapeWords_lt
  rw [tapeWordCount, UInt32.toNat_ofNat', tapeWords, cells]
  omega

end Regions

end TapeMachine
