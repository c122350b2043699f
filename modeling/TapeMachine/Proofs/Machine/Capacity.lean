import TapeMachine.Machine.Build
import TapeMachine.Proofs.Machine.Image

/-!
# How large a machine can be

A new machine must not have more bits than signed registers can address. Its image is only checked
for two word counts that agree with its size. Every division into regions is therefore that of an
image (`ofHeader_headed`), also one that `Regions.plan` refuses; where the bits of an image can be
addressed, its regions are the planned ones.
-/

set_option autoImplicit false

namespace TapeMachine

attribute [local irreducible] Buffer.setWord Buffer.setSlot Buffer.zeros

namespace Regions

/-- Regions are planned again from their sizes, unless they have too many bits. -/
theorem plan_sizes (regions : Regions) :
    plan regions.entries regions.cells =
      if 8 * regions.size < 0x80000000 then .ok regions
      else .error (.tooLarge regions.entries regions.cells) := by
  have hcells := regions.cellWords_pos
  have hround : (max regions.cells 1 + 15) / 16 = regions.cellWords := by
    unfold cells
    omega
  have hsize : 8 * (216 + 20 * regions.entries + 4 * ((max regions.cells 1 + 15) / 16)) =
      8 * regions.size := by
    rw [hround, size, programWords, tapeWords]
    omega
  by_cases hlt : 8 * regions.size < 0x80000000
  · obtain ⟨planned, hplan⟩ := exists_plan (hsize ▸ hlt)
    obtain ⟨hentries, hwords, -⟩ := of_plan hplan
    rw [if_pos hlt, hplan, eq_of_sizes hentries (hwords.trans hround)]
  · rw [if_neg hlt]
    cases hplan : plan regions.entries regions.cells with
    | error fault => rw [eq_tooLarge_of_plan hplan]
    | ok planned =>
      obtain ⟨hentries, hwords, hplanned⟩ := of_plan hplan
      rw [eq_of_sizes hentries (hwords.trans hround)] at hplanned
      exact absurd hplanned hlt

end Regions

namespace Machine

/-- A machine of zeros with its two word counts. -/
def headed (regions : Regions) : Machine :=
  ((zeroed regions).setWord 0 (UInt32.ofNat regions.programWords)).setWord regions.tapeWord
    (UInt32.ofNat regions.tapeWords)

/-- Any regions are those of an image. -/
theorem ofHeader_headed (regions : Regions) :
    Regions.ofHeader (headed regions).buffer = .ok regions := by
  have hzero : 0 < (zeroed regions).wordCount :=
    lt_wordCount_of_lt_programWords _ (Nat.lt_of_succ_lt regions.two_le_programWords)
  have htape : regions.tapeWord < (zeroed regions).wordCount :=
    Nat.lt_of_succ_lt (zeroed regions).headWord_lt_wordCount
  have hprogramWords : (headed regions).buffer.word 0 = UInt32.ofNat regions.programWords := by
    rw [headed, word_setWord_of_ne _ _ (by rw [Regions.tapeWord_eq]; omega),
      word_setWord_self _ _ hzero]
  exact ofHeader_buffer hprogramWords (word_setWord_self _ _ htape)

/-- An image is loaded as soon as its headers can be read. -/
theorem exists_ofImage_of_ofHeader {image : Buffer} {regions : Regions}
    (hregions : Regions.ofHeader image = .ok regions) :
    ∃ machine, ofImage image = .ok machine ∧ machine.regions = regions :=
  ⟨⟨image, regions, Regions.size_eq_of_ofHeader hregions⟩,
    ofImage_eq_ok_iff.mpr ⟨rfl, hregions⟩, rfl⟩

/-- The regions of an image are the ones that would be planned for a new machine of these sizes
exactly if signed registers can address all its bits. The image is loaded in any case; the new
machine would be refused. -/
theorem plan_of_image {image : Buffer} {regions : Regions}
    (hregions : Regions.ofHeader image = .ok regions) :
    (∃ machine, ofImage image = .ok machine ∧ machine.regions = regions) ∧
      Regions.plan regions.entries regions.cells =
        if image.bits < 0x80000000 then .ok regions
        else .error (.tooLarge regions.entries regions.cells) := by
  refine ⟨exists_ofImage_of_ofHeader hregions, ?_⟩
  rw [regions.plan_sizes, Buffer.bits, Regions.size_eq_of_ofHeader hregions]

/-- An image of the largest size that can be addressed. -/
theorem plan_of_image_widest :
    ∃ regions, 8 * regions.size = 0x80000000 - 32 ∧
      Regions.ofHeader (headed regions).buffer = .ok regions ∧
      Regions.plan regions.entries regions.cells = .ok regions := by
  have hloaded := ofHeader_headed ⟨1, 67108804, by decide, by decide, by decide⟩
  have hplan := (plan_of_image hloaded).2
  rw [Buffer.bits, Regions.size_eq_of_ofHeader hloaded] at hplan
  exact ⟨_, by decide, hloaded, hplan.trans (if_pos (by decide))⟩

/-- An image that is one word larger still has regions, which no new machine can have. -/
theorem image_beyond_plan :
    ∃ regions, 8 * regions.size = 0x80000000 ∧
      Regions.ofHeader (headed regions).buffer = .ok regions ∧
      Regions.plan regions.entries regions.cells = .error (.tooLarge 1 1073740880) :=
  ⟨⟨1, 67108805, by decide, by decide, by decide⟩, by decide, ofHeader_headed _,
    (Regions.plan_sizes _).trans (if_neg (by decide))⟩

end Machine

end TapeMachine
