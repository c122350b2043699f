import TapeMachine.Proofs.Machine.Header
import TapeMachine.Proofs.Machine.Words

/-!
# Images of machines

A machine whose two word counts say what its regions are can be had back from its buffer. Any buffer
whose header is recognised is the image of a machine, and the program, the registers and the tape of
that machine make up all of it.
-/

set_option autoImplicit false

namespace TapeMachine

namespace Machine

variable {machine : Machine}

/-- The regions of a machine are found in its headers. -/
theorem ofHeader_buffer
    (hprogram : machine.buffer.word 0 = UInt32.ofNat machine.regions.programWords)
    (htape : machine.buffer.word machine.regions.tapeWord =
      UInt32.ofNat machine.regions.tapeWords) :
    Regions.ofHeader machine.buffer = .ok machine.regions := by
  have hprogramLt := machine.regions.programWords_lt
  have htapeLt := machine.regions.tapeWords_lt
  refine Regions.ofHeader_eq_ok_iff.mpr ⟨?_, ?_, ?_⟩
  · rw [hprogram, UInt32.toNat_ofNat', Regions.programWords]
    omega
  · rw [show 2 + 5 * machine.regions.entries + 50 = machine.regions.tapeWord from rfl, htape,
      UInt32.toNat_ofNat', Regions.tapeWords]
    omega
  · rw [machine.size_eq, Regions.size_eq_imageSize, Regions.cells]

/-- A machine is loaded from an image whose regions are its own. -/
theorem ofImage_eq_ok_iff {image : Buffer} {machine : Machine} :
    ofImage image = .ok machine ↔
      machine.buffer = image ∧ Regions.ofHeader image = .ok machine.regions := by
  unfold ofImage
  constructor
  · intro hmachine
    split at hmachine
    · next regions hregions =>
      cases hmachine
      exact ⟨rfl, hregions⟩
    · cases hmachine
  · rintro ⟨rfl, hregions⟩
    split
    · next found hfound =>
      rw [hregions] at hfound
      cases hfound
      rfl
    · next error herror =>
      rw [hregions] at herror
      cases herror

/-- A machine comes back from its buffer. -/
theorem ofImage_buffer
    (hprogram : machine.buffer.word 0 = UInt32.ofNat machine.regions.programWords)
    (htape : machine.buffer.word machine.regions.tapeWord =
      UInt32.ofNat machine.regions.tapeWords) :
    ofImage machine.buffer = .ok machine :=
  ofImage_eq_ok_iff.mpr ⟨rfl, ofHeader_buffer hprogram htape⟩

/-! ### The parts of an image -/

/-- The bytes of the registers. -/
def registerBytes (machine : Machine) : ByteArray :=
  machine.buffer.bytes.extract (machine.regions.registerBase / 8) (machine.regions.tapeBase / 8)

/-- The program, the registers and the tape are the whole image, one after the other. -/
structure Divides (image : Buffer) (machine : Machine) : Prop where
  bytes : machine.programBytes ++ machine.registerBytes ++ machine.tapeBytes = image.bytes
  programSize : machine.programBytes.size = 4 * (programWordCount machine.regions.entries).toNat
  registerSize : machine.registerBytes.size = 200
  tapeSize : machine.tapeBytes.size = 4 * (tapeWordCount machine.regions.cells).toNat

theorem divides_buffer (machine : Machine) : Divides machine.buffer machine := by
  have hsize : machine.buffer.bytes.size = machine.regions.size := machine.size_eq
  have htape := machine.regions.tapeWord_eq
  have hbase : machine.regions.registerBase / 8 = 4 * machine.regions.programWords := by
    rw [Regions.registerBase]
    omega
  have hend : machine.regions.tapeBase / 8 = 4 * machine.regions.tapeWord := by
    rw [Regions.tapeBase]
    omega
  have hwhole : machine.regions.size = 4 * machine.regions.tapeWord +
      4 * machine.regions.tapeWords := by
    rw [Regions.size]
    omega
  refine ⟨?_, ?_, ?_, ?_⟩
  · rw [programBytes, registerBytes, tapeBytes, hbase, hend, ByteArray.extract_append_extract,
      Nat.max_eq_right (by omega), ByteArray.extract_append_extract, Nat.max_eq_right (by omega),
      Nat.zero_min, Nat.zero_min, ← hsize, ByteArray.extract_zero_size]
  · rw [programBytes, ByteArray.size_extract, Regions.toNat_programWordCount, hsize]
    omega
  · rw [registerBytes, ByteArray.size_extract, hbase, hend, hsize]
    omega
  · rw [tapeBytes, ByteArray.size_extract, Regions.toNat_tapeWordCount, hsize]
    omega

/-- The regions of a buffer are found exactly if both of its word counts and its size are those of a
machine, and otherwise it is refused for the first check that it fails. A buffer with regions is
loaded, and its program, registers and tape make up all of it. -/
theorem header_recognised (buffer : Buffer) :
    (∀ regions, Regions.ofHeader buffer = .ok regions ↔
      ∃ entries cellWords, 1 ≤ cellWords ∧ Regions.Headed buffer entries cellWords ∧
        regions.entries = entries ∧ regions.cells = 16 * cellWords) ∧
    (∀ error, Regions.ofHeader buffer = .error error ↔ Regions.Refused buffer error) ∧
    ∀ regions, Regions.ofHeader buffer = .ok regions →
      ∃ machine, ofImage buffer = .ok machine ∧ machine.regions = regions ∧
        Divides buffer machine := by
  refine ⟨fun regions ↦ ?_, fun error ↦ Regions.ofHeader_eq_error_iff, fun regions hregions ↦ ?_⟩
  · rw [Regions.ofHeader_eq_ok_iff]
    constructor
    · intro hheaded
      exact ⟨_, _, regions.cellWords_pos, hheaded, rfl, rfl⟩
    · rintro ⟨entries, cellWords, -, hheaded, hentries, hcells⟩
      rw [Regions.cells] at hcells
      rwa [hentries, show regions.cellWords = cellWords by omega]
  · have hsize := Regions.size_eq_of_ofHeader hregions
    refine ⟨⟨buffer, regions, hsize⟩, ofImage_eq_ok_iff.mpr ⟨rfl, hregions⟩, rfl, ?_⟩
    exact divides_buffer ⟨buffer, regions, hsize⟩

end Machine

end TapeMachine
