import TapeMachine.Offset

/-!
# Offsets and what they name

Entries, states and head positions are turned into offsets, and offsets back into them. An offset
never names anything but what it belongs to, and what has an offset of its own is found there again:
that is every entry up to `Offset.lastEntry` and every position up to the last one below the end of
a word. Offsets of entries beyond keep their low 32 bits only, and name other entries or none.
-/

set_option autoImplicit false

namespace TapeMachine

namespace Offset

variable {offset : Offset} {index state : Nat}

/-! ### Entries -/

/-- The offset of an entry is the one that names it, and there is none for an entry beyond the
last. -/
theorem ofEntry_eq_iff :
    index ≤ lastEntry ∧ ofEntry index = offset ↔ offset.entry? = some index := by
  rw [entry?_eq_some_iff]
  constructor
  · rintro ⟨hindex, rfl⟩
    exact toNat_ofEntry hindex
  · intro hoffset
    -- The offset of an entry beyond the last is no word at all.
    have hlt := offset.toNat_lt
    have hindex : index ≤ lastEntry := by
      unfold lastEntry
      omega
    exact ⟨hindex, UInt32.toNat_inj.mp ((toNat_ofEntry hindex).trans hoffset.symm)⟩

/-- An entry is found at its offset exactly if it is not beyond the last. -/
theorem entry?_ofEntry_iff : entry? (ofEntry index) = some index ↔ index ≤ lastEntry := by
  rw [← ofEntry_eq_iff, and_iff_left rfl]

theorem entry?_eq_none_iff :
    offset.entry? = none ↔ ∀ index : Nat, offset.toNat ≠ 64 + 160 * index := by
  simp only [Option.eq_none_iff_forall_ne_some, ne_eq, entry?_eq_some_iff]

/-! ### States -/

theorem state?_eq_some_iff :
    offset.state? = some state ↔ offset.entry? = some (firstStateEntry + state) := by
  unfold state?
  rw [Option.bind_eq_some_iff]
  constructor
  · rintro ⟨index, hindex, hstate⟩
    split at hstate
    · next hle =>
      obtain rfl := Option.some.inj hstate
      rwa [Nat.add_sub_cancel' hle]
    · cases hstate
  · intro hentry
    refine ⟨_, hentry, ?_⟩
    rw [if_pos (Nat.le_add_right _ _), Nat.add_sub_cancel_left]

/-- The offset of a state is the one that names it, and there is none for a state beyond the last
entry. -/
theorem ofState_eq_iff :
    firstStateEntry + state ≤ lastEntry ∧ ofState state = offset ↔ offset.state? = some state := by
  rw [state?_eq_some_iff, ← ofEntry_eq_iff, ofState]

theorem state?_ofState_iff : (ofState state).state? = some state ↔ state + 31 ≤ lastEntry := by
  rw [← ofState_eq_iff, and_iff_left rfl, Nat.add_comm, firstStateEntry]

end Offset

/-- A landmark is at the offset that it was found at. -/
theorem Landmark.offset_of_ofOffset? {offset : Offset} {landmark : Landmark}
    (hlandmark : ofOffset? offset = some landmark) : landmark.offset = offset := by
  obtain ⟨index, hindex, rfl⟩ := Option.map_eq_some_iff.mp hlandmark
  obtain ⟨-, hoffset⟩ := Offset.ofEntry_eq_iff.mpr hindex
  split
  · next hstate =>
    rw [Landmark.offset, Offset.ofState, Nat.add_sub_cancel' hstate, hoffset]
  · exact hoffset

/-! ### Positions of the head -/

namespace HeadField

variable {field : UInt32} {position : Nat}

/-- A head field names a position, which may be off the tape, exactly if it is even. -/
theorem toNat_eq_iff {place : Int} :
    (field.toNat : Int) = 64 + 2 * place ↔
      isAligned field = true ∧ HeadField.position field = place := by
  unfold isAligned HeadField.position
  rw [decide_eq_true_iff]
  omega

theorem toNat_ofPosition (hposition : position < 0x7FFFFFE0) :
    (ofPosition position).toNat = 64 + 2 * position := by
  rw [ofPosition, UInt32.toNat_add, UInt32.toNat_ofNat', show (64 : UInt32).toNat = 64 from rfl]
  omega

end HeadField

/-- An offset names an entry, a state or a landmark only if it is the offset of it, and it names no
entry only if it is that of none. Every entry and every state up to the last entry is named by its
own offset, and none beyond. Head fields name the positions that they were made from as long as they
fit a word, and an even one is made from the position that it names. -/
theorem Offset.conversions_exact :
    (∀ (offset : Offset) (index : Nat), offset.entry? = some index → ofEntry index = offset) ∧
    (∀ offset : Offset, offset.entry? = none ↔ ¬ ∃ index : Nat, offset.toNat = 64 + 160 * index) ∧
    (∀ (offset : Offset) (state : Nat), offset.state? = some state → ofState state = offset) ∧
    (∀ (offset : Offset) (landmark : Landmark),
      Landmark.ofOffset? offset = some landmark → landmark.offset = offset) ∧
    (∀ index, entry? (ofEntry index) = some index ↔ index ≤ 26843545) ∧
    (∀ state, (ofState state).state? = some state ↔ state + 31 ≤ 26843545) ∧
    (∀ position < 0x7FFFFFE0, HeadField.isAligned (HeadField.ofPosition position) = true ∧
      HeadField.position (HeadField.ofPosition position) = position) ∧
    ∀ field : UInt32, HeadField.isAligned field = true →
      (field.toNat : Int) = 64 + 2 * HeadField.position field := by
  refine ⟨fun offset index hindex ↦ (ofEntry_eq_iff.mpr hindex).2, fun offset ↦ ?_,
    fun offset state hstate ↦ (ofState_eq_iff.mpr hstate).2,
    fun offset landmark ↦ Landmark.offset_of_ofOffset?, fun index ↦ entry?_ofEntry_iff,
    fun state ↦ state?_ofState_iff, fun position hposition ↦ ?_,
    fun field haligned ↦ HeadField.toNat_eq_iff.mpr ⟨haligned, rfl⟩⟩
  · rw [entry?_eq_none_iff, not_exists]
  · rw [← HeadField.toNat_eq_iff, HeadField.toNat_ofPosition hposition]
    rfl

-- Offsets repeat after 2 ^ 27 entries, so that the offset of an entry far beyond the last is that
-- of entry 0.
example : Offset.entry? (Offset.ofEntry (2 ^ 27)) = some 0 := rfl

end TapeMachine
