import TapeMachine.Proofs.Machine.Image
import TapeMachine.Proofs.Table.Build

/-!
# Machines of tables do not go wrong

Steps and edits of the tape may be mixed in any order, also between two instructions of a pass.
`Sound` is what all of them keep: the program is the one the machine started with, every cell holds
a symbol, the head is on the tape or next to it, and the machine is on a state or in the middle of a
pass. An edit may change what the pass has still to read, and then the machine is in the middle of
another pass (`Ongoing.of_retaped`); what the pass has read is in registers, which no edit touches.
-/

set_option autoImplicit false

namespace TapeMachine

attribute [local irreducible] Buffer.setWord Buffer.setSlot

/-! ### Edits in the middle of a pass -/

namespace Pass

variable {pass other : Pass} {regions : Regions} {machine after : Machine} {k : Nat}

/-- What is known depends on the part of the trace that was performed. -/
theorem known_congr {count : Nat}
    (htake : (pass.trace regions).take count = (other.trace regions).take count)
    (hk : k + 1 ≤ count) : pass.known regions k = other.known regions k := by
  have htrace := congrArg (List.take (k + 1)) htake
  rw [List.take_take, List.take_take, Nat.min_eq_left hk] at htrace
  rw [known, known, htrace]

/-- Until the head is read, a pass knows nothing but its state. -/
theorem known_of_le_seven (hk : k ≤ 7) (position : Nat) (read : Symbol) (rule : Rule Offset) :
    (⟨pass.state, position, read, rule⟩ : Pass).known regions k = pass.known regions k :=
  known_congr (show _ = List.take 8 _ from rfl) (by omega)

/-- Until the cell is read, a pass knows nothing but its state and its position. -/
theorem known_of_le_nine (hk : k ≤ 9) (read : Symbol) (rule : Rule Offset) :
    (⟨pass.state, pass.position, read, rule⟩ : Pass).known regions k = pass.known regions k :=
  known_congr (show _ = List.take 10 _ from rfl) (by omega)

/-- A pass survives an edit of the tape, with what it has still to read read anew. -/
theorem Ongoing.of_retaped (haddressable : machine.Addressable)
    (hongoing : pass.Ongoing k machine) (hretaped : after.Retaped machine)
    (hreadable : after.Readable)
    (hhead : after.headField = machine.headField ∨
      ∃ position < machine.cellCount, after.HeadAt position) :
    ∃ pass : Pass, pass.Ongoing k after := by
  obtain ⟨hk, hruns, rules, hstate⟩ := hongoing
  have hsame := hretaped.sameProgram.symm
  have hstateAfter := hstate.of_sameProgram hsame haddressable
  have hregister : ∀ known : Known, known.Holds machine → known.Holds after := by
    intro known hknown register value hvalue
    rw [hretaped.register, hknown register value hvalue]
  have hpointer := hretaped.pointer.trans hruns.pointer
  have hknown := hregister _ hruns.known
  rw [← hretaped.regions] at hknown
  have hcells := hretaped.cellCount
  -- The last three fields of a pass are those that the rest of the pass reads.
  by_cases hseven : k ≤ 7
  · obtain ⟨position, hposition, hat⟩ : ∃ position < machine.cellCount, after.HeadAt position := by
      rcases hhead with hkept | hmoved
      · refine ⟨pass.position, hruns.fits.position, ?_⟩
        unfold Machine.HeadAt
        rw [hkept]
        exact hruns.head hseven
      · exact hmoved
    obtain ⟨read, hread⟩ := hreadable position (hcells ▸ hposition)
    refine ⟨⟨pass.state, position, read, rules.get read⟩, hk, ⟨⟨hpointer, ?_, ?_⟩, fun _ ↦ hat,
      fun _ ↦ hread, ?_⟩, rules, hstateAfter⟩
    · exact ⟨hretaped.regions ▸ hruns.fits.state, hcells ▸ hposition⟩
    · rw [known_of_le_seven hseven]
      exact hknown
    · exact hstateAfter.ruleAt (hsame.addressable haddressable) read
  · by_cases hnine : k ≤ 9
    · obtain ⟨read, hread⟩ := hreadable pass.position (hcells ▸ hruns.fits.position)
      refine ⟨⟨pass.state, pass.position, read, rules.get read⟩, hk, ⟨⟨hpointer, ?_, ?_⟩,
        fun hle ↦ absurd hle hseven, fun _ ↦ hread, ?_⟩, rules, hstateAfter⟩
      · exact ⟨hretaped.regions ▸ hruns.fits.state, hcells ▸ hruns.fits.position⟩
      · rw [known_of_le_nine hnine]
        exact hknown
      · exact hstateAfter.ruleAt (hsame.addressable haddressable) read
    · exact ⟨pass, hk, ⟨⟨hpointer, hruns.fits.of_regions hretaped.regions, hknown⟩,
        fun hle ↦ absurd hle hseven, fun hle ↦ absurd hle hnine,
        hruns.rule.of_sameProgram hsame.symm hruns.fits.state⟩, rules, hstateAfter⟩

end Pass

/-! ### Soundness -/

namespace Machine

/-- A head that left the tape on either side. -/
def HeadLost (machine : Machine) (fault : Fault) : Prop :=
  fault = .offTape (-1) machine.cellCount ∨ fault = .offTape machine.cellCount machine.cellCount

/-- What every write of a step or an edit keeps of the machine that they started on. -/
structure Intact (start machine : Machine) : Prop where
  sameProgram : machine.SameProgram start
  tapeWords : machine.buffer.word machine.regions.tapeWord =
    start.buffer.word start.regions.tapeWord
  readable : machine.Readable
  near : ∃ position : Int, -1 ≤ position ∧ position ≤ machine.cellCount ∧ machine.HeadAt position

/-- What whole steps and edits keep: the machine is intact, and on a state or in a pass. -/
structure Sound (start machine : Machine) : Prop where
  intact : Intact start machine
  phase : (∃ rules, machine.StateAt machine.pointer rules) ∨
    ∃ pass : Pass, ∃ k, pass.Ongoing k machine

variable {start machine after : Machine}

/-- A head on the tape or next to it is found, or was lost on one side. -/
theorem Intact.head_cases (hintact : Intact start machine) :
    (∃ position, machine.head = .ok position) ∨
      ∃ fault, machine.HeadLost fault ∧ machine.head = .error fault := by
  obtain ⟨position, hlower, hupper, hat⟩ := hintact.near
  rw [head_of_headAt hat]
  by_cases hon : 0 ≤ position ∧ position < machine.cellCount
  · rw [if_pos hon]
    exact Or.inl ⟨_, rfl⟩
  · rw [if_neg hon]
    refine Or.inr ⟨_, ?_, rfl⟩
    have hside : position = -1 ∨ position = machine.cellCount := by omega
    rcases hside with rfl | rfl
    · exact Or.inl rfl
    · exact Or.inr rfl

/-! ### Writes -/

namespace Intact

theorem of_agrees (hintact : Intact start machine) (hagrees : after.Agrees machine) :
    Intact start after := by
  refine ⟨hagrees.sameProgram.trans hintact.sameProgram, ?_, fun position hposition ↦ ?_, ?_⟩
  · rw [hagrees.word _ (Or.inr (Nat.le_refl _)), hagrees.regions, hintact.tapeWords]
  · rw [hagrees.cell]
    exact hintact.readable position (hagrees.cellCount ▸ hposition)
  · unfold HeadAt
    rw [hagrees.headField, hagrees.cellCount]
    exact hintact.near

theorem of_retaped (hintact : Intact start machine) (hretaped : after.Retaped machine)
    (hreadable : after.Readable)
    (hnear : ∃ position : Int, -1 ≤ position ∧ position ≤ machine.cellCount ∧
      after.HeadAt position) :
    Intact start after := by
  refine ⟨hretaped.sameProgram.trans hintact.sameProgram, ?_, hreadable, ?_⟩
  · rw [hretaped.word _ (Nat.le_refl _), hretaped.regions, hintact.tapeWords]
  · rw [hretaped.cellCount]
    exact hnear

theorem setPointer (hintact : Intact start machine) (next : Offset) :
    Intact start (machine.setWord 1 next) := by
  refine ⟨(machine.sameProgram_setWord next (Or.inl rfl)).trans hintact.sameProgram, ?_,
    fun position hposition ↦ ?_, ?_⟩
  · rw [← hintact.tapeWords]
    refine machine.word_setWord_of_ne next ?_
    rw [Regions.tapeWord_eq]
    omega
  · rw [cell_setPointer]
    exact hintact.readable position hposition
  · unfold HeadAt
    rw [headField_setPointer]
    exact hintact.near

theorem setCell (hintact : Intact start machine) {position : Nat}
    (hposition : position < machine.cellCount) (symbol : Symbol) :
    Intact start (machine.setCell position symbol) := by
  refine hintact.of_retaped (machine.retaped_setCell position symbol) (fun other hother ↦ ?_) ?_
  · rw [machine.cell_setCell hposition]
    split
    · exact ⟨symbol, rfl⟩
    · exact hintact.readable other hother
  · unfold HeadAt
    rw [headField_setCell]
    exact hintact.near

/-- The instructions of a pass move the head by one cell at most. -/
theorem effect (hintact : Intact start machine) (haddressable : machine.Addressable) {pass : Pass}
    (hfits : pass.Fits machine) (k : Nat) : Intact start (pass.effect machine k) := by
  unfold Pass.effect
  split
  · exact hintact.setCell hfits.position _
  · have hretaped : (machine.setWord machine.regions.headWord pass.newHeadField).Retaped machine :=
      machine.retaped_setHeadField _
    refine hintact.of_retaped hretaped (fun other hother ↦ ?_) ?_
    · rw [machine.cell_setWord _ (Nat.le_refl _)]
      exact hintact.readable other hother
    · have hmove := pass.rule.move.code_toNat_lt
      have hdelta := pass.rule.move.delta_eq_code_sub_one
      have hposition := hfits.position
      refine ⟨pass.position + pass.rule.move.delta, by omega, by omega, ?_⟩
      unfold HeadAt
      rw [headField_setHeadField]
      exact Pass.toNat_newHeadField haddressable hposition
  · exact hintact

end Intact

/-! ### Steps -/

namespace Sound

theorem tabled (hsound : Sound start machine) (htabled : start.Tabled) : machine.Tabled :=
  hsound.intact.sameProgram.symm.tabled htabled

/-- A machine on a state goes on into the microcode, halts, or has lost its head. -/
theorem step_of_stateAt (hintact : Intact start machine) (haddressable : machine.Addressable)
    {rules : StateRules} (hstate : machine.StateAt machine.pointer rules) :
    ((∃ result, Action.step.answer machine = .ok result) ∨
      ∃ fault, machine.HeadLost fault ∧ Action.step.answer machine = .error fault) ∧
    Sound start (Action.step.leaves machine) := by
  have hfetched := machine.fetchedOpcode_agrees Opcode.transition.code
  have hstay : Sound start (machine.fetchedOpcode Opcode.transition.code) := by
    refine ⟨hintact.of_agrees hfetched, Or.inl ⟨rules, ?_⟩⟩
    rw [hfetched.pointer]
    exact hstate.of_sameProgram hfetched.symm.sameProgram haddressable
  rcases hintact.head_cases with ⟨position, hhead⟩ | ⟨fault, hlost, hhead⟩
  · obtain ⟨symbol, hcell⟩ := hintact.readable position (head_eq_ok_iff.mp hhead).2
    by_cases hhalt : machine.pointer = Offset.halt
    · have hstep := step_of_stateAt_halt haddressable hstate
        (symbolUnderHead_eq_ok_iff.mpr ⟨position, hhead, hcell⟩) hhalt
      rw [Action.answer_of_ok hstep, Action.leaves_of_ok hstep]
      exact ⟨Or.inl ⟨_, rfl⟩, hstay⟩
    · obtain ⟨after, hstep, hafter, hruns⟩ :=
        Machine.step_of_stateAt haddressable hstate hhead hcell hhalt
      rw [Action.answer_of_ok hstep, Action.leaves_of_ok hstep]
      have hsame := hafter.sameProgram.trans (machine.sameProgram_setWord _ (Or.inl rfl))
      have hstateAfter := hstate.of_sameProgram hsame.symm haddressable
      exact ⟨Or.inl ⟨_, rfl⟩, (hintact.setPointer _).of_agrees hafter,
        Or.inr ⟨_, 0, by decide, hruns, rules, hstateAfter⟩⟩
  · have hstep := step_of_stateAt_error haddressable hstate (symbolUnderHead_of_head_error hhead)
    rw [Action.answer_of_error hstep, Action.leaves_of_error hstep]
    exact ⟨Or.inr ⟨fault, hlost, rfl⟩, hstay⟩

/-- A step of a sound machine fails only if the head was lost, and leaves it sound in any case. -/
theorem step (hsound : Sound start machine) (htabled : start.Tabled) :
    ((∃ result, Action.step.answer machine = .ok result) ∨
      ∃ fault, machine.HeadLost fault ∧ Action.step.answer machine = .error fault) ∧
    Sound start (Action.step.leaves machine) := by
  have htabledNow := hsound.tabled htabled
  have haddressable := htabledNow.program.addressable
  rcases hsound.phase with ⟨rules, hstate⟩ | ⟨pass, k, hongoing⟩
  · exact step_of_stateAt hsound.intact haddressable hstate
  · obtain ⟨after, hstep, hafter, hnext, hlast⟩ := hongoing.step htabledNow
    have heffect := hsound.intact.effect haddressable hongoing.runs.fits k
    rw [Action.answer_of_ok hstep, Action.leaves_of_ok hstep]
    refine ⟨Or.inl ⟨_, rfl⟩, (heffect.setPointer _).of_agrees hafter, ?_⟩
    by_cases hk : k = 29
    · exact Or.inl (hlast hk)
    · exact Or.inr ⟨pass, k + 1, hnext hk⟩

/-! ### Edits -/

/-- Edits of the tape keep a machine sound, also in the middle of a pass. -/
theorem of_retaped (hsound : Sound start machine) (haddressable : machine.Addressable)
    (hretaped : after.Retaped machine) (hreadable : after.Readable)
    (hhead : after.headField = machine.headField ∨
      ∃ position < machine.cellCount, after.HeadAt position) :
    Sound start after := by
  refine ⟨hsound.intact.of_retaped hretaped hreadable ?_, ?_⟩
  · rcases hhead with hkept | ⟨position, hposition, hat⟩
    · unfold HeadAt
      rw [hkept]
      exact hsound.intact.near
    · exact ⟨position, by omega, by omega, hat⟩
  · rcases hsound.phase with ⟨rules, hstate⟩ | ⟨pass, k, hongoing⟩
    · refine Or.inl ⟨rules, ?_⟩
      rw [hretaped.pointer]
      exact hstate.of_sameProgram hretaped.sameProgram.symm haddressable
    · obtain ⟨later, hlater⟩ := hongoing.of_retaped haddressable hretaped hreadable hhead
      exact Or.inr ⟨later, k, hlater⟩

theorem setCell (hsound : Sound start machine) (haddressable : machine.Addressable)
    {position : Nat} (hposition : position < machine.cellCount) (symbol : Symbol) :
    Sound start (machine.setCell position symbol) :=
  hsound.of_retaped haddressable (machine.retaped_setCell position symbol)
    (hsound.intact.setCell hposition symbol).readable
    (Or.inl (machine.headField_setCell position symbol))

theorem putHead (hsound : Sound start machine) (haddressable : machine.Addressable)
    {position : Nat} (hposition : position < machine.cellCount) :
    Sound start (machine.putHead position) := by
  refine hsound.of_retaped haddressable (machine.retaped_putHead position) (fun other hother ↦ ?_)
    (Or.inr ⟨position, hposition, headAt_putHead haddressable hposition⟩)
  rw [cell_putHead]
  exact hsound.intact.readable other hother

theorem place (hsound : Sound start machine) (haddressable : machine.Addressable)
    {symbols : List Symbol} {position head : Nat} (hposition : position < machine.cellCount)
    (hroom : symbols.length ≤ position + 1) (hhead : head < machine.cellCount) :
    Sound start ((machine.blankTape.putDownward position symbols).putHead head) := by
  have hretaped := machine.retaped_place position head symbols
  refine hsound.of_retaped haddressable hretaped (fun other hother ↦ ?_)
    (Or.inr ⟨head, hhead, machine.headAt_place haddressable position symbols hhead⟩)
  exact ⟨_, machine.cell_place hposition hroom (hretaped.cellCount ▸ hother)⟩

theorem blankTape (hsound : Sound start machine) (haddressable : machine.Addressable) :
    Sound start machine.blankTape := by
  refine hsound.of_retaped haddressable machine.retaped_blankTape (fun position hposition ↦ ?_)
    (Or.inl machine.headField_blankTape)
  exact ⟨_, machine.cell_blankTape (machine.retaped_blankTape.cellCount ▸ hposition)⟩

end Sound

end Machine

/-! ### Calls -/

/-- A step of a machine or an edit of its tape. -/
inductive Call where
  | step
  | place (text : String) (position head : Nat)
  | blankTape
  | setCell (position : Nat) (symbol : Symbol)
  | setHead (position : Nat)
  | writeUnderHead (symbol : Symbol)

/-- The machine that a call leaves, also if it fails. -/
def Call.leaves (machine : Machine) : Call → Machine
  | step => Action.step.leaves machine
  | place text position head => (Action.place text position head).leaves machine
  | blankTape => machine.blankTape
  | setCell position symbol => (Action.setCell position symbol).leaves machine
  | setHead position => (Action.setHead position).leaves machine
  | writeUnderHead symbol => (Action.writeUnderHead symbol).leaves machine

namespace Machine

/-- The machine after calls, going on after those that fail. -/
def afterCalls (machine : Machine) (calls : List Call) : Machine :=
  calls.foldl Call.leaves machine

variable {start machine : Machine}

/-- Every call leaves a sound machine sound. -/
theorem Sound.leaves (hsound : Sound start machine) (htabled : start.Tabled) (call : Call) :
    Sound start (call.leaves machine) := by
  have haddressable := (hsound.tabled htabled).program.addressable
  cases call with
  | step => exact (hsound.step htabled).2
  | place text position head =>
    rcases machine.place_cases text position head with
      ⟨fault, hfault⟩ | ⟨symbols, -, hposition, hroom, hhead, hplaced⟩
    · rw [Call.leaves, Action.leaves_of_error hfault]
      exact hsound
    · rw [Call.leaves, Action.leaves_of_ok hplaced]
      exact hsound.place haddressable hposition hroom hhead
  | blankTape => exact hsound.blankTape haddressable
  | setCell position symbol =>
    by_cases hposition : position < machine.cellCount
    · have hcall : Action.setCell position symbol machine =
          .ok () (machine.setCell position symbol) := by
        rw [Action.setCell, Action.query_bind_ok _ (if_pos hposition)]
        rfl
      rw [Call.leaves, Action.leaves_of_ok hcall]
      exact hsound.setCell haddressable hposition symbol
    · rw [Call.leaves, Action.setCell,
        Action.leaves_of_error (Action.query_bind_error _ (if_neg hposition))]
      exact hsound
  | setHead position =>
    by_cases hposition : position < machine.cellCount
    · have hcall : Action.setHead position machine = .ok () (machine.putHead position) := by
        rw [Action.setHead, Action.query_bind_ok _ (if_pos hposition)]
        rfl
      rw [Call.leaves, Action.leaves_of_ok hcall]
      exact hsound.putHead haddressable hposition
    · rw [Call.leaves, Action.setHead,
        Action.leaves_of_error (Action.query_bind_error _ (if_neg hposition))]
      exact hsound
  | writeUnderHead symbol =>
    cases hhead : machine.head with
    | error fault =>
      rw [Call.leaves, Action.writeUnderHead,
        Action.leaves_of_error (Action.query_bind_error _ hhead)]
      exact hsound
    | ok position =>
      have hcall : Action.writeUnderHead symbol machine =
          .ok () (machine.setCell position symbol) := by
        rw [Action.writeUnderHead, Action.query_bind_ok _ hhead]
        rfl
      rw [Call.leaves, Action.leaves_of_ok hcall]
      exact hsound.setCell haddressable (head_eq_ok_iff.mp hhead).2 symbol

theorem Sound.afterCalls (hsound : Sound start machine) (htabled : start.Tabled)
    (calls : List Call) : Sound start (machine.afterCalls calls) := by
  induction calls generalizing machine with
  | nil => exact hsound
  | cons call calls ih => exact ih (hsound.leaves htabled call)

/-- The pointer of a sound machine is on an entry. -/
theorem Sound.entryAt (hsound : Sound start machine) (htabled : start.Tabled) :
    ∃ index, machine.entryAt machine.pointer = .ok index := by
  rcases hsound.phase with ⟨rules, index, hindex, -⟩ | ⟨pass, k, hongoing⟩
  · exact ⟨index, hindex⟩
  · have hprogram := (hsound.tabled htabled).program
    rw [hongoing.runs.pointer]
    exact ⟨_, hprogram.addressable.entryAt_ofEntry
      (hprogram.lt_entries (List.getElem?_eq_getElem hongoing.lt))⟩

/-- Any sequence of steps and edits, in any order and going on after failures, leaves a validated
machine of a table with its program and its word counts, a tape that can be read, and a head on the
tape or next to it. A step on it fails only because the head is next to the tape, and the machine
comes back from its buffer. -/
theorem calls_keep_sound (hprogram : machine.Microprogrammed)
    (htapeWords : machine.buffer.word machine.regions.tapeWord =
      UInt32.ofNat machine.regions.tapeWords)
    (hvalid : machine.validate = .ok ()) (htext : ∃ text, machine.tapeText = .ok text)
    {rules : StateRules} (hstate : machine.StateAt machine.pointer rules) (calls : List Call) :
    (machine.afterCalls calls).regions = machine.regions ∧
    (machine.afterCalls calls).entries = machine.entries ∧
    (machine.afterCalls calls).buffer.word 0 = machine.buffer.word 0 ∧
    (machine.afterCalls calls).buffer.word machine.regions.tapeWord =
      machine.buffer.word machine.regions.tapeWord ∧
    (∃ text, (machine.afterCalls calls).tapeText = .ok text) ∧
    ((machine.afterCalls calls).validate = .ok () ∨
      ∃ fault, machine.HeadLost fault ∧ (machine.afterCalls calls).validate = .error fault) ∧
    ((∃ result, Action.step.answer (machine.afterCalls calls) = .ok result) ∨
      ∃ fault, machine.HeadLost fault ∧
        Action.step.answer (machine.afterCalls calls) = .error fault) ∧
    ofImage (machine.afterCalls calls).buffer = .ok (machine.afterCalls calls) := by
  have htabled := tabled_of_validate hprogram hvalid
  obtain ⟨entries, hentries, hstray, position, hhead⟩ := of_validate_eq_ok hvalid
  obtain ⟨hat, hposition⟩ := head_eq_ok_iff.mp hhead
  have hstart : Sound machine machine :=
    ⟨⟨.refl machine, rfl, readable_iff_tapeText.mpr htext, position, by omega, by omega, hat⟩,
      Or.inl ⟨rules, hstate⟩⟩
  have hsound := hstart.afterCalls htabled calls
  generalize machine.afterCalls calls = after at hsound
  have hsame := hsound.intact.sameProgram
  have hwords : after.buffer.word 0 = machine.buffer.word 0 := by
    refine hsame.word 0 ?_ (by decide)
    exact Nat.lt_of_lt_of_le (by decide) after.regions.two_le_programWords
  have htape := hsound.intact.tapeWords
  have hlost : ∀ fault, after.HeadLost fault → machine.HeadLost fault := by
    intro fault hfault
    unfold HeadLost at hfault ⊢
    rwa [hsame.cellCount] at hfault
  have hafterEntries : after.entries = machine.entries :=
    (hsame.symm.entries hprogram.addressable).symm
  obtain ⟨index, hindex⟩ := hsound.entryAt htabled
  refine ⟨hsame.regions, hafterEntries, hwords, hsame.regions ▸ htape,
    readable_iff_tapeText.mp hsound.intact.readable, ?_, ?_, ?_⟩
  · rw [validate_eq (hafterEntries.trans hentries) hstray hindex]
    rcases hsound.intact.head_cases with ⟨found, hfound⟩ | ⟨fault, hfault, hfound⟩
    · rw [hfound]
      exact Or.inl rfl
    · rw [hfound]
      exact Or.inr ⟨fault, hlost fault hfault, rfl⟩
  · rcases (hsound.step htabled).1 with hresult | ⟨fault, hfault, hanswer⟩
    · exact Or.inl hresult
    · exact Or.inr ⟨fault, hlost fault hfault, hanswer⟩
  · refine ofImage_buffer ?_ ?_
    · rw [hwords, hprogram.programWords, hsame.regions]
    · rw [htape, htapeWords, hsame.regions]

/-- A machine of a table with one state, whose head is moved back in the middle of a pass. -/
theorem calls_keep_sound_single_row :
    ∃ machine,
      ofTable [PerSymbol.ofFun fun _ ↦ { write := .one, move := .left, next := 1 }] 16 =
        .ok machine ∧
      (machine.afterCalls [.step, .setHead 3, .step, .place "01" 1 0]).entries =
        machine.entries := by
  obtain ⟨machine, hmachine⟩ := exists_eq_ok_of_toBool (show (ofTable [PerSymbol.ofFun fun _ ↦
    { write := .one, move := .left, next := 1 }] 16).toBool = true from rfl)
  obtain ⟨hbuilt, -⟩ := built_of_ofTable hmachine
  obtain ⟨rules, hstate⟩ := stateAt_of_ofTable hmachine
  have htext : ∃ text, machine.tapeText = .ok text :=
    readable_iff_tapeText.mp fun position hposition ↦ ⟨_, hbuilt.cell position hposition⟩
  refine ⟨machine, hmachine, ?_⟩
  exact (calls_keep_sound (carries_of_ofTable hmachine).program hbuilt.tapeWords
    (validate_of_ofTable hmachine) htext hstate [.step, .setHead 3, .step, .place "01" 1 0]).2.1

end Machine

end TapeMachine
