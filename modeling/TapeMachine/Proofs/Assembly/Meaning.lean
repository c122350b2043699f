import Mathlib.Data.List.Forall2
import TapeMachine.Proofs.Assembly.Reading
import TapeMachine.Proofs.Assembly.RoundTrip
import TapeMachine.Proofs.Offset

/-!
# What a source text means

What the lines of a source stand for, said without resolving them: the integer of an operand, the
place where an instruction goes on, the instruction of a line, and what is wrong with a line that
gives none. A line has at most one thing wrong with it that counts: each case of `Line.Offence` asks
that what is looked at before it is in order. `assemble_exact` says that assembling gives just these
instructions, one for each line that holds more than a comment, and else the offence of the first
line that has one. No number is changed on the way, whatever the length of its numeral.
-/

set_option autoImplicit false

namespace TapeMachine.Assembly

/-! ### Parts that can be had or not -/

/-- That a part of a line resolves if it can be had, and is refused for one problem if not. -/
structure Decided {α : Type} (fits : Prop) (problem : Problem) (answer : Except Problem α) :
    Prop where
  resolves : fits → ∃ value, answer = .ok value
  refused : ¬ fits → answer = .error problem

namespace Decided

variable {α : Type} {fits : Prop} {problem : Problem} {answer : Except Problem α}

theorem exists_ok_iff (hanswer : Decided fits problem answer) :
    (∃ value, answer = .ok value) ↔ fits := by
  refine ⟨fun hok ↦ Classical.byContradiction fun hfits ↦ ?_, hanswer.resolves⟩
  obtain ⟨value, hvalue⟩ := hok
  rw [hanswer.refused hfits] at hvalue
  cases hvalue

theorem eq_error_iff (hanswer : Decided fits problem answer) {other : Problem} :
    answer = .error other ↔ ¬ fits ∧ other = problem := by
  by_cases hfits : fits
  · obtain ⟨value, hvalue⟩ := hanswer.resolves hfits
    simp [hvalue, hfits]
  · rw [hanswer.refused hfits]
    simp [hfits, eq_comm]

end Decided

/-! ### Operands -/

/-- The integer that an operand stands for: the number that is written, or the index of the
register that is named. -/
inductive Operand.Denotes : Operand → Int → Prop where
  | number (numeral : List Char) : Denotes (.number numeral) (Text.signedValue numeral)
  | register {register : Register} {name : List Char}
    (hname : (register, String.ofList name) ∈ Register.conventional) :
    Denotes (.register name) register.val

/-- Whether an operand can be had: its number fits a signed word, its register is known. -/
def Operand.Fits : Operand → Prop
  | number numeral => -2147483648 ≤ Text.signedValue numeral ∧ Text.signedValue numeral ≤ 2147483647
  | register name => ∃ register, (register, String.ofList name) ∈ Register.conventional

/-- What is wrong with an operand that cannot be had. -/
def Operand.problem : Operand → Problem
  | number numeral => .badNumber (String.ofList numeral)
  | register name => .unknownRegister (String.ofList name)

theorem ofName?_eq_some_iff {name : String} {register : Register} :
    Register.ofName? name = some register ↔ (register, name) ∈ Register.conventional := by
  constructor
  · intro hname
    obtain ⟨⟨found, text⟩, hfind, hfound⟩ := Option.map_eq_some_iff.mp hname
    have htext : text = name := by simpa using List.find?_some hfind
    have hmem := List.mem_of_find?_eq_some hfind
    rw [htext] at hmem
    exact hfound ▸ hmem
  · intro hmem
    exact (conventional_names _ hmem).2

theorem Operand.resolve_eq_ok_iff {operand : Operand} {value : Int32} :
    operand.resolve = .ok value ↔ operand.Denotes value.toInt := by
  cases operand with
  | number numeral =>
    rw [Operand.resolve]
    constructor
    · intro hresolve
      split at hresolve
      · next hfits =>
        obtain rfl := Except.ok.inj hresolve
        rw [Int32.toInt_ofInt_of_le hfits.1 hfits.2]
        exact .number numeral
      · cases hresolve
    · intro hvalue
      have hleast := value.le_toInt
      have hmost := value.toInt_lt
      generalize hinteger : value.toInt = integer at hvalue hleast hmost
      cases hvalue
      rw [if_pos ⟨hleast, hmost⟩, ← hinteger, Int32.ofInt_toInt]
  | register name =>
    rw [Operand.resolve]
    constructor
    · intro hresolve
      split at hresolve
      · next found hfound =>
        obtain rfl := Except.ok.inj hresolve
        have hindex := found.isLt
        rw [Int32.toInt_ofNat_of_lt (by omega)]
        exact .register (ofName?_eq_some_iff.mp hfound)
      · cases hresolve
    · intro hvalue
      generalize hinteger : value.toInt = integer at hvalue
      cases hvalue with
      | register hname =>
        rw [ofName?_eq_some_iff.mpr hname]
        dsimp only
        rw [← Int32.ofInt_eq_ofNat, ← hinteger, Int32.ofInt_toInt]

theorem Operand.decided (operand : Operand) :
    Decided operand.Fits operand.problem operand.resolve := by
  cases operand with
  | number numeral =>
    refine ⟨fun ⟨hleast, hmost⟩ ↦ ?_, fun hfits ↦ ?_⟩
    · exact ⟨_, if_pos ⟨hleast, by omega⟩⟩
    · exact if_neg fun ⟨hleast, hmost⟩ ↦ hfits ⟨hleast, by omega⟩
  | register name =>
    refine ⟨fun ⟨found, hname⟩ ↦ ⟨Int32.ofNat found.val, ?_⟩, fun hfits ↦ ?_⟩
    · rw [Operand.resolve, ofName?_eq_some_iff.mpr hname]
    · rw [Operand.resolve]
      split
      · next found hname => exact absurd ⟨found, ofName?_eq_some_iff.mp hname⟩ hfits
      · rfl

theorem exists_operands_iff {operands : List Operand} :
    (∃ values, operands.mapM Operand.resolve = .ok values) ↔
      ∀ operand ∈ operands, operand.Fits := by
  rw [exists_mapM_eq_ok_iff]
  exact forall₂_congr fun operand _ ↦ operand.decided.exists_ok_iff

/-- A list of operands is refused for the first that cannot be had. -/
theorem operands_eq_error_iff {operands : List Operand} {problem : Problem} :
    operands.mapM Operand.resolve = .error problem ↔
      ∃ before operand after, operands = before ++ operand :: after ∧
        (∀ earlier ∈ before, earlier.Fits) ∧ ¬ operand.Fits ∧ problem = operand.problem := by
  rw [mapM_eq_error_iff]
  simp only [(Operand.decided _).exists_ok_iff, (Operand.decided _).eq_error_iff]

/-! ### Targets -/

/-- Where an instruction goes on: at the entry or the bit offset that is written as its target, and
without one at the entry that follows its own, or at entry 0 for the two that do not go on. -/
inductive GoesOn (opcode : Opcode) (index : Nat) : Option Target → Offset → Prop where
  | entry {digits : List Char} {next : Offset} (hnext : next.entry? = some (Text.value digits)) :
    GoesOn opcode index (some (.entry digits)) next
  | offset {digits : List Char} {next : Offset} (hnext : next.toNat = Text.value digits) :
    GoesOn opcode index (some (.offset digits)) next
  | following (hhalt : opcode ≠ .halt) (hreturn : opcode ≠ .ret) :
    GoesOn opcode index none (Offset.ofEntry (index + 1))
  | first (hends : opcode = .halt ∨ opcode = .ret) :
    GoesOn opcode index none (Offset.ofEntry 0)

/-- Whether a target can be had: its entry is one whose offset fits a word, or its offset is. -/
def Target.Fits : Target → Prop
  | entry digits => Text.value digits ≤ 26843545
  | offset digits => Text.value digits ≤ 4294967295

/-- What is wrong with a target that cannot be had. -/
def Target.problem : Target → Problem
  | entry digits | offset digits => .badNumber (String.ofList digits)

theorem Target.decided (target : Target) :
    Decided target.Fits target.problem target.resolve := by
  cases target with
  | entry digits =>
    exact ⟨fun hfits ↦ ⟨_, if_pos hfits⟩, fun hfits ↦ if_neg hfits⟩
  | offset digits =>
    refine ⟨fun hfits ↦ ⟨_, if_pos ?_⟩, fun hfits ↦ if_neg fun hlt ↦ hfits ?_⟩
    · exact Nat.lt_succ_of_le hfits
    · exact Nat.le_of_lt_succ hlt

theorem Target.resolve_eq_ok_iff {target : Target} {opcode : Opcode} {index : Nat}
    {next : Offset} : target.resolve = .ok next ↔ GoesOn opcode index (some target) next := by
  cases target with
  | entry digits =>
    constructor
    · intro hresolve
      rw [Target.resolve] at hresolve
      split at hresolve
      · next hfits => exact .entry (Offset.ofEntry_eq_iff.mp ⟨hfits, Except.ok.inj hresolve⟩)
      · cases hresolve
    · rintro (hnext | _)
      obtain ⟨hfits, hoffset⟩ := Offset.ofEntry_eq_iff.mpr hnext
      rw [Target.resolve, if_pos hfits, hoffset]
  | offset digits =>
    constructor
    · intro hresolve
      rw [Target.resolve] at hresolve
      split at hresolve
      · next hfits =>
        obtain rfl := Except.ok.inj hresolve
        exact .offset (UInt32.toNat_ofNat_of_lt' hfits)
      · cases hresolve
    · rintro (_ | hnext)
      rw [Target.resolve, ← hnext, if_pos next.toNat_lt, UInt32.ofNat_toNat]

theorem resolveNext_eq_ok_iff {target : Option Target} {opcode : Opcode} {index : Nat}
    {next : Offset} (hgeneric : opcode ≠ .transition) :
    resolveNext target opcode index = .ok next ↔ GoesOn opcode index target next := by
  cases target with
  | some target => exact Target.resolve_eq_ok_iff
  | none =>
    rw [resolveNext, Except.ok.injEq, Instruction.defaultNext]
    constructor
    · rintro rfl
      cases opcode <;> first
        | exact .following (by decide) (by decide)
        | exact .first (by decide)
        | exact absurd rfl hgeneric
    · rintro (_ | _ | ⟨hhalt, hreturn⟩ | hends)
      · have hfalls : opcode.fallsThrough = true := by
          cases opcode <;> first | rfl | contradiction
        rw [if_pos hfalls]
      · rcases hends with rfl | rfl <;> rfl

/-! ### Lines -/

/-- The opcode of a mnemonic, if it is that of an instruction that executes something. -/
def Names (mnemonic : List Char) (opcode : Opcode) : Prop :=
  opcode ≠ .transition ∧ opcode.name = String.ofList mnemonic

/-- The instruction that the parts of a line stand for, at an entry. It has as many operands as are
written, and zero for the others. -/
structure Line.Means (line : Line) (index : Nat) (instruction : Instruction) : Prop where
  named : Names line.mnemonic instruction.opcode
  operands : List.Forall₂ (fun operand value ↦ operand.Denotes value.toInt) line.operands
    instruction.operands
  unread : ∀ value ∈ instruction.unread, value = 0
  next : GoesOn instruction.opcode index line.target instruction.next

/-- Whether the parts of a line stand for an instruction of an opcode. -/
structure Line.Proper (line : Line) (opcode : Opcode) : Prop where
  named : Names line.mnemonic opcode
  arity : line.operands.length = opcode.arity
  operands : ∀ operand ∈ line.operands, operand.Fits
  target : ∀ target ∈ line.target, target.Fits

/-- What is wrong with the parts of a line, if what is looked at before is in order. -/
inductive Line.Offence (line : Line) : Problem → Prop where
  | mnemonic (hnone : ∀ opcode, ¬ Names line.mnemonic opcode) :
    Offence line (.notAnOperation (String.ofList line.mnemonic))
  | arity {opcode : Opcode} (hopcode : Names line.mnemonic opcode)
    (harity : line.operands.length ≠ opcode.arity) :
    Offence line (.wrongArity opcode line.operands.length)
  | operand {opcode : Opcode} {before after : List Operand} {operand : Operand}
    (hopcode : Names line.mnemonic opcode) (harity : line.operands.length = opcode.arity)
    (hoperands : line.operands = before ++ operand :: after)
    (hbefore : ∀ earlier ∈ before, earlier.Fits) (hoperand : ¬ operand.Fits) :
    Offence line operand.problem
  | target {opcode : Opcode} {target : Target} (hopcode : Names line.mnemonic opcode)
    (harity : line.operands.length = opcode.arity)
    (hoperands : ∀ operand ∈ line.operands, operand.Fits) (hwritten : line.target = some target)
    (htarget : ¬ target.Fits) : Offence line target.problem

theorem operation?_eq_some_iff {mnemonic : List Char} {opcode : Opcode} :
    operation? mnemonic = some opcode ↔ Names mnemonic opcode := by
  constructor
  · intro hopcode
    refine ⟨operation?_ne_transition hopcode, ?_⟩
    unfold operation? at hopcode
    split at hopcode
    · cases hopcode
    · have hfound := List.find?_some hopcode
      exact of_decide_eq_true hfound
  · rintro ⟨hgeneric, hname⟩
    have hopcode := operation?_name opcode
    rwa [hname, String.toList_ofList, if_neg hgeneric] at hopcode

theorem operation?_eq_none_iff {mnemonic : List Char} :
    operation? mnemonic = none ↔ ∀ opcode, ¬ Names mnemonic opcode := by
  rw [Option.eq_none_iff_forall_not_mem]
  exact forall_congr' fun opcode ↦ not_congr operation?_eq_some_iff

/-- The operands of an instruction are those of a list of as many as its opcode reads, with zero
for those beyond. -/
theorem operands_of_getD {instruction : Instruction} {operands : List Int32}
    (hlength : operands.length = instruction.opcode.arity) :
    (instruction.first = operands.getD 0 0 ∧ instruction.second = operands.getD 1 0 ∧
        instruction.third = operands.getD 2 0) ↔
      operands = instruction.operands ∧ ∀ value ∈ instruction.unread, value = 0 := by
  have harity : instruction.opcode.arity ≤ 3 := by
    cases instruction.opcode <;> decide
  rw [Instruction.operands, Instruction.unread, ← hlength]
  rw [← hlength] at harity
  rcases operands with _ | ⟨a, _ | ⟨b, _ | ⟨c, _ | ⟨d, more⟩⟩⟩⟩
  · simp
  · simp [@eq_comm _ instruction.first]
  · simp [@eq_comm _ instruction.first, @eq_comm _ instruction.second, and_assoc]
  · simp [@eq_comm _ instruction.first, @eq_comm _ instruction.second,
      @eq_comm _ instruction.third]
  · exact absurd harity (by simp)

theorem Line.resolve_eq_ok_iff_means {line : Line} {index : Nat} {instruction : Instruction} :
    line.resolve index = .ok instruction ↔ line.Means index instruction := by
  rw [Line.resolve_eq_ok_iff]
  constructor
  · rintro ⟨operands, hopcode, harity, hoperands, hnext, hread⟩
    have hlength := (length_of_mapM_eq_ok hoperands).trans harity
    obtain ⟨rfl, hunread⟩ := (operands_of_getD hlength).mp hread
    rw [operation?_eq_some_iff] at hopcode
    rw [resolveNext_eq_ok_iff hopcode.1] at hnext
    rw [mapM_eq_ok_iff_forall₂] at hoperands
    exact ⟨hopcode, hoperands.imp fun _ _ ↦ Operand.resolve_eq_ok_iff.mp, hunread, hnext⟩
  · rintro ⟨hopcode, hoperands, hunread, hnext⟩
    have harity := hoperands.length_eq.trans instruction.length_operands
    refine ⟨instruction.operands, operation?_eq_some_iff.mpr hopcode, harity,
      mapM_eq_ok_iff_forall₂.mpr (hoperands.imp fun _ _ ↦ Operand.resolve_eq_ok_iff.mpr),
      (resolveNext_eq_ok_iff hopcode.1).mpr hnext, ?_⟩
    exact (operands_of_getD instruction.length_operands).mpr ⟨rfl, hunread⟩

/-- A line resolves to an instruction exactly if its parts stand for one. -/
theorem Line.exists_resolve_iff {line : Line} {index : Nat} :
    (∃ instruction, line.resolve index = .ok instruction) ↔ ∃ opcode, line.Proper opcode := by
  constructor
  · rintro ⟨instruction, hresolve⟩
    obtain ⟨operands, hopcode, harity, hoperands, hnext, -⟩ := Line.resolve_eq_ok_iff.mp hresolve
    refine ⟨instruction.opcode, operation?_eq_some_iff.mp hopcode, harity,
      exists_operands_iff.mp ⟨operands, hoperands⟩, fun target htarget ↦ ?_⟩
    rw [Option.mem_def.mp htarget] at hnext
    exact target.decided.exists_ok_iff.mp ⟨instruction.next, hnext⟩
  · rintro ⟨opcode, hnamed, harity, hoperands, htarget⟩
    obtain ⟨operands, hvalues⟩ := exists_operands_iff.mpr hoperands
    obtain ⟨next, hnext⟩ : ∃ next, resolveNext line.target opcode index = .ok next := by
      cases hwritten : line.target with
      | none => exact ⟨_, rfl⟩
      | some target => exact target.decided.resolves (htarget target hwritten)
    refine ⟨⟨opcode, operands.getD 0 0, operands.getD 1 0, operands.getD 2 0, next⟩, ?_⟩
    exact Line.resolve_eq_ok_iff.mpr
      ⟨operands, operation?_eq_some_iff.mpr hnamed, harity, hvalues, hnext, rfl, rfl, rfl⟩

theorem Line.offence_of_resolve {line : Line} {index : Nat} {problem : Problem}
    (hresolve : line.resolve index = .error problem) : line.Offence problem := by
  cases hopcode : operation? line.mnemonic with
  | none =>
    rw [Line.resolve, hopcode] at hresolve
    obtain rfl := Except.error.inj hresolve
    exact .mnemonic (operation?_eq_none_iff.mp hopcode)
  | some opcode =>
    have hnamed := operation?_eq_some_iff.mp hopcode
    by_cases harity : line.operands.length = opcode.arity
    · rw [Line.resolve_eq hopcode harity] at hresolve
      cases hoperands : line.operands.mapM Operand.resolve with
      | error found =>
        rw [hoperands] at hresolve
        obtain rfl := Except.error.inj hresolve
        obtain ⟨before, operand, after, hsplit, hbefore, hoperand, rfl⟩ :=
          operands_eq_error_iff.mp hoperands
        exact .operand hnamed harity hsplit hbefore hoperand
      | ok values =>
        rw [hoperands] at hresolve
        cases hwritten : line.target with
        | none =>
          rw [hwritten] at hresolve
          cases hresolve
        | some target =>
          rw [hwritten, resolveNext] at hresolve
          cases hnext : target.resolve with
          | ok next =>
            rw [hnext] at hresolve
            cases hresolve
          | error found =>
            rw [hnext] at hresolve
            obtain rfl := Except.error.inj hresolve
            obtain ⟨htarget, rfl⟩ := target.decided.eq_error_iff.mp hnext
            exact .target hnamed harity (exists_operands_iff.mp ⟨values, hoperands⟩) hwritten
              htarget
    · simp only [Line.resolve, hopcode, if_pos harity] at hresolve
      obtain rfl := Except.error.inj hresolve
      exact .arity hnamed harity

theorem Line.Offence.resolve_eq {line : Line} {problem : Problem} (hoffence : line.Offence problem)
    (index : Nat) : line.resolve index = .error problem := by
  cases hoffence with
  | mnemonic hnone => rw [Line.resolve, operation?_eq_none_iff.mpr hnone]
  | arity hnamed harity =>
    simp only [Line.resolve, operation?_eq_some_iff.mpr hnamed, if_pos harity]
  | operand hnamed harity hsplit hbefore hoperand =>
    have hrefused := operands_eq_error_iff.mpr ⟨_, _, _, hsplit, hbefore, hoperand, rfl⟩
    rw [Line.resolve_eq (operation?_eq_some_iff.mpr hnamed) harity, hrefused]
    rfl
  | @target _ target hnamed harity hoperands hwritten htarget =>
    obtain ⟨values, hvalues⟩ := exists_operands_iff.mpr hoperands
    have hrefused := target.decided.refused htarget
    rw [Line.resolve_eq (operation?_eq_some_iff.mpr hnamed) harity, hvalues, hwritten,
      resolveNext, hrefused]
    rfl

/-- A line is refused for what is wrong with its parts. -/
theorem Line.resolve_eq_error_iff {line : Line} {index : Nat} {problem : Problem} :
    line.resolve index = .error problem ↔ line.Offence problem :=
  ⟨Line.offence_of_resolve, fun hoffence ↦ hoffence.resolve_eq index⟩

/-! ### Codes -/

/-- Whether the code of a line gives an instruction: it has the form of a line, and its parts stand
for one. -/
def Acceptable (code : List Char) : Prop :=
  ∃ line opcode, LineForm line code ∧ line.Proper opcode

/-- The instruction that a code stands for as the one with a number. -/
def Gives (numbered : List Char × Nat) (instruction : Instruction) : Prop :=
  ∃ line, LineForm line numbered.1 ∧ line.Means numbered.2 instruction

/-- What is wrong with a code that gives no instruction. -/
inductive Offence (code : List Char) : Problem → Prop where
  | unreadable (hnone : ∀ line, ¬ LineForm line code) :
    Offence code (.unreadable (String.ofList (Text.trim code)))
  | line {line : Line} {problem : Problem} (hform : LineForm line code)
    (hoffence : line.Offence problem) : Offence code problem

theorem readInstruction_of_lineForm {line : Line} {code : List Char} (hform : LineForm line code)
    (index : Nat) : readInstruction index code = line.resolve index := by
  rw [readInstruction, hform.parse?_eq]

theorem readInstruction_of_not_lineForm {code : List Char} (hnone : ∀ line, ¬ LineForm line code)
    (index : Nat) :
    readInstruction index code = .error (.unreadable (String.ofList (Text.trim code))) := by
  rw [readInstruction]
  split
  · rfl
  · next line hparse => exact absurd (lineForm_of_parse? hparse) (hnone line)

theorem LineForm.unique {line other : Line} {code : List Char} (hform : LineForm line code)
    (hother : LineForm other code) : line = other :=
  Option.some.inj (hform.parse?_eq.symm.trans hother.parse?_eq)

theorem readInstruction_eq_ok_iff {index : Nat} {code : List Char} {instruction : Instruction} :
    readInstruction index code = .ok instruction ↔ Gives (code, index) instruction := by
  constructor
  · intro hread
    by_cases hsome : ∃ line, LineForm line code
    · obtain ⟨line, hform⟩ := hsome
      rw [readInstruction_of_lineForm hform] at hread
      exact ⟨line, hform, Line.resolve_eq_ok_iff_means.mp hread⟩
    · rw [readInstruction_of_not_lineForm (not_exists.mp hsome)] at hread
      cases hread
  · rintro ⟨line, hform, hmeans⟩
    rw [readInstruction_of_lineForm hform]
    exact Line.resolve_eq_ok_iff_means.mpr hmeans

theorem exists_gives_iff {code : List Char} (index : Nat) :
    (∃ instruction, Gives (code, index) instruction) ↔ Acceptable code := by
  constructor
  · rintro ⟨instruction, line, hform, hmeans⟩
    obtain ⟨opcode, hproper⟩ :=
      Line.exists_resolve_iff.mp ⟨instruction, Line.resolve_eq_ok_iff_means.mpr hmeans⟩
    exact ⟨line, opcode, hform, hproper⟩
  · rintro ⟨line, opcode, hform, hproper⟩
    obtain ⟨instruction, hresolve⟩ := Line.exists_resolve_iff.mpr ⟨opcode, hproper⟩
    exact ⟨instruction, line, hform, Line.resolve_eq_ok_iff_means.mp hresolve⟩

theorem readInstruction_eq_error_iff {index : Nat} {code : List Char} {problem : Problem} :
    readInstruction index code = .error problem ↔ Offence code problem := by
  constructor
  · intro hread
    by_cases hsome : ∃ line, LineForm line code
    · obtain ⟨line, hform⟩ := hsome
      rw [readInstruction_of_lineForm hform] at hread
      exact .line hform (Line.resolve_eq_error_iff.mp hread)
    · rw [readInstruction_of_not_lineForm (not_exists.mp hsome)] at hread
      obtain rfl := Except.error.inj hread
      exact .unreadable (not_exists.mp hsome)
  · rintro (hnone | ⟨hform, hoffence⟩)
    · exact readInstruction_of_not_lineForm hnone index
    · rw [readInstruction_of_lineForm hform]
      exact Line.resolve_eq_error_iff.mpr hoffence

theorem exists_offence_of_not_acceptable {code : List Char} (hnot : ¬ Acceptable code) :
    ∃ problem, Offence code problem := by
  cases hread : readInstruction 0 code with
  | error problem => exact ⟨problem, readInstruction_eq_error_iff.mp hread⟩
  | ok instruction =>
    exact absurd ((exists_gives_iff 0).mp ⟨instruction, readInstruction_eq_ok_iff.mp hread⟩) hnot

theorem Offence.not_acceptable {code : List Char} {problem : Problem}
    (hoffence : Offence code problem) : ¬ Acceptable code := by
  intro hacceptable
  obtain ⟨instruction, hgives⟩ := (exists_gives_iff 0).mpr hacceptable
  have hread := readInstruction_eq_ok_iff.mpr hgives
  rw [readInstruction_eq_error_iff.mpr hoffence] at hread
  cases hread

theorem Offence.unique {code : List Char} {problem other : Problem}
    (hoffence : Offence code problem) (hother : Offence code other) : problem = other :=
  Except.error.inj ((readInstruction_eq_error_iff.mpr hoffence).symm.trans
    (readInstruction_eq_error_iff.mpr hother : readInstruction 0 code = .error other))

/-! ### Sources -/

/-- Whether a line holds no instruction: without its comment it is white space. -/
def IsIdle (line : List Char) : Prop :=
  ∀ c ∈ uncomment line, Text.isBlank c = true

instance (line : List Char) : Decidable (IsIdle line) :=
  decidable_of_iff ((uncomment line).all Text.isBlank = true) List.all_eq_true

/-- The lines that hold an instruction, without their comments. -/
def codes (lines : List (List Char)) : List (List Char) :=
  (lines.filter fun line ↦ ¬ IsIdle line).map uncomment

/-- Whether a line is in order: it gives an instruction, if it holds any. -/
def Passes (line : List Char) : Prop :=
  ¬ IsIdle line → Acceptable (uncomment line)

/-- Whether a rejection is that of the first of some lines that is not in order. The lines are
counted from a number, with those that hold no instruction. -/
def FirstOffence (number : Nat) (lines : List (List Char)) (rejection : Rejection) : Prop :=
  ∃ before line after, lines = before ++ line :: after ∧ (∀ earlier ∈ before, Passes earlier) ∧
    ¬ IsIdle line ∧ Offence (uncomment line) rejection.problem ∧
    rejection.line = number + before.length

variable {line : List Char} {lines rest : List (List Char)} {number index : Nat}
  {rejection : Rejection}

theorem codes_of_idle (hidle : IsIdle line) : codes (line :: rest) = codes rest := by
  simp [codes, hidle]

theorem codes_of_busy (hbusy : ¬ IsIdle line) :
    codes (line :: rest) = uncomment line :: codes rest := by
  simp [codes, hbusy]

theorem assembleLines_of_idle (hidle : IsIdle line) :
    assembleLines number index (line :: rest) = assembleLines (number + 1) index rest := by
  rw [assembleLines, if_pos ((Text.trim_eq_nil_iff _).mpr hidle)]

theorem assembleLines_of_busy (hbusy : ¬ IsIdle line) :
    assembleLines number index (line :: rest) =
      match readInstruction index (uncomment line) with
      | .error problem => .error { line := number, problem := problem }
      | .ok instruction =>
        (assembleLines (number + 1) (index + 1) rest).map (instruction :: ·) := by
  have htrim : Text.trim (uncomment line) ≠ [] := mt (Text.trim_eq_nil_iff _).mp hbusy
  cases hread : readInstruction index (uncomment line) with
  | error problem => simp only [assembleLines, if_neg htrim, hread]
  | ok instruction => simp only [assembleLines, if_neg htrim, hread]

/-- The program of some lines has one instruction for each that holds one, numbered in order. -/
theorem assembleLines_eq_ok_iff (number index : Nat) {program : List Instruction} :
    assembleLines number index lines = .ok program ↔
      List.Forall₂ Gives ((codes lines).zipIdx index) program := by
  induction lines generalizing number index program with
  | nil =>
    rw [assembleLines, Except.ok.injEq, codes, List.filter_nil, List.map_nil, List.zipIdx_nil,
      List.forall₂_nil_left_iff, eq_comm]
  | cons line rest ih =>
    by_cases hidle : IsIdle line
    · rw [assembleLines_of_idle hidle, codes_of_idle hidle, ih (number + 1) index]
    · rw [codes_of_busy hidle, List.zipIdx_cons, List.forall₂_cons_left_iff,
        assembleLines_of_busy hidle]
      simp only [← readInstruction_eq_ok_iff, ← ih (number + 1)]
      cases readInstruction index (uncomment line) with
      | error problem => simp
      | ok instruction =>
        cases assembleLines (number + 1) (index + 1) rest with
        | error rejection => simp [Except.map]
        | ok more => simp [Except.map, eq_comm]

/-- A line that is in order leaves it to the lines after it whether they assemble. These start at
another entry if it gives an instruction, which does not matter for what is wrong with them. -/
theorem assembleLines_of_passes (hpasses : Passes line) (number index : Nat)
    (rest : List (List Char)) :
    ∃ (first : List Instruction) (entry : Nat), assembleLines number index (line :: rest) =
      (assembleLines (number + 1) entry rest).map (first ++ ·) := by
  by_cases hidle : IsIdle line
  · refine ⟨[], index, ?_⟩
    rw [assembleLines_of_idle hidle]
    cases assembleLines (number + 1) index rest <;> rfl
  · obtain ⟨instruction, hgives⟩ := (exists_gives_iff index).mpr (hpasses hidle)
    refine ⟨[instruction], index + 1, ?_⟩
    rw [assembleLines_of_busy hidle, readInstruction_eq_ok_iff.mpr hgives]
    rfl

/-- A line that is not in order ends the assembly. -/
theorem assembleLines_of_offence (hbusy : ¬ IsIdle line) {problem : Problem}
    (hoffence : Offence (uncomment line) problem) :
    assembleLines number index (line :: rest) = .error { line := number, problem := problem } := by
  rw [assembleLines_of_busy hbusy, readInstruction_eq_error_iff.mpr hoffence]

theorem exists_offence_of_not_passes (hnot : ¬ Passes line) :
    ¬ IsIdle line ∧ ∃ problem, Offence (uncomment line) problem := by
  unfold Passes at hnot
  rw [Classical.not_imp] at hnot
  exact ⟨hnot.1, exists_offence_of_not_acceptable hnot.2⟩

/-- Lines assemble exactly if each is in order. -/
theorem exists_assembleLines_iff (number index : Nat) :
    (∃ program, assembleLines number index lines = .ok program) ↔ ∀ line ∈ lines, Passes line := by
  induction lines generalizing number index with
  | nil => simp [assembleLines]
  | cons line rest ih =>
    rw [List.forall_mem_cons]
    by_cases hpasses : Passes line
    · obtain ⟨first, entry, hline⟩ := assembleLines_of_passes hpasses number index rest
      rw [hline, ← ih (number + 1) entry]
      cases assembleLines (number + 1) entry rest <;> simp [Except.map, hpasses]
    · obtain ⟨hbusy, problem, hoffence⟩ := exists_offence_of_not_passes hpasses
      rw [assembleLines_of_offence hbusy hoffence]
      simp [hpasses]

theorem firstOffence_of_passes (hpasses : Passes line) :
    FirstOffence number (line :: rest) rejection ↔ FirstOffence (number + 1) rest rejection := by
  unfold FirstOffence
  simp only [List.cons_eq_append_iff]
  constructor
  · rintro ⟨before, other, after, ⟨rfl, hsame⟩ | ⟨middle, rfl, rfl⟩, hbefore, hbusy, hoffence,
      hnumber⟩
    · obtain ⟨rfl, rfl⟩ := List.cons.inj hsame
      exact absurd (hpasses hbusy) hoffence.not_acceptable
    · refine ⟨middle, other, after, rfl, (List.forall_mem_cons.mp hbefore).2, hbusy, hoffence, ?_⟩
      rw [hnumber, List.length_cons]
      omega
  · rintro ⟨before, other, after, rfl, hbefore, hbusy, hoffence, hnumber⟩
    refine ⟨line :: before, other, after, .inr ⟨before, rfl, rfl⟩,
      List.forall_mem_cons.mpr ⟨hpasses, hbefore⟩, hbusy, hoffence, ?_⟩
    rw [hnumber, List.length_cons]
    omega

theorem firstOffence_of_offence (hbusy : ¬ IsIdle line) {problem : Problem}
    (hoffence : Offence (uncomment line) problem) :
    FirstOffence number (line :: rest) rejection ↔
      rejection = { line := number, problem := problem } := by
  constructor
  · rintro ⟨before, other, after, hlines, hbefore, -, hother, hnumber⟩
    rcases List.cons_eq_append_iff.mp hlines with ⟨rfl, hsame⟩ | ⟨middle, rfl, rfl⟩
    · obtain ⟨rfl, rfl⟩ := List.cons.inj hsame
      obtain ⟨found, reported⟩ := rejection
      rw [hoffence.unique hother]
      exact congrArg (Rejection.mk · reported) hnumber
    · exact absurd (hbefore line List.mem_cons_self hbusy) hoffence.not_acceptable
  · rintro rfl
    exact ⟨[], line, rest, rfl, by simp, hbusy, hoffence, rfl⟩

/-- Lines that do not assemble are rejected for the first that is not in order. -/
theorem assembleLines_eq_error_iff (number index : Nat) :
    assembleLines number index lines = .error rejection ↔
      FirstOffence number lines rejection := by
  induction lines generalizing number index with
  | nil => simp [assembleLines, FirstOffence]
  | cons line rest ih =>
    by_cases hpasses : Passes line
    · obtain ⟨first, entry, hline⟩ := assembleLines_of_passes hpasses number index rest
      rw [hline, firstOffence_of_passes hpasses, ← ih (number + 1) entry]
      cases assembleLines (number + 1) entry rest <;> simp [Except.map]
    · obtain ⟨hbusy, problem, hoffence⟩ := exists_offence_of_not_passes hpasses
      rw [assembleLines_of_offence hbusy hoffence, firstOffence_of_offence hbusy hoffence,
        Except.error.injEq, eq_comm]

/-- A source assembles exactly if each of its lines is in order. Its program has one instruction for
each line that holds one, in their order, and the instruction of each is what its parts stand for.
Any other source is rejected for its first line that is not in order, with what is wrong with that
line first. -/
theorem assemble_exact (source : String) :
    ((∃ program, assemble source = .ok program) ↔
      ∀ line ∈ Text.lines source.toList, Passes line) ∧
    (∀ program, assemble source = .ok program ↔
      List.Forall₂ Gives (codes (Text.lines source.toList)).zipIdx program) ∧
    ∀ rejection, assemble source = .error rejection ↔
      FirstOffence 1 (Text.lines source.toList) rejection :=
  ⟨exists_assembleLines_iff 1 0, fun _ ↦ assembleLines_eq_ok_iff 1 0,
    fun _ ↦ assembleLines_eq_error_iff 1 0⟩

/-- The last entry that a target can name, and the one after it. -/
theorem assemble_exact_last_entry :
    (∀ line ∈ Text.lines "Add(1, $ip, -3) -> 26843545 # far away\n".toList, Passes line) ∧
    Gives ("Add(1, $ip, -3) -> 26843545 ".toList, 0) ⟨.add, 1, 33, -3, 4294967264⟩ ∧
    FirstOffence 1 (Text.lines "Halt\n\nLoad(1, 2) -> 26843546\n".toList)
      { line := 3, problem := .badNumber "26843546" } := by
  have haccepted : assemble "Add(1, $ip, -3) -> 26843545 # far away\n" =
      .ok [⟨.add, 1, 33, -3, 4294967264⟩] := by decide +kernel
  have hrejected : assemble "Halt\n\nLoad(1, 2) -> 26843546\n" =
      .error { line := 3, problem := .badNumber "26843546" } := by decide +kernel
  obtain ⟨hpasses, hprogram, -⟩ := assemble_exact "Add(1, $ip, -3) -> 26843545 # far away\n"
  have hgives := (hprogram _).mp haccepted
  have hcodes : (codes (Text.lines "Add(1, $ip, -3) -> 26843545 # far away\n".toList)).zipIdx =
      [("Add(1, $ip, -3) -> 26843545 ".toList, 0)] := by decide +kernel
  rw [hcodes, List.forall₂_cons] at hgives
  exact ⟨hpasses.mp ⟨_, haccepted⟩, hgives.1, ((assemble_exact _).2.2 _).mp hrejected⟩

-- The first number beyond a signed word is refused, and not taken for the least.
example : assemble "Load(2147483648, 1)" =
    .error { line := 1, problem := .badNumber "2147483648" } := by decide +kernel

end TapeMachine.Assembly
