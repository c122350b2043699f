import Mathlib.Logic.Relation
import TapeMachine.Proofs.Assembly.Meaning

/-!
# Edits that change no program

Comments, lines without an instruction, and spaces and tabs at the ends of a line can be put into a
source as one likes. What a line gives does not depend on the gaps at its ends (`parse?_spaced`),
nor on what follows its hash, so that every edit keeps a draft `Aligned` with the lines it started
from. `assemble_edited` says what follows of whole sources: the program stays, and a rejection moves
down by the lines that were inserted above its line.
-/

set_option autoImplicit false

namespace TapeMachine

/-! ### White space at the ends -/

namespace Text

theorem isBlank_of_isGap {c : Char} (hc : Assembly.isGap c = true) : isBlank c = true := by
  rcases Assembly.eq_or_eq_of_isGap hc with rfl | rfl <;> decide

theorem trimEnd_append_blank {blank : List Char} (hblank : ∀ c ∈ blank, isBlank c = true)
    (text : List Char) : trimEnd (text ++ blank) = trimEnd text := by
  have hreverse : ∀ c ∈ blank.reverse, isBlank c = true :=
    fun c hc ↦ hblank c (List.mem_reverse.mp hc)
  rw [trimEnd, List.reverse_append, List.dropWhile_append_of_pos hreverse, trimEnd]

/-- Trimming takes away white space, whether or not there is more of it. -/
theorem trim_append_blank {left right : List Char} (hleft : ∀ c ∈ left, isBlank c = true)
    (hright : ∀ c ∈ right, isBlank c = true) (text : List Char) :
    trim (left ++ text ++ right) = trim text := by
  have hdrop : right.dropWhile isBlank = [] := by
    have hnil : (right ++ []).dropWhile isBlank = [].dropWhile isBlank :=
      List.dropWhile_append_of_pos hright
    rwa [List.append_nil, List.dropWhile_nil] at hnil
  rw [trim, List.append_assoc, List.dropWhile_append_of_pos hleft, List.dropWhile_append]
  split
  · next hempty => rw [hdrop, trim, List.isEmpty_iff.mp hempty]
  · rw [trimEnd_append_blank hright, trim]

end Text

namespace Assembly

variable {line : Line} {text left right : List Char}

/-! ### Gaps at the ends of a line -/

/-- A text that ends with a character which is not part of a gap. -/
def EndsFirmly (text : List Char) : Prop :=
  ∃ c ∈ text.getLast?, isGap c = false

theorem EndsFirmly.append_left (htext : EndsFirmly text) (front : List Char) :
    EndsFirmly (front ++ text) := by
  obtain ⟨c, hlast, hc⟩ := htext
  refine ⟨c, ?_, hc⟩
  rw [List.getLast?_append, Option.mem_def.mp hlast]
  rfl

theorem EndsFirmly.eq_nil_of_isGap {gap : List Char} (htext : EndsFirmly (text ++ gap))
    (hgap : IsGap gap) : gap = [] := by
  by_contra hne
  obtain ⟨c, hlast, hc⟩ := htext
  rw [List.getLast?_append, List.getLast?_eq_some_getLast hne, Option.some_or,
    Option.mem_some] at hlast
  rw [← hlast, hgap _ (List.getLast_mem hne)] at hc
  cases hc

theorem IsRun.endsFirmly {belongs : Char → Bool} (htext : IsRun belongs text)
    (hapart : ∀ c, belongs c = true → isGap c = false) : EndsFirmly text := by
  obtain ⟨hne, hall⟩ := htext
  exact ⟨_, List.getLast?_eq_some_getLast hne, hapart _ (hall _ (List.getLast_mem hne))⟩

theorem OperandListForm.endsFirmly {operands : List Operand}
    (htext : OperandListForm operands text) : text = [] ∨ EndsFirmly text := by
  have hclose : EndsFirmly [')'] := ⟨')', rfl, by decide⟩
  cases htext with
  | absent => exact Or.inl rfl
  | empty _ => exact Or.inr (hclose.append_left _)
  | operands _ _ _ => exact Or.inr (hclose.append_left _)

theorem TargetForm.endsFirmly {target : Option Target} (htext : TargetForm target text) :
    text = [] ∨ EndsFirmly text := by
  cases htext with
  | absent => exact Or.inl rfl
  | entry _ _ hdigits => exact Or.inr ((hdigits.endsFirmly isGap_eq_false_of_isDigit).append_left _)
  | @offset before after digits _ _ hdigits =>
    have hend := (hdigits.endsFirmly isGap_eq_false_of_isDigit).append_left
      (before ++ '-' :: '>' :: after ++ ['@'])
    rw [List.append_assoc, List.singleton_append] at hend
    exact Or.inr hend

/-- A line ends with a gap, and any other gap will do in its place. -/
theorem LineForm.exists_core (htext : LineForm line text) :
    ∃ core tail, text = core ++ tail ∧ EndsFirmly core ∧ IsGap tail ∧
      ∀ gap, IsGap gap → LineForm line (core ++ gap) := by
  rcases htext with @⟨before, between, operandsText, targetText, after, hbefore, hmnemonic,
    hbetween, hoperands, htarget, hafter⟩
  -- Without a target the gap begins after the operands, and without these after the mnemonic.
  rcases htarget.endsFirmly with rfl | hfirm
  · rcases hoperands.endsFirmly with rfl | hfirm
    · have hend := hmnemonic.endsFirmly isGap_eq_false_of_isAlpha
      refine ⟨before ++ line.mnemonic, between ++ after, by simp, hend.append_left _, ?_, ?_⟩
      · exact List.forall_mem_append.mpr ⟨hbetween, hafter⟩
      · intro gap hgap
        have hline := LineForm.intro hbefore hmnemonic hgap hoperands htarget isGap_nil
        simpa using hline
    · refine ⟨_, after, by rw [List.append_nil], hfirm.append_left _, hafter, fun gap hgap ↦ ?_⟩
      have hline := LineForm.intro hbefore hmnemonic hbetween hoperands htarget hgap
      rwa [List.append_nil] at hline
  · exact ⟨_, after, rfl, hfirm.append_left _, hafter,
      fun gap hgap ↦ .intro hbefore hmnemonic hbetween hoperands htarget hgap⟩

theorem LineForm.append_gap (htext : LineForm line text) (hright : IsGap right) :
    LineForm line (text ++ right) := by
  obtain ⟨core, tail, rfl, -, htail, hany⟩ := htext.exists_core
  rw [List.append_assoc]
  exact hany _ (List.forall_mem_append.mpr ⟨htail, hright⟩)

theorem LineForm.of_append_gap (hright : IsGap right) (htext : LineForm line (text ++ right)) :
    LineForm line text := by
  obtain ⟨core, tail, hsplit, hfirm, htail, hany⟩ := htext.exists_core
  rcases List.append_eq_append_iff.mp hsplit with ⟨extra, rfl, rfl⟩ | ⟨rest, rfl, rfl⟩
  · -- What the core has beyond the text is part of the gap, and a core does not end with one.
    obtain rfl := hfirm.eq_nil_of_isGap fun c hc ↦ hright c (List.mem_append_left _ hc)
    have hline := hany [] isGap_nil
    rwa [List.append_nil, List.append_nil] at hline
  · exact hany rest fun c hc ↦ htail c (List.mem_append_left _ hc)

/-- A line is read without the gaps at its ends. -/
theorem parse?_spaced (hleft : IsGap left) (hright : IsGap right) (text : List Char) :
    Line.parse? (left ++ text ++ right) = Line.parse? text := by
  have hstart : Line.parse? (left ++ (text ++ right)) = Line.parse? (text ++ right) := by
    rw [Line.parse?, Line.parse?, skipGap_append hleft]
  rw [List.append_assoc, hstart]
  refine Option.ext fun line ↦ ?_
  constructor
  · intro hparse
    exact ((lineForm_of_parse? hparse).of_append_gap hright).parse?_eq
  · intro hparse
    exact ((lineForm_of_parse? hparse).append_gap hright).parse?_eq

theorem readInstruction_spaced (hleft : IsGap left) (hright : IsGap right) (index : Nat)
    (code : List Char) :
    readInstruction index (left ++ code ++ right) = readInstruction index code := by
  have htrim := Text.trim_append_blank (fun c hc ↦ Text.isBlank_of_isGap (hleft c hc))
    (fun c hc ↦ Text.isBlank_of_isGap (hright c hc)) code
  rw [readInstruction, parse?_spaced hleft hright, htrim, readInstruction]

/-! ### Lines that read the same -/

/-- Lines that make no difference to a program: neither holds an instruction, or both give the same
one, or are refused for the same problem. -/
structure SameReading (line other : List Char) : Prop where
  idle : IsIdle other ↔ IsIdle line
  reads : ∀ index, readInstruction index (uncomment other) = readInstruction index (uncomment line)

namespace SameReading

variable {line other third : List Char}

theorem refl (line : List Char) : SameReading line line :=
  ⟨Iff.rfl, fun _ ↦ rfl⟩

theorem trans (hfirst : SameReading line other) (hsecond : SameReading other third) :
    SameReading line third :=
  ⟨hsecond.idle.trans hfirst.idle, fun index ↦ (hsecond.reads index).trans (hfirst.reads index)⟩

end SameReading

theorem uncomment_append_hash (line text : List Char) :
    uncomment (line ++ '#' :: text) = uncomment line := by
  rw [uncomment, List.takeWhile_append]
  split
  · next hall =>
    rw [List.takeWhile_cons_of_neg (by decide), List.append_nil, uncomment]
    exact (List.takeWhile_prefix _).eq_of_length hall |>.symm
  · rfl

/-- What is put at the end of a line goes to its code, or to its comment if it has one. -/
theorem exists_uncomment_spaced (hleft : IsGap left) (hright : IsGap right) (line : List Char) :
    ∃ rest, IsGap rest ∧ uncomment (left ++ line ++ right) = left ++ uncomment line ++ rest := by
  have hcode : ∀ {gap : List Char}, IsGap gap → ∀ c ∈ gap, decide (c ≠ '#') = true := by
    intro gap hgap c hc
    rcases eq_or_eq_of_isGap (hgap c hc) with rfl | rfl <;> decide
  rw [uncomment, List.append_assoc, List.takeWhile_append_of_pos (hcode hleft),
    List.takeWhile_append]
  split
  · next hall =>
    have hline := (List.takeWhile_prefix _).eq_of_length hall
    refine ⟨right, hright, ?_⟩
    rw [List.takeWhile_eq_self_iff.mpr (hcode hright), uncomment, hline, List.append_assoc]
  · exact ⟨[], isGap_nil, (List.append_nil _).symm⟩

theorem sameReading_comment (line text : List Char) : SameReading line (line ++ '#' :: text) := by
  refine ⟨?_, fun index ↦ ?_⟩
  · rw [IsIdle, uncomment_append_hash, IsIdle]
  · rw [uncomment_append_hash]

theorem sameReading_spaced (hleft : IsGap left) (hright : IsGap right) (line : List Char) :
    SameReading line (left ++ line ++ right) := by
  obtain ⟨rest, hrest, hcode⟩ := exists_uncomment_spaced hleft hright line
  refine ⟨?_, fun index ↦ ?_⟩
  · rw [IsIdle, hcode, List.forall_mem_append, List.forall_mem_append, IsIdle]
    constructor
    · exact fun hidle ↦ hidle.1.2
    · exact fun hidle ↦ ⟨⟨fun c hc ↦ Text.isBlank_of_isGap (hleft c hc), hidle⟩,
        fun c hc ↦ Text.isBlank_of_isGap (hrest c hc)⟩
  · rw [hcode, readInstruction_spaced hleft hrest]

/-! ### Drafts -/

/-- A line of a source that is being edited, with whether an edit put it there. -/
structure DraftLine where
  text : List Char
  inserted : Bool

/-- A line that was there from the start. -/
def DraftLine.original (text : List Char) : DraftLine :=
  { text := text, inserted := false }

/-- The source of some lines, each ended by a line feed. -/
def sourceOf (lines : List (List Char)) : String :=
  String.ofList (lines.map (· ++ ['\n'])).flatten

/-- An edit of a draft: a line without an instruction is put in, or a comment is put at the end of
a line, or gaps are put at both of its ends. -/
inductive Edit : List DraftLine → List DraftLine → Prop where
  | insert (before after : List DraftLine) {text : List Char} (hunbroken : Text.IsUnbroken text)
    (hidle : IsIdle text) :
    Edit (before ++ after) (before ++ { text := text, inserted := true } :: after)
  | comment (before after : List DraftLine) (line : DraftLine) {text : List Char}
    (hunbroken : Text.IsUnbroken text) :
    Edit (before ++ line :: after)
      (before ++ { line with text := line.text ++ '#' :: text } :: after)
  | space (before after : List DraftLine) (line : DraftLine) {left right : List Char}
    (hleft : IsGap left) (hright : IsGap right) :
    Edit (before ++ line :: after)
      (before ++ { line with text := left ++ line.text ++ right } :: after)

/-- Lines with a draft of them: an idle line wherever one was inserted, and in between the lines
themselves, up to what makes no difference. -/
inductive Aligned : List (List Char) → List DraftLine → Prop where
  | nil : Aligned [] []
  | inserted {lines : List (List Char)} {draft : List DraftLine} {text : List Char}
    (hidle : IsIdle text) (hrest : Aligned lines draft) :
    Aligned lines ({ text := text, inserted := true } :: draft)
  | kept {lines : List (List Char)} {draft : List DraftLine} {line text : List Char}
    (hsame : SameReading line text) (hrest : Aligned lines draft) :
    Aligned (line :: lines) ({ text := text, inserted := false } :: draft)

/-- How the answer for a draft follows from that for the lines it started from, with the lines of
the draft counted from one number and the others from another. -/
def Moved (draft : List DraftLine) (number first : Nat)
    (given edited : Except Rejection (List Instruction)) : Prop :=
  match given with
  | .ok program => edited = .ok program
  | .error rejection =>
    ∃ before offender after, draft = before ++ offender :: after ∧ offender.inserted = false ∧
      rejection.line = number + before.countP (!·.inserted) ∧
      edited = .error { rejection with line := first + before.length }

namespace Moved

variable {draft : List DraftLine} {number first : Nat} {text : List Char}
  {given edited : Except Rejection (List Instruction)}

theorem inserted (hmoved : Moved draft number (first + 1) given edited) :
    Moved ({ text := text, inserted := true } :: draft) number first given edited := by
  cases given with
  | ok program => exact hmoved
  | error rejection =>
    obtain ⟨before, offender, after, rfl, hkept, hline, rfl⟩ := hmoved
    refine ⟨_ :: before, offender, after, rfl, hkept, ?_, ?_⟩
    · rw [hline, List.countP_cons_of_neg (by simp)]
    · rw [List.length_cons, Nat.add_right_comm, Nat.add_assoc]

theorem kept (hmoved : Moved draft (number + 1) (first + 1) given edited) :
    Moved ({ text := text, inserted := false } :: draft) number first given edited := by
  cases given with
  | ok program => exact hmoved
  | error rejection =>
    obtain ⟨before, offender, after, rfl, hkept, hline, rfl⟩ := hmoved
    refine ⟨_ :: before, offender, after, rfl, hkept, ?_, ?_⟩
    · rw [hline, List.countP_cons_of_pos rfl, Nat.add_right_comm, Nat.add_assoc]
    · rw [List.length_cons, Nat.add_right_comm, Nat.add_assoc]

theorem map (f : List Instruction → List Instruction)
    (hmoved : Moved draft number first given edited) :
    Moved draft number first (given.map f) (edited.map f) := by
  cases given with
  | ok program =>
    obtain rfl := hmoved
    rfl
  | error rejection =>
    obtain ⟨before, offender, after, rfl, hkept, hline, rfl⟩ := hmoved
    exact ⟨before, offender, after, rfl, hkept, hline, rfl⟩

end Moved

namespace Aligned

variable {lines : List (List Char)} {draft edited after other : List DraftLine}

theorem original (lines : List (List Char)) : Aligned lines (lines.map DraftLine.original) := by
  induction lines with
  | nil => exact .nil
  | cons line lines ih => exact .kept (.refl line) ih

/-- A draft may be changed behind any of its lines. -/
theorem append_congr (hafter : ∀ lines, Aligned lines after → Aligned lines other)
    (before : List DraftLine) {lines : List (List Char)}
    (haligned : Aligned lines (before ++ after)) : Aligned lines (before ++ other) := by
  induction before generalizing lines with
  | nil => exact hafter lines haligned
  | cons line before ih =>
    cases haligned with
    | inserted hidle hrest => exact .inserted hidle (ih hrest)
    | kept hsame hrest => exact .kept hsame (ih hrest)

theorem revise {line : DraftLine} {text : List Char} (htext : SameReading line.text text)
    (haligned : Aligned lines (line :: after)) :
    Aligned lines ({ line with text := text } :: after) := by
  cases haligned with
  | inserted hidle hrest => exact .inserted (htext.idle.mpr hidle) hrest
  | kept hsame hrest => exact .kept (hsame.trans htext) hrest

/-- Every edit keeps a draft aligned with the lines it started from. -/
theorem edit (haligned : Aligned lines draft) (hedit : Edit draft edited) :
    Aligned lines edited := by
  cases hedit with
  | insert before after hunbroken hidle =>
    exact haligned.append_congr (fun _ hafter ↦ .inserted hidle hafter) before
  | comment before after line hunbroken =>
    exact haligned.append_congr (fun _ ↦ revise (sameReading_comment _ _)) before
  | space before after line hleft hright =>
    exact haligned.append_congr (fun _ ↦ revise (sameReading_spaced hleft hright _)) before

theorem edits (hedits : Relation.ReflTransGen Edit (lines.map DraftLine.original) draft) :
    Aligned lines draft := by
  induction hedits with
  | refl => exact original lines
  | tail _ hedit ih => exact ih.edit hedit

/-- A draft gives the program of the lines it started from, or is rejected at the same line for the
same problem. -/
theorem moved (haligned : Aligned lines draft) (number first index : Nat) :
    Moved draft number first (assembleLines number index lines)
      (assembleLines first index (draft.map DraftLine.text)) := by
  induction haligned generalizing number first index with
  | nil => rfl
  | inserted hidle _ ih =>
    rw [List.map_cons, assembleLines_of_idle hidle]
    exact (ih number (first + 1) index).inserted
  | @kept lines draft line text hsame _ ih =>
    rw [List.map_cons]
    by_cases hidle : IsIdle line
    · rw [assembleLines_of_idle hidle, assembleLines_of_idle (hsame.idle.mpr hidle)]
      exact (ih (number + 1) (first + 1) index).kept
    · rw [assembleLines_of_busy hidle, assembleLines_of_busy (mt hsame.idle.mp hidle), hsame.reads]
      cases readInstruction index (uncomment line) with
      | error problem => exact ⟨[], _, draft, rfl, rfl, rfl, rfl⟩
      | ok instruction => exact ((ih (number + 1) (first + 1) (index + 1)).map _).kept

end Aligned

/-! ### Whole sources -/

theorem length_eq_countP_inserted (draft : List DraftLine) :
    draft.length = draft.countP (!·.inserted) + draft.countP (·.inserted) := by
  rw [List.length_eq_countP_add_countP fun line : DraftLine ↦ !line.inserted]
  simp

theorem IsGap.isUnbroken {gap : List Char} (hgap : IsGap gap) : Text.IsUnbroken gap := by
  constructor <;> exact fun hmem ↦ absurd (hgap _ hmem) (by decide)

theorem Edit.isUnbroken {draft edited : List DraftLine} (hedit : Edit draft edited)
    (hdraft : ∀ line ∈ draft, Text.IsUnbroken line.text) :
    ∀ line ∈ edited, Text.IsUnbroken line.text := by
  cases hedit with
  | insert before after hunbroken _ =>
    rw [List.forall_mem_append] at hdraft ⊢
    exact ⟨hdraft.1, List.forall_mem_cons.mpr ⟨hunbroken, hdraft.2⟩⟩
  | comment before after line hunbroken =>
    rw [List.forall_mem_append, List.forall_mem_cons] at hdraft ⊢
    refine ⟨hdraft.1, ?_, hdraft.2.2⟩
    rw [← List.singleton_append, Text.isUnbroken_append, Text.isUnbroken_append]
    exact ⟨hdraft.2.1, by decide, hunbroken⟩
  | space before after line hleft hright =>
    rw [List.forall_mem_append, List.forall_mem_cons] at hdraft ⊢
    refine ⟨hdraft.1, ?_, hdraft.2.2⟩
    rw [Text.isUnbroken_append, Text.isUnbroken_append]
    exact ⟨⟨hleft.isUnbroken, hdraft.2.1⟩, hright.isUnbroken⟩

theorem isUnbroken_of_edits {lines : List (List Char)} {draft : List DraftLine}
    (hunbroken : ∀ line ∈ lines, Text.IsUnbroken line)
    (hedits : Relation.ReflTransGen Edit (lines.map DraftLine.original) draft) :
    ∀ line ∈ draft, Text.IsUnbroken line.text := by
  induction hedits with
  | refl => exact List.forall_mem_map.mpr hunbroken
  | tail _ hedit ih => exact hedit.isUnbroken ih

theorem assemble_sourceOf {lines : List (List Char)}
    (hunbroken : ∀ line ∈ lines, Text.IsUnbroken line) :
    assemble (sourceOf lines) = assembleLines 1 0 lines := by
  rw [assemble, sourceOf, String.toList_ofList, Text.lines_flatten hunbroken]

/-- Comments, lines without an instruction and gaps at the ends of lines change no program. A source
that is rejected stays rejected for the same problem, at the same line: its number grows by how many
lines were inserted before it. -/
theorem assemble_edited {lines : List (List Char)} {draft : List DraftLine}
    (hunbroken : ∀ line ∈ lines, Text.IsUnbroken line)
    (hedits : Relation.ReflTransGen Edit (lines.map DraftLine.original) draft) :
    match assemble (sourceOf lines) with
    | .ok program => assemble (sourceOf (draft.map DraftLine.text)) = .ok program
    | .error rejection =>
      ∃ before offender after, draft = before ++ offender :: after ∧ offender.inserted = false ∧
        rejection.line = 1 + before.countP (!·.inserted) ∧
        assemble (sourceOf (draft.map DraftLine.text)) =
          .error { rejection with line := rejection.line + before.countP (·.inserted) } := by
  have hmoved := (Aligned.edits hedits).moved 1 1 0
  rw [← assemble_sourceOf hunbroken,
    ← assemble_sourceOf (List.forall_mem_map.mpr (isUnbroken_of_edits hunbroken hedits))] at hmoved
  cases hgiven : assemble (sourceOf lines) with
  | ok program =>
    rw [hgiven] at hmoved
    exact hmoved
  | error rejection =>
    rw [hgiven] at hmoved
    obtain ⟨before, offender, after, hdraft, hkept, hline, hedited⟩ := hmoved
    refine ⟨before, offender, after, hdraft, hkept, hline, ?_⟩
    rw [hedited, hline, length_eq_countP_inserted before]
    simp only [Nat.add_assoc]

/-- A line that is no operation is still reported, one line further down. -/
theorem assemble_edited_rejected :
    assemble (sourceOf ["Halt".toList, "Jump".toList]) =
      .error { line := 2, problem := .notAnOperation "Jump" } ∧
    ∃ before offender after, ([⟨"\t# stop here".toList, true⟩, ⟨"Halt# done".toList, false⟩,
        ⟨"  Jump ".toList, false⟩] : List DraftLine) = before ++ offender :: after ∧
      offender.inserted = false ∧ 2 = 1 + before.countP (!·.inserted) ∧
      assemble (sourceOf ["\t# stop here".toList, "Halt# done".toList, "  Jump ".toList]) =
        .error { line := 2 + before.countP (·.inserted), problem := .notAnOperation "Jump" } := by
  have hrejected : assemble (sourceOf ["Halt".toList, "Jump".toList]) =
      .error { line := 2, problem := .notAnOperation "Jump" } := by decide +kernel
  have hinsert : Edit (["Halt".toList, "Jump".toList].map DraftLine.original)
      [⟨"\t# stop here".toList, true⟩, .original "Halt".toList, .original "Jump".toList] :=
    .insert [] _ (by decide) (by decide)
  have hcomment : Edit
      [⟨"\t# stop here".toList, true⟩, .original "Halt".toList, .original "Jump".toList]
      [⟨"\t# stop here".toList, true⟩, ⟨"Halt# done".toList, false⟩, .original "Jump".toList] :=
    @Edit.comment [_] _ (.original "Halt".toList) " done".toList (by decide)
  have hspace : Edit
      [⟨"\t# stop here".toList, true⟩, ⟨"Halt# done".toList, false⟩, .original "Jump".toList]
      [⟨"\t# stop here".toList, true⟩, ⟨"Halt# done".toList, false⟩, ⟨"  Jump ".toList, false⟩] :=
    @Edit.space [_, _] _ (.original "Jump".toList) [' ', ' '] [' '] (by simp [IsGap, isGap])
      (by simp [IsGap, isGap])
  have hedited := assemble_edited (by decide)
    (((Relation.ReflTransGen.single hinsert).tail hcomment).tail hspace)
  rw [hrejected] at hedited
  exact ⟨hrejected, hedited⟩

end Assembly

end TapeMachine
