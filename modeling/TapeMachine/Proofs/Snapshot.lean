import TapeMachine.Proofs.Machine.Placement
import TapeMachine.Snapshot
import TapeMachine.Text.Lines

/-!
# What a snapshot tells

The text of a snapshot has three lines (`lines_text`), and nothing that was captured gets lost in it
(`text_injective`): spaces stand for blank cells, set off the number of the step and indent the
caret, but the bars, the colon and the caret tell which is which. So the text determines what it
shows of a machine, whatever machine it is (`capture_text`).
-/

set_option autoImplicit false

namespace TapeMachine

theorem Text.digits_injective : Function.Injective digits :=
  Function.LeftInverse.injective value_digits

theorem Text.notMem_digits {c : Char} (hc : c.isDigit = false) (number : Nat) :
    c ∉ digits number := by
  intro hmem
  rw [isDigit_of_mem_digits hmem] at hc
  cases hc

namespace Snapshot

/-! ### Three lines -/

theorem cellsText_cons_cons (symbol next : Symbol) (rest : List Symbol) :
    cellsText (symbol :: next :: rest) = symbol.toChar :: '|' :: cellsText (next :: rest) := rfl

/-- In the text of the cells there are the characters of symbols and bars between them. -/
theorem notMem_cellsText {c : Char} (hc : c ∉ '|' :: Symbol.all.map Symbol.toChar)
    (symbols : List Symbol) : c ∉ cellsText symbols := by
  obtain ⟨hbar, hall⟩ := not_or.mp (mt List.mem_cons.mpr hc)
  have hsymbol : ∀ symbol : Symbol, c ≠ symbol.toChar := by
    rintro symbol rfl
    exact hall (List.mem_map_of_mem (by cases symbol <;> decide))
  induction symbols with
  | nil => exact List.not_mem_nil
  | cons symbol symbols ih =>
    cases symbols with
    | nil => exact fun hmem ↦ hsymbol symbol (List.mem_singleton.mp hmem)
    | cons next rest =>
      rw [cellsText_cons_cons, List.mem_cons, List.mem_cons, not_or, not_or]
      exact ⟨hsymbol symbol, hbar, ih⟩

theorem isUnbroken_cellsText (symbols : List Symbol) : Text.IsUnbroken (cellsText symbols) :=
  ⟨notMem_cellsText (by decide) symbols, notMem_cellsText (by decide) symbols⟩

theorem isUnbroken_digits (number : Nat) : Text.IsUnbroken (Text.digits number) :=
  ⟨Text.notMem_digits (by decide) number, Text.notMem_digits (by decide) number⟩

theorem isUnbroken_indent (snapshot : Snapshot) : Text.IsUnbroken snapshot.indent := by
  constructor <;> exact fun hmem ↦ absurd (List.eq_of_mem_replicate hmem) (by decide)

theorem isUnbroken_stateText (state : Option Nat) : Text.IsUnbroken (stateText state) := by
  cases state with
  | none => decide
  | some number => exact isUnbroken_digits number

theorem stateText_ne_nil (state : Option Nat) : stateText state ≠ [] := by
  cases state with
  | none => exact List.cons_ne_nil _ _
  | some number => exact Nat.toDigits_ne_nil

/-- The lines of a text: the cells with the number of the step, the caret and the state. -/
theorem lines_text (snapshot : Snapshot) :
    Text.lines snapshot.text.toList =
      [cellsText snapshot.symbols ++ [' ', ' ', ' ', ' '] ++ ':' :: Text.digits snapshot.step,
        snapshot.indent ++ ['^'], snapshot.indent ++ stateText snapshot.state] := by
  have hcells : Text.IsUnbroken
      (cellsText snapshot.symbols ++ [' ', ' ', ' ', ' '] ++ ':' :: Text.digits snapshot.step) := by
    rw [Text.isUnbroken_append, Text.isUnbroken_append]
    exact ⟨⟨isUnbroken_cellsText _, by decide⟩,
      Text.isUnbroken_cons.mpr ⟨by decide, isUnbroken_digits _⟩⟩
  have hcaret : Text.IsUnbroken (snapshot.indent ++ ['^']) :=
    Text.isUnbroken_append.mpr ⟨snapshot.isUnbroken_indent, by decide⟩
  have hstate : Text.IsUnbroken (snapshot.indent ++ stateText snapshot.state) :=
    Text.isUnbroken_append.mpr ⟨snapshot.isUnbroken_indent, isUnbroken_stateText _⟩
  have hne : snapshot.indent ++ stateText snapshot.state ≠ [] :=
    List.append_ne_nil_of_right_ne_nil _ (stateText_ne_nil _)
  have htext : snapshot.characters =
      (cellsText snapshot.symbols ++ [' ', ' ', ' ', ' '] ++ ':' :: Text.digits snapshot.step) ++
        '\n' :: ((snapshot.indent ++ ['^']) ++
          '\n' :: (snapshot.indent ++ stateText snapshot.state)) := by
    simp only [characters, List.append_assoc, List.cons_append, List.nil_append]
  rw [text, String.toList_ofList, htext, Text.lines_append_feed hcells,
    Text.lines_append_feed hcaret, Text.lines_of_isUnbroken hstate hne]

/-! ### Reading a text back -/

/-- The symbol of a cell stands in every second column. -/
theorem getElem?_cellsText (symbols : List Symbol) (column : Nat) :
    (cellsText symbols)[2 * column]? = symbols[column]?.map Symbol.toChar := by
  rw [cellsText, List.getElem?_intersperse_two_mul, List.getElem?_map]

theorem cellsText_injective : Function.Injective cellsText := by
  intro symbols other hcells
  refine List.ext_getElem? fun column ↦ Option.map_injective Symbol.toChar_injective ?_
  rw [← getElem?_cellsText, ← getElem?_cellsText, hcells]

theorem stateText_injective : Function.Injective stateText := by
  have hmark : ∀ number, Text.digits number ≠ ['?'] := by
    intro number hdigits
    refine Text.notMem_digits (c := '?') (by decide) number ?_
    rw [hdigits]
    exact List.mem_singleton_self _
  intro state other htext
  cases state with
  | none =>
    cases other with
    | none => rfl
    | some number => exact absurd htext.symm (hmark number)
  | some number =>
    cases other with
    | none => exact absurd htext (hmark number)
    | some second => exact congrArg some (Text.digits_injective htext)

theorem text_injective : Function.Injective text := by
  intro snapshot other htext
  have hlines := snapshot.lines_text
  rw [htext, other.lines_text] at hlines
  simp only [List.cons.injEq, and_true] at hlines
  obtain ⟨hcells, hcaret, hstate⟩ := hlines
  have hindent : other.indent = snapshot.indent := List.append_cancel_right hcaret
  have hcolumn : other.column = snapshot.column := by
    have hlength := congrArg List.length hindent
    rw [indent, indent, List.length_replicate, List.length_replicate] at hlength
    omega
  rw [hindent] at hstate
  -- The first colon of the line is the one before the number of the step.
  have hcolon : ':' ∉ cellsText other.symbols ++ [' ', ' ', ' ', ' '] := by
    rw [List.mem_append, not_or]
    exact ⟨notMem_cellsText (by decide) _, by decide⟩
  have hdigits : ':' ∉ Text.digits other.step := Text.notMem_digits (by decide) _
  obtain ⟨hcells, -, hstep⟩ := (List.append_cons_inj_of_notMem hcolon hdigits).mp hcells
  have hsymbols : other.symbols = snapshot.symbols :=
    cellsText_injective (List.append_cancel_right hcells)
  have hfound : other.state = snapshot.state :=
    stateText_injective (List.append_cancel_left hstate)
  cases snapshot
  cases other
  simp only at hcolumn hsymbols hfound hstep
  rw [hcolumn, hsymbols, hfound, Text.digits_injective hstep]

/-! ### What is captured -/

variable {machine : Machine} {step : Nat} {snapshot : Snapshot}

/-- A snapshot holds the tape, the column of the head, the state and the number of the step. -/
theorem of_capture (hcapture : capture machine step = .ok snapshot) :
    ∃ position < machine.cellCount, machine.head = .ok position ∧
      machine.tape = .ok snapshot.symbols ∧ snapshot.column = machine.cellCount - 1 - position ∧
      snapshot.state = machine.activeState ∧ snapshot.step = step := by
  unfold capture at hcapture
  cases hhead : machine.head with
  | error fault =>
    rw [hhead] at hcapture
    cases hcapture
  | ok position =>
    cases htape : machine.tape with
    | error fault =>
      rw [hhead, htape] at hcapture
      cases hcapture
    | ok symbols =>
      rw [hhead, htape] at hcapture
      cases hcapture
      exact ⟨position, (Machine.head_eq_ok_iff.mp hhead).2, rfl, rfl, rfl, rfl, rfl⟩

/-- The text of a snapshot has three lines, with the caret under the symbol under the head and the
state under the caret. Whatever machine and step it was captured from, those with the same text have
as many cells, the same tape, head and state, and the same number of the step. -/
theorem capture_text (hcapture : capture machine step = .ok snapshot) :
    (∃ cells column symbol, Text.lines snapshot.text.toList =
        [cells, List.replicate column ' ' ++ ['^'],
          List.replicate column ' ' ++ stateText machine.activeState] ∧
      cells[column]? = some symbol.toChar ∧ machine.symbolUnderHead = .ok symbol) ∧
    ∀ other number second, capture other number = .ok second → second.text = snapshot.text →
      other.cellCount = machine.cellCount ∧ other.tapeText = machine.tapeText ∧
      other.head = machine.head ∧ other.activeState = machine.activeState ∧ number = step := by
  obtain ⟨position, hposition, hhead, htape, hcolumn, hstate, hstep⟩ := of_capture hcapture
  refine ⟨?_, fun other number second hsecond htext ↦ ?_⟩
  · obtain ⟨symbol, hsymbol, hcell⟩ := Machine.exists_cell_of_tape htape hposition
    have hshown : (cellsText snapshot.symbols)[2 * snapshot.column]? = some symbol.toChar := by
      rw [getElem?_cellsText, hcolumn, hsymbol, Option.map_some]
    refine ⟨_, _, symbol, hstate ▸ snapshot.lines_text, ?_, ?_⟩
    · have hlength := (List.getElem?_eq_some_iff.mp hshown).1
      rw [List.getElem?_append_left (by rw [List.length_append]; omega),
        List.getElem?_append_left hlength, hshown]
    · rw [Machine.symbolUnderHead_of_head hhead, hcell]
  · obtain rfl := text_injective htext
    obtain ⟨place, hplace, hotherHead, hotherTape, hotherColumn, hotherState, hotherStep⟩ :=
      of_capture hsecond
    have hcells : other.cellCount = machine.cellCount := by
      rw [← Machine.length_of_tape hotherTape, Machine.length_of_tape htape]
    have hsame : place = position := by omega
    refine ⟨hcells, ?_, ?_, hotherState ▸ hstate, hotherStep ▸ hstep⟩
    · rw [Machine.tapeText, Machine.tapeText, hotherTape, htape]
    · rw [hotherHead, hhead, hsame]

/-- On a blank tape the caret is under a blank, and the texts of two steps differ. -/
theorem capture_text_blank_tape :
    ∃ machine snapshot, Machine.ofProgram [.halt] 16 = .ok machine ∧
      capture machine 7 = .ok snapshot ∧
      (∃ cells column, Text.lines snapshot.text.toList =
          [cells, List.replicate column ' ' ++ ['^'],
            List.replicate column ' ' ++ stateText machine.activeState] ∧
        cells[column]? = some ' ') ∧
      ∀ second, capture machine 8 = .ok second → second.text ≠ snapshot.text := by
  obtain ⟨machine, hmachine⟩ := Machine.exists_eq_ok_of_toBool
    (show (Machine.ofProgram [.halt] 16).toBool = true from rfl)
  obtain ⟨hbuilt, hplan⟩ := Machine.built_of_ofEntries hmachine
  have hcells : machine.cellCount = 16 := Machine.cellCount_of_plan hplan
  have htape := Machine.tape_of_cell hbuilt.cell
  obtain ⟨snapshot, hcapture⟩ : ∃ snapshot, capture machine 7 = .ok snapshot := by
    unfold capture
    rw [hbuilt.head, htape]
    exact ⟨_, rfl⟩
  obtain ⟨⟨cells, column, symbol, hlines, hcolumn, hread⟩, hsame⟩ := capture_text hcapture
  refine ⟨machine, snapshot, hmachine, hcapture, ⟨cells, column, hlines, ?_⟩, ?_⟩
  · rw [Machine.symbolUnderHead_of_head hbuilt.head, hbuilt.cell 0 (by omega)] at hread
    cases hread
    exact hcolumn
  · intro second hsecond htext
    obtain ⟨-, -, -, -, hnumber⟩ := hsame machine 8 second hsecond htext
    exact absurd hnumber (by decide)

end Snapshot

end TapeMachine
