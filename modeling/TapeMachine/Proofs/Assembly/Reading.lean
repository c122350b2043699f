import TapeMachine.Proofs.Assembly.Grammar

/-!
# What the reader of lines accepts

Reading takes nothing for a line that does not have the form of one. Each part of the reader takes
from the front of a text something that has the form of that part, and leaves the rest; the lemmas
below follow the reader from runs and gaps to whole lines. With the converse, that every text of the
form of a line is read as that line, a text is read exactly if it is a line, and as no other line.
-/

set_option autoImplicit false

namespace TapeMachine.Assembly

variable {text rest : List Char}

/-! ### Runs and gaps -/

theorem exists_gap_append_skipGap (text : List Char) :
    ∃ gap, IsGap gap ∧ text = gap ++ skipGap text := by
  refine ⟨text.takeWhile isGap, fun c hc ↦ ?_, List.takeWhile_append_dropWhile.symm⟩
  exact List.all_eq_true.mp List.all_takeWhile c hc

theorem isGap_of_skipGap (htext : skipGap text = []) : IsGap text := by
  obtain ⟨gap, hgap, hsplit⟩ := exists_gap_append_skipGap text
  rw [htext, List.append_nil] at hsplit
  exact hsplit ▸ hgap

/-- What is found is a run, and comes before what is left. -/
theorem isRun_of_run? {belongs : Char → Bool} {found : List Char}
    (hrun : run? belongs text = some (found, rest)) :
    IsRun belongs found ∧ text = found ++ rest := by
  have hsplit := List.takeWhile_append_dropWhile (p := belongs) (l := text)
  have hall := List.all_takeWhile (p := belongs) (l := text)
  unfold run? at hrun
  split at hrun
  · cases hrun
  · next first more htake =>
    cases hrun
    rw [htake] at hsplit hall
    exact ⟨⟨List.cons_ne_nil first more, List.all_eq_true.mp hall⟩, hsplit.symm⟩

/-! ### Operands -/

theorem exists_operandForm_of_bareOperand? {operand : Operand}
    (hread : bareOperand? text = some (operand, rest)) :
    ∃ written, OperandForm operand written ∧ text = written ++ rest := by
  unfold bareOperand? at hread
  split at hread
  · simp only [Option.map_eq_some_iff, Prod.exists, Prod.mk.injEq] at hread
    obtain ⟨name, left, hrun, rfl, rfl⟩ := hread
    obtain ⟨hname, rfl⟩ := isRun_of_run? hrun
    exact ⟨'$' :: name, .register hname, rfl⟩
  · simp only [Option.map_eq_some_iff, Prod.exists, Prod.mk.injEq] at hread
    obtain ⟨digits, left, hrun, rfl, rfl⟩ := hread
    obtain ⟨hdigits, rfl⟩ := isRun_of_run? hrun
    exact ⟨'-' :: digits, .negative hdigits, rfl⟩
  · simp only [Option.map_eq_some_iff, Prod.exists, Prod.mk.injEq] at hread
    obtain ⟨digits, left, hrun, rfl, rfl⟩ := hread
    obtain ⟨hdigits, rfl⟩ := isRun_of_run? hrun
    exact ⟨digits, .number hdigits, rfl⟩

/-- An operand is read with the gap before it and the gap after it. -/
theorem exists_operandForm_of_operand? {operand : Operand}
    (hread : operand? text = some (operand, rest)) :
    ∃ before written after, IsGap before ∧ OperandForm operand written ∧ IsGap after ∧
      text = before ++ written ++ after ++ rest := by
  simp only [operand?, Option.map_eq_some_iff, Prod.exists, Prod.mk.injEq] at hread
  obtain ⟨found, left, hbare, rfl, rfl⟩ := hread
  obtain ⟨before, hbefore, htext⟩ := exists_gap_append_skipGap text
  obtain ⟨written, hwritten, hskipped⟩ := exists_operandForm_of_bareOperand? hbare
  obtain ⟨after, hafter, hleft⟩ := exists_gap_append_skipGap left
  refine ⟨before, written, after, hbefore, hwritten, hafter, ?_⟩
  rw [List.append_assoc, List.append_assoc, ← hleft, ← hskipped, ← htext]

/-- What follows an operand: nothing more, or a comma and further operands. -/
def Follows (operands : List Operand) (text rest : List Char) : Prop :=
  operands = [] ∧ text = rest ∨
    ∃ written, OperandsForm operands written ∧ text = ',' :: written ++ rest

/-- An operand and those that follow it are operands with commas between them. -/
theorem Follows.exists_operandsForm {left : List Char} {first : Operand} {more : List Operand}
    (hfirst : operand? text = some (first, left)) (hmore : Follows more left rest) :
    ∃ written, OperandsForm (first :: more) written ∧ text = written ++ rest := by
  obtain ⟨before, written, after, hbefore, hwritten, hafter, rfl⟩ :=
    exists_operandForm_of_operand? hfirst
  rcases hmore with ⟨rfl, rfl⟩ | ⟨others, hothers, rfl⟩
  · exact ⟨_, .single hbefore hwritten hafter, rfl⟩
  · exact ⟨_, .cons hbefore hwritten hafter hothers, by simp⟩

theorem follows_of_moreOperands {operands : List Operand}
    (hread : moreOperands text = (operands, rest)) : Follows operands text rest := by
  induction text using moreOperands.induct generalizing operands rest with
  | case1 tail operand after hoperand _ more last hmore ih =>
    rw [moreOperands_comma hoperand hmore] at hread
    cases hread
    obtain ⟨written, hwritten, rfl⟩ := (ih hmore).exists_operandsForm hoperand
    exact Or.inr ⟨written, hwritten, rfl⟩
  | case2 tail hnone =>
    rw [moreOperands] at hread
    split at hread
    · next operand after hoperand =>
      rw [hnone] at hoperand
      cases hoperand
    · cases hread
      exact Or.inl ⟨rfl, rfl⟩
  | case3 text hcomma =>
    unfold moreOperands at hread
    split at hread
    · exact absurd rfl (hcomma _)
    · cases hread
      exact Or.inl ⟨rfl, rfl⟩

/-- A list of operands is read from its opening to its closing parenthesis. -/
theorem exists_operandListForm_of_operandList? {operands : List Operand}
    (hread : operandList? text = some (operands, rest)) :
    ∃ written, OperandListForm operands written ∧ text = written ++ rest := by
  unfold operandList? at hread
  split at hread
  · next tail =>
    obtain ⟨before, hbefore, htail⟩ := exists_gap_append_skipGap tail
    dsimp only at hread
    cases hfirst : operand? (skipGap tail) with
    | none =>
      rw [hfirst] at hread
      dsimp only at hread
      split at hread
      · next last hclose =>
        cases hread
        rw [skipGap_skipGap] at hclose
        refine ⟨_, .empty hbefore, ?_⟩
        rw [htail, hclose]
        simp
      · cases hread
    | some found =>
      obtain ⟨first, left⟩ := found
      rcases hmore : moreOperands left with ⟨more, behind⟩
      rw [hfirst] at hread
      dsimp only at hread
      rw [hmore] at hread
      dsimp only at hread
      split at hread
      · next last hclose =>
        cases hread
        obtain ⟨after, hafter, hbehind⟩ := exists_gap_append_skipGap behind
        obtain ⟨written, hwritten, hskipped⟩ :=
          (follows_of_moreOperands hmore).exists_operandsForm hfirst
        refine ⟨_, .operands hbefore hwritten hafter, ?_⟩
        rw [htail, hskipped, hbehind, hclose]
        simp
      · cases hread
  · cases hread

/-! ### Targets -/

theorem exists_targetForm_of_target? {target : Target}
    (hread : target? text = some (target, rest)) :
    ∃ written, TargetForm (some target) written ∧ text = written ++ rest := by
  obtain ⟨before, hbefore, htext⟩ := exists_gap_append_skipGap text
  unfold target? at hread
  split at hread
  · next tail harrow =>
    obtain ⟨after, hafter, htail⟩ := exists_gap_append_skipGap tail
    rw [harrow] at htext
    split at hread
    · next digits hat =>
      simp only [Option.map_eq_some_iff, Prod.exists, Prod.mk.injEq] at hread
      obtain ⟨found, left, hrun, rfl, rfl⟩ := hread
      obtain ⟨hdigits, hsplit⟩ := isRun_of_run? hrun
      refine ⟨_, .offset hbefore hafter hdigits, ?_⟩
      rw [htext, htail, hat, hsplit]
      simp
    · simp only [Option.map_eq_some_iff, Prod.exists, Prod.mk.injEq] at hread
      obtain ⟨found, left, hrun, rfl, rfl⟩ := hread
      obtain ⟨hdigits, hsplit⟩ := isRun_of_run? hrun
      refine ⟨_, .entry hbefore hafter hdigits, ?_⟩
      rw [htext, htail, hsplit]
      simp
  · cases hread

/-! ### Whole lines -/

/-- The list of operands of a line, which may be absent. -/
theorem exists_operandListForm_of_getD {operands : List Operand}
    (hread : (operandList? text).getD ([], text) = (operands, rest)) :
    ∃ written, OperandListForm operands written ∧ text = written ++ rest := by
  cases hlist : operandList? text with
  | none =>
    rw [hlist] at hread
    cases hread
    exact ⟨[], .absent, rfl⟩
  | some found =>
    rw [hlist] at hread
    cases hread
    exact exists_operandListForm_of_operandList? hlist

/-- Every text that is read as a line has the form of that line. -/
theorem lineForm_of_parse? {line : Line} (hparse : Line.parse? text = some line) :
    LineForm line text := by
  obtain ⟨before, hbefore, htext⟩ := exists_gap_append_skipGap text
  unfold Line.parse? at hparse
  split at hparse
  · cases hparse
  next mnemonic behind hrun =>
  obtain ⟨hmnemonic, hskipped⟩ := isRun_of_run? hrun
  obtain ⟨between, hbetween, hbehind⟩ := exists_gap_append_skipGap behind
  dsimp only at hparse
  rcases hlist : (operandList? (skipGap behind)).getD ([], skipGap behind) with ⟨operands, left⟩
  obtain ⟨listed, hlisted, hleft⟩ := exists_operandListForm_of_getD hlist
  rw [hlist] at hparse
  dsimp only at hparse
  cases htarget : target? left with
  | none =>
    rw [htarget] at hparse
    dsimp only at hparse
    split at hparse
    · next hend =>
      cases hparse
      have hline : LineForm ⟨mnemonic, operands, none⟩
          (before ++ mnemonic ++ between ++ listed ++ [] ++ left) :=
        .intro hbefore hmnemonic hbetween hlisted .absent (isGap_of_skipGap hend)
      rw [htext, hskipped, hbehind, hleft]
      simpa using hline
    · cases hparse
  | some found =>
    obtain ⟨target, last⟩ := found
    obtain ⟨targeted, htargeted, hlast⟩ := exists_targetForm_of_target? htarget
    rw [htarget] at hparse
    dsimp only at hparse
    split at hparse
    · next hend =>
      cases hparse
      have hline : LineForm ⟨mnemonic, operands, some target⟩
          (before ++ mnemonic ++ between ++ listed ++ targeted ++ last) :=
        .intro hbefore hmnemonic hbetween hlisted htargeted (isGap_of_skipGap hend)
      rw [htext, hskipped, hbehind, hleft, hlast]
      simpa using hline
    · cases hparse

/-- A text is read as a line exactly if it has the form of that line, and it has the form of one
line at most. -/
theorem read_iff_lineForm (text : List Char) :
    (∀ line, Line.parse? text = some line ↔ LineForm line text) ∧
      ∀ line other, LineForm line text → LineForm other text → line = other := by
  refine ⟨fun line ↦ ⟨lineForm_of_parse?, LineForm.parse?_eq⟩, fun line other hline hother ↦ ?_⟩
  exact Option.some.inj (hline.parse?_eq.symm.trans hother.parse?_eq)

/-- A line with gaps wherever they may stand. -/
theorem read_iff_lineForm_all_parts :
    ∃ line, line.operands = [.number ['-', '1'], .register ['i', 'p']] ∧
      line.target = some (.offset ['7']) ∧
      LineForm line " Load ( -1,\t$ip )-> @7 ".toList ∧
      ∀ other, LineForm other " Load ( -1,\t$ip )-> @7 ".toList → line = other := by
  have hread : Line.parse? " Load ( -1,\t$ip )-> @7 ".toList = some
      { mnemonic := ['L', 'o', 'a', 'd']
        operands := [.number ['-', '1'], .register ['i', 'p']]
        target := some (.offset ['7']) } := by decide +kernel
  obtain ⟨hform, hunique⟩ := read_iff_lineForm " Load ( -1,\t$ip )-> @7 ".toList
  have hline := (hform _).mp hread
  exact ⟨_, rfl, rfl, hline, fun other hother ↦ hunique _ other hline hother⟩

-- A comma that no operand follows is left over, and the list with it.
example : Line.parse? "Load(1,)".toList = none := by decide +kernel

end TapeMachine.Assembly
