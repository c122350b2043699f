/-!
# Lines of assembly

A line of assembly is a mnemonic, an optional list of operands in parentheses and an optional
target after an arrow, as in `Add(1, $ip, 3) -> 7`. Spaces and tabs may stand between the parts and
at either end. `Line.parse?` reads a line, and refuses one that has anything left over.
-/

set_option autoImplicit false

namespace TapeMachine.Assembly

/-- An operand: a number with an optional minus sign, or the name of a register after a dollar
sign. -/
inductive Operand where
  | number (numeral : List Char)
  | register (name : List Char)
  deriving DecidableEq

/-- Where an instruction goes on: at an entry, or at a bit offset after an at sign. -/
inductive Target where
  | entry (digits : List Char)
  | offset (digits : List Char)
  deriving DecidableEq

/-- The parts of a line. -/
structure Line where
  mnemonic : List Char
  operands : List Operand
  target : Option Target
  deriving DecidableEq

/-- Whether a character may stand between the parts of a line. -/
def isGap (character : Char) : Bool :=
  character = ' ' || character = '\t'

/-- Whether a character may stand in the name of a register. -/
def isNameChar (character : Char) : Bool :=
  character.isAlphanum || character = '_'

def skipGap (text : List Char) : List Char := text.dropWhile isGap

/-- The longest run of characters of a class at the start of a text, and what follows it. -/
def run? (belongs : Char → Bool) (text : List Char) : Option (List Char × List Char) :=
  match text.takeWhile belongs with
  | [] => none
  | first :: more => some (first :: more, text.dropWhile belongs)

/-- An operand at the start of a text, and what follows it. -/
def bareOperand? (text : List Char) : Option (Operand × List Char) :=
  match text with
  | '$' :: rest => (run? isNameChar rest).map fun (name, rest) ↦ (.register name, rest)
  | '-' :: rest => (run? Char.isDigit rest).map fun (digits, rest) ↦ (.number ('-' :: digits), rest)
  | _ => (run? Char.isDigit text).map fun (digits, rest) ↦ (.number digits, rest)

/-- An operand with the gaps around it. -/
def operand? (text : List Char) : Option (Operand × List Char) :=
  (bareOperand? (skipGap text)).map fun (operand, rest) ↦ (operand, skipGap rest)

private theorem length_dropWhile_le (belongs : Char → Bool) (text : List Char) :
    (text.dropWhile belongs).length ≤ text.length :=
  (List.dropWhile_suffix belongs).length_le

private theorem length_lt_of_run? {belongs : Char → Bool} {text found rest : List Char}
    (hrun : run? belongs text = some (found, rest)) : rest.length < text.length := by
  have hsplit := congrArg List.length (List.takeWhile_append_dropWhile (p := belongs) (l := text))
  unfold run? at hrun
  split at hrun
  · cases hrun
  · next first more htake =>
    simp only [Option.some.injEq, Prod.mk.injEq] at hrun
    rw [htake, List.length_append, List.length_cons, hrun.2] at hsplit
    omega

private theorem length_lt_of_bareOperand? {text rest : List Char} {operand : Operand}
    (hoperand : bareOperand? text = some (operand, rest)) : rest.length < text.length := by
  unfold bareOperand? at hoperand
  split at hoperand <;>
    (simp only [Option.map_eq_some_iff, Prod.exists, Prod.mk.injEq] at hoperand
     obtain ⟨found, left, hrun, _, rfl⟩ := hoperand)
  · exact Nat.lt_succ_of_lt (length_lt_of_run? hrun)
  · exact Nat.lt_succ_of_lt (length_lt_of_run? hrun)
  · exact length_lt_of_run? hrun

/-- An operand takes up at least one character. -/
theorem length_lt_of_operand? {text rest : List Char} {operand : Operand}
    (hoperand : operand? text = some (operand, rest)) : rest.length < text.length := by
  simp only [operand?, Option.map_eq_some_iff, Prod.exists, Prod.mk.injEq] at hoperand
  obtain ⟨found, left, hbare, _, rfl⟩ := hoperand
  have hlength := length_lt_of_bareOperand? hbare
  have hbefore := length_dropWhile_le isGap text
  have hafter := length_dropWhile_le isGap left
  simp only [skipGap] at hlength ⊢
  omega

/-- The operands that follow, each after a comma, and what comes after them. A comma that no operand
follows is left alone. -/
def moreOperands (text : List Char) : List Operand × List Char :=
  match text with
  | ',' :: rest =>
    match h : operand? rest with
    | some (operand, after) =>
      have := length_lt_of_operand? h
      let (operands, last) := moreOperands after
      (operand :: operands, last)
    | none => ([], ',' :: rest)
  | _ => ([], text)
termination_by text.length

/-- The operands between parentheses, and what follows them. -/
def operandList? (text : List Char) : Option (List Operand × List Char) :=
  match text with
  | '(' :: rest =>
    let inner := skipGap rest
    let (operands, after) :=
      match operand? inner with
      | some (operand, after) =>
        let (operands, last) := moreOperands after
        (operand :: operands, last)
      | none => ([], inner)
    match skipGap after with
    | ')' :: last => some (operands, last)
    | _ => none
  | _ => none

/-- The target after an arrow, and what follows it. -/
def target? (text : List Char) : Option (Target × List Char) :=
  match skipGap text with
  | '-' :: '>' :: rest =>
    match skipGap rest with
    | '@' :: digits => (run? Char.isDigit digits).map fun (digits, rest) ↦ (.offset digits, rest)
    | digits => (run? Char.isDigit digits).map fun (digits, rest) ↦ (.entry digits, rest)
  | _ => none

/-- The parts of a line, if it has the form of one. A list of operands or a target that cannot be
read counts as absent, and then is left over. -/
def Line.parse? (text : List Char) : Option Line :=
  match run? Char.isAlpha (skipGap text) with
  | none => none
  | some (mnemonic, rest) =>
    let rest := skipGap rest
    let (operands, rest) := (operandList? rest).getD ([], rest)
    let (target, rest) :=
      match target? rest with
      | some (target, rest) => (some target, rest)
      | none => (none, rest)
    if skipGap rest = [] then some { mnemonic := mnemonic, operands := operands, target := target }
    else none

end TapeMachine.Assembly
