import TapeMachine.Assembly.Line

/-!
# The grammar of assembly lines

What the lines of assembly are, said without reading them. With `W` for any run of spaces and tabs,
a line is `W mnemonic W`, then `( W operands W )` or nothing, then `W -> W target` or nothing, then
`W`; operands are separated by commas and may have a `W` on either side.
-/

set_option autoImplicit false

namespace TapeMachine.Assembly

/-- One or more characters of a class. -/
def IsRun (belongs : Char → Bool) (text : List Char) : Prop :=
  text ≠ [] ∧ ∀ c ∈ text, belongs c = true

/-- Any number of spaces and tabs. -/
def IsGap (text : List Char) : Prop :=
  ∀ c ∈ text, isGap c = true

/-- How an operand is written. -/
inductive OperandForm : Operand → List Char → Prop where
  | register {name : List Char} (hname : IsRun isNameChar name) :
    OperandForm (.register name) ('$' :: name)
  | number {digits : List Char} (hdigits : IsRun Char.isDigit digits) :
    OperandForm (.number digits) digits
  | negative {digits : List Char} (hdigits : IsRun Char.isDigit digits) :
    OperandForm (.number ('-' :: digits)) ('-' :: digits)

/-- How one or more operands are written. -/
inductive OperandsForm : List Operand → List Char → Prop where
  | single {operand : Operand} {before text after : List Char} (hbefore : IsGap before)
    (htext : OperandForm operand text) (hafter : IsGap after) :
    OperandsForm [operand] (before ++ text ++ after)
  | cons {operand : Operand} {operands : List Operand} {before text after rest : List Char}
    (hbefore : IsGap before) (htext : OperandForm operand text) (hafter : IsGap after)
    (hrest : OperandsForm operands rest) :
    OperandsForm (operand :: operands) (before ++ text ++ after ++ ',' :: rest)

/-- How the list of operands of a line is written. -/
inductive OperandListForm : List Operand → List Char → Prop where
  | absent : OperandListForm [] []
  | empty {inner : List Char} (hinner : IsGap inner) :
    OperandListForm [] ('(' :: inner ++ [')'])
  | operands {operands : List Operand} {before text after : List Char} (hbefore : IsGap before)
    (htext : OperandsForm operands text) (hafter : IsGap after) :
    OperandListForm operands ('(' :: before ++ text ++ after ++ [')'])

/-- How the target of a line is written. -/
inductive TargetForm : Option Target → List Char → Prop where
  | absent : TargetForm none []
  | entry {before after digits : List Char} (hbefore : IsGap before) (hafter : IsGap after)
    (hdigits : IsRun Char.isDigit digits) :
    TargetForm (some (.entry digits)) (before ++ '-' :: '>' :: after ++ digits)
  | offset {before after digits : List Char} (hbefore : IsGap before) (hafter : IsGap after)
    (hdigits : IsRun Char.isDigit digits) :
    TargetForm (some (.offset digits)) (before ++ '-' :: '>' :: after ++ '@' :: digits)

/-- How a line is written. -/
inductive LineForm : Line → List Char → Prop where
  | intro {line : Line} {before between operands target after : List Char} (hbefore : IsGap before)
    (hmnemonic : IsRun Char.isAlpha line.mnemonic) (hbetween : IsGap between)
    (hoperands : OperandListForm line.operands operands)
    (htarget : TargetForm line.target target) (hafter : IsGap after) :
    LineForm line (before ++ line.mnemonic ++ between ++ operands ++ target ++ after)

end TapeMachine.Assembly
