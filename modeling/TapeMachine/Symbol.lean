/-!
# Symbols, head moves and rules

A tape cell holds one of three symbols, and a head move is one of three displacements; both are
stored as two-bit codes, of which the fourth is no value of either type. A `PerSymbol` is a choice
for each symbol that can be under the head, and a `Rule` is what one state does on one of them.
`Symbol.ofCode?_code` and `HeadMove.ofCode?_code` say that a code names the value it was taken
from.
-/

set_option autoImplicit false

namespace TapeMachine

/-- The value of one tape cell. -/
inductive Symbol where
  | zero
  | one
  | blank
  deriving DecidableEq

namespace Symbol

/-- Every symbol, in the order of the codes. -/
def all : List Symbol := [zero, one, blank]

/-- The two-bit code a symbol is stored as. -/
def code : Symbol → UInt8
  | zero => 0
  | one => 1
  | blank => 2

/-- The symbol a code stands for. -/
def ofCode? (code : UInt8) : Option Symbol :=
  if code = 0 then some zero
  else if code = 1 then some one
  else if code = 2 then some blank
  else none

/-- The symbol whose code is a given integer. -/
def ofValue? (value : Int) : Option Symbol :=
  if value = 0 then some zero
  else if value = 1 then some one
  else if value = 2 then some blank
  else none

/-- Tape text writes a blank as a space. -/
def toChar : Symbol → Char
  | zero => '0'
  | one => '1'
  | blank => ' '

/-- The symbol a character of tape text stands for. -/
def ofChar? (character : Char) : Option Symbol :=
  if character = '0' then some zero
  else if character = '1' then some one
  else if character = ' ' then some blank
  else none

def name : Symbol → String
  | zero => "Zero"
  | one => "One"
  | blank => "Blank"

@[simp]
theorem ofCode?_code (symbol : Symbol) : ofCode? symbol.code = some symbol := by
  cases symbol <;> rfl

@[simp]
theorem ofChar?_toChar (symbol : Symbol) : ofChar? symbol.toChar = some symbol := by
  cases symbol <;> rfl

theorem ofCode?_eq_some_iff {code : UInt8} {symbol : Symbol} :
    ofCode? code = some symbol ↔ code = symbol.code := by
  constructor
  · intro hcode
    unfold ofCode? at hcode
    split at hcode
    · cases hcode; assumption
    split at hcode
    · cases hcode; assumption
    split at hcode
    · cases hcode; assumption
    · cases hcode
  · rintro rfl
    exact ofCode?_code symbol

theorem code_toNat_lt (symbol : Symbol) : symbol.code.toNat < 3 := by
  cases symbol <;> decide

end Symbol

/-- Where the head goes after a symbol has been written. -/
inductive HeadMove where
  | left
  | stay
  | right
  deriving DecidableEq

namespace HeadMove

/-- Every move, in the order of the codes. -/
def all : List HeadMove := [left, stay, right]

/-- The two-bit code a move is stored as. -/
def code : HeadMove → UInt8
  | left => 0
  | stay => 1
  | right => 2

/-- The move a code stands for. -/
def ofCode? (code : UInt8) : Option HeadMove :=
  if code = 0 then some left
  else if code = 1 then some stay
  else if code = 2 then some right
  else none

/-- The displacement of the head, one less than the code. -/
def delta : HeadMove → Int
  | left => -1
  | stay => 0
  | right => 1

/-- The move with a given displacement. -/
def ofDelta? (delta : Int) : Option HeadMove :=
  if delta = -1 then some left
  else if delta = 0 then some stay
  else if delta = 1 then some right
  else none

/-- The mark that stands for a move in the text of an entry. -/
def arrow : HeadMove → Char
  | left => '<'
  | stay => '.'
  | right => '>'

def name : HeadMove → String
  | left => "Left"
  | stay => "Stay"
  | right => "Right"

@[simp]
theorem ofCode?_code (move : HeadMove) : ofCode? move.code = some move := by
  cases move <;> rfl

theorem ofCode?_eq_some_iff {code : UInt8} {move : HeadMove} :
    ofCode? code = some move ↔ code = move.code := by
  constructor
  · intro hcode
    unfold ofCode? at hcode
    split at hcode
    · cases hcode; assumption
    split at hcode
    · cases hcode; assumption
    split at hcode
    · cases hcode; assumption
    · cases hcode
  · rintro rfl
    exact ofCode?_code move

theorem ofDelta?_eq_some_iff {delta : Int} {move : HeadMove} :
    ofDelta? delta = some move ↔ delta = move.delta := by
  constructor
  · intro hdelta
    unfold ofDelta? at hdelta
    split at hdelta
    · cases hdelta; assumption
    split at hdelta
    · cases hdelta; assumption
    split at hdelta
    · cases hdelta; assumption
    · cases hdelta
  · rintro rfl
    cases move <;> rfl

theorem code_toNat_lt (move : HeadMove) : move.code.toNat < 3 := by
  cases move <;> decide

theorem delta_eq_code_sub_one (move : HeadMove) : move.delta = (move.code.toNat : Int) - 1 := by
  cases move <;> rfl

end HeadMove

/-- One choice for each symbol that can be under the head. -/
@[ext]
structure PerSymbol (α : Type) where
  zero : α
  one : α
  blank : α
  deriving DecidableEq

namespace PerSymbol

variable {α β : Type}

/-- The choice for the symbol under the head. -/
def get (choices : PerSymbol α) : Symbol → α
  | .zero => choices.zero
  | .one => choices.one
  | .blank => choices.blank

/-- The choices that a function on symbols makes. -/
def ofFun (choose : Symbol → α) : PerSymbol α :=
  ⟨choose .zero, choose .one, choose .blank⟩

def map (f : α → β) (choices : PerSymbol α) : PerSymbol β :=
  ⟨f choices.zero, f choices.one, f choices.blank⟩

/-- The three choices, in the order of the symbol codes. -/
def toList (choices : PerSymbol α) : List α :=
  [choices.zero, choices.one, choices.blank]

@[simp]
theorem get_ofFun (choose : Symbol → α) (symbol : Symbol) :
    (ofFun choose).get symbol = choose symbol := by
  cases symbol <;> rfl

@[simp]
theorem get_map (f : α → β) (choices : PerSymbol α) (symbol : Symbol) :
    (choices.map f).get symbol = f (choices.get symbol) := by
  cases symbol <;> rfl

theorem get_mem_toList (choices : PerSymbol α) (symbol : Symbol) :
    choices.get symbol ∈ choices.toList := by
  cases symbol <;> simp [get, toList]

end PerSymbol

/-- What one state does on one symbol: the symbol to write, the move to make and the state to go
on with, named by a value of `σ`. -/
structure Rule (σ : Type) where
  write : Symbol
  move : HeadMove
  next : σ
  deriving DecidableEq

namespace Rule

variable {σ τ : Type}

/-- The same rule with its next state named differently. -/
def map (f : σ → τ) (rule : Rule σ) : Rule τ :=
  { write := rule.write, move := rule.move, next := f rule.next }

end Rule

end TapeMachine
