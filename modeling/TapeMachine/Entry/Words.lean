import TapeMachine.Entry
import TapeMachine.Fault

/-!
# Entries as words

An entry is stored as five words, of which the first is its opcode. An instruction follows it with
its three operands and its next offset. A state follows it with a word of two-bit fields, at bit
`2k` the symbol to write and at bit `8 + 2k` the move for the symbol of code `k`, and with the
three next offsets.
-/

set_option autoImplicit false

namespace TapeMachine

/-- The five words of an entry. -/
structure EntryWords where
  opcode : UInt32
  first : UInt32
  second : UInt32
  third : UInt32
  fourth : UInt32
  deriving DecidableEq

namespace EntryWords

def toList (words : EntryWords) : List UInt32 :=
  [words.opcode, words.first, words.second, words.third, words.fourth]

end EntryWords

namespace StateRules

/-- The fields of a rule, moved to their place among those of the other symbols. -/
def ruleFields (read : Symbol) (rule : Rule Offset) : Nat :=
  (rule.write.code.toNat + 256 * rule.move.code.toNat) <<< (2 * read.code.toNat)

/-- The word that holds the symbols to write and the moves of a state. -/
def fields (rules : StateRules) : UInt32 :=
  UInt32.ofNat (ruleFields .zero rules.zero + ruleFields .one rules.one
    + ruleFields .blank rules.blank)

/-- The two-bit field at a bit of a word. -/
def fieldAt (word : UInt32) (bit : Nat) : UInt8 :=
  UInt8.ofNat (word.toNat >>> bit % 4)

/-- The rule for one symbol, from the fields word of an entry and the symbol's next offset. The
offset of the entry is that of a fault. -/
def decodeRule (offset : Offset) (fields : UInt32) (read : Symbol) (next : Offset) :
    Except Fault (Rule Offset) :=
  let shift := 2 * read.code.toNat
  match Symbol.ofCode? (fieldAt fields shift) with
  | none => .error (.notASymbol (offset.toNat + 32 + shift) (fieldAt fields shift).toNat)
  | some write =>
    match HeadMove.ofCode? (fieldAt fields (8 + shift)) with
    | none => .error (.notAMove (fieldAt fields (8 + shift)))
    | some move => .ok { write := write, move := move, next := next }

end StateRules

namespace Entry

/-- The words an entry is stored as. -/
def encode : Entry → EntryWords
  | instruction content =>
    { opcode := content.opcode.code
      first := content.first.toUInt32
      second := content.second.toUInt32
      third := content.third.toUInt32
      fourth := content.next }
  | state rules =>
    { opcode := Opcode.transition.code
      first := StateRules.fields rules
      second := rules.zero.next
      third := rules.one.next
      fourth := rules.blank.next }

/-- The entry that words at an offset stand for. A state is refused at the first of its fields that
stands for nothing, symbol before move for each symbol read. -/
def decode (words : EntryWords) (offset : Offset) : Except Fault Entry :=
  match Opcode.ofCode? words.opcode with
  | none => .error (.unknownOpcode offset words.opcode)
  | some .transition => do
    let zero ← StateRules.decodeRule offset words.first .zero words.second
    let one ← StateRules.decodeRule offset words.first .one words.third
    let blank ← StateRules.decodeRule offset words.first .blank words.fourth
    return state { zero := zero, one := one, blank := blank }
  | some opcode =>
    .ok (instruction
      { opcode := opcode
        first := words.first.toInt32
        second := words.second.toInt32
        third := words.third.toInt32
        next := words.fourth })

end Entry

end TapeMachine
