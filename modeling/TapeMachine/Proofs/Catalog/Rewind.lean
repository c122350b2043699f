import TapeMachine.Catalog
import TapeMachine.Proofs.Turing.Halting

/-!
# Machines of the catalog

Most machines of the catalog have states that look for the blank below a block of digits: such a
state goes down over digits and turns around at the blank, into the next state (`Rewinds`). A
machine that works on a binary text begins with one, and so gets to the lowest digit from any head
position on the text or right below it (`Rewinds.exists_place`).
-/

set_option autoImplicit false

namespace TapeMachine

open TapeMachine.Turing TapeMachine.Turing.Configuration

/-- Whether a text consists of binary digits. -/
def Text.IsBinary (text : String) : Prop :=
  ∀ character ∈ text.toList, character = '0' ∨ character = '1'

instance (text : String) : Decidable (Text.IsBinary text) :=
  List.decidableBAll _ text.toList

/-- A binary text is that of symbols other than the blank. -/
theorem Text.IsBinary.exists_symbols {text : String} (hbinary : Text.IsBinary text) :
    ∃ symbols : List Symbol, text.toList = symbols.map Symbol.toChar ∧
      ∀ symbol ∈ symbols, symbol ≠ .blank := by
  obtain ⟨symbols, hsymbols⟩ := (exists_toChar_iff text.toList).mpr fun character hcharacter ↦
    (hbinary character hcharacter).imp_right Or.inl
  refine ⟨symbols, hsymbols, ?_⟩
  rintro symbol hsymbol rfl
  have hblank := hbinary ' ' (hsymbols ▸ List.mem_map_of_mem hsymbol)
  exact absurd hblank (by decide)

/-- Every table of the catalog has a machine with sixteen cells. -/
theorem Catalog.exists_ofTable (item : Catalog) :
    ∃ machine, Machine.ofTable item.rows 16 = .ok machine ∧ machine.cellCount = 16 := by
  have hok : (Machine.ofTable item.rows 16).toBool = true := by cases item <;> rfl
  obtain ⟨machine, hmachine⟩ := Machine.exists_eq_ok_of_toBool hok
  exact ⟨machine, hmachine, Machine.cellCount_of_ofTable hmachine⟩

namespace Turing

/-- Whether a state of a table goes down over digits, and at a blank turns around into another. -/
structure Rewinds (rows : List Row) (state next : Nat) : Prop where
  digit : ∀ symbol ≠ .blank, rule? rows state symbol = some ⟨symbol, .left, state⟩
  blank : rule? rows state .blank = some ⟨.blank, .right, next⟩

namespace Rewinds

variable {rows : List Row} {cells state next : Nat}

theorem of_rules (hzero : rule? rows state .zero = some ⟨.zero, .left, state⟩)
    (hone : rule? rows state .one = some ⟨.one, .left, state⟩)
    (hblank : rule? rows state .blank = some ⟨.blank, .right, next⟩) :
    Rewinds rows state next := by
  refine ⟨fun symbol hsymbol ↦ ?_, hblank⟩
  cases symbol with
  | zero => exact hzero
  | one => exact hone
  | blank => exact absurd rfl hsymbol

theorem leads (hrewinds : Rewinds rows state next) {border low : Int} {below above : List Symbol}
    (hdigits : ∀ symbol ∈ below, symbol ≠ .blank) (hborder : low + below.length = border)
    (hlow : 0 < low) (hhigh : border ≤ cells) :
    Leads rows cells (below.length + 1) (facingDown state border below above)
      (facingUp next low [] (below.reverse ++ above)) := by
  have hsweep : Leads rows cells below.length (facingDown state border (below ++ []) above)
      (facingDown state low [] ((below.map id).reverse ++ above)) :=
    leads_sweepDown (fun symbol hsymbol ↦ hrewinds.digit symbol (hdigits symbol hsymbol)) hborder
      (by omega) hhigh
  have hturn : Leads rows cells 1 (facingDown state low [] (below.reverse ++ above))
      (facingUp next low [.blank] (below.reverse ++ above)) := by
    rw [facingDown_nil]
    exact leads_turnUp hrewinds.blank hlow (by omega)
  rw [List.append_nil, List.map_id] at hsweep
  rw [← facingUp_blank_below]
  exact hsweep.trans hturn

/-- A table that begins with such a state gets to the lowest digit of a placed text. -/
theorem exists_leads_initial (hrewinds : Rewinds rows 1 next) (hstart : startState rows = 1)
    {text : String} {symbols : List Symbol} (htext : text.toList = symbols.map Symbol.toChar)
    (hdigits : ∀ symbol ∈ symbols, symbol ≠ .blank) {low position head : Nat}
    (hlength : low + symbols.length = position + 1) (hlow : 1 ≤ low) (hhigh : position < cells)
    (hheadLow : low ≤ head + 1) (hheadHigh : head ≤ position) :
    ∃ count ≤ symbols.length + 1, Leads rows cells count (initial rows text position head)
      (facingUp next low [] symbols.reverse) := by
  have hsplit := (List.take_append_drop (position - head) symbols).symm
  have habove : (symbols.take (position - head)).length = position - head := by
    rw [List.length_take]
    omega
  have hbelow : (symbols.drop (position - head)).length = head + 1 - low := by
    rw [List.length_drop]
    omega
  generalize symbols.take (position - head) = above at hsplit habove
  generalize symbols.drop (position - head) = below at hsplit hbelow
  refine ⟨below.length + 1, by omega, ?_⟩
  rw [initial_eq_facingDown htext (by omega) hsplit (by omega), hstart, hsplit,
    List.reverse_append]
  refine hrewinds.leads (fun symbol hsymbol ↦ hdigits symbol ?_) ?_ ?_ ?_
  · rw [hsplit]
    exact List.mem_append_right above hsymbol
  · omega
  · omega
  · omega

/-- A binary text can be placed, and a table that begins with such a state gets to its lowest
digit. -/
theorem exists_place (hrewinds : Rewinds rows 1 next) (hstart : startState rows = 1)
    (machine : Machine) {text : String} (hbinary : Text.IsBinary text) {low position head : Nat}
    (hlength : low + text.length = position + 1) (hlow : 1 ≤ low)
    (hhigh : position < machine.cellCount) (hheadLow : low ≤ head + 1)
    (hheadHigh : head ≤ position) :
    ∃ placed digits, machine.after (Action.place text position head) = .ok placed ∧
      text.toList = digits.reverse.map Symbol.toChar ∧ digits.length = text.length ∧
      (∀ digit ∈ digits, digit ≠ .blank) ∧
      ∃ count ≤ digits.length + 1, Leads rows machine.cellCount count
        (initial rows text position head) (facingUp next low [] digits) := by
  obtain ⟨symbols, htext, hdigits⟩ := hbinary.exists_symbols
  have hcount : symbols.length = text.length := by
    rw [← String.length_toList, htext, List.length_map]
  rw [← hcount] at hlength ⊢
  obtain ⟨placed, hplace⟩ := machine.exists_place htext hhigh (by omega)
    (by omega : head < machine.cellCount)
  refine ⟨placed, symbols.reverse, hplace, by rw [List.reverse_reverse, htext],
    List.length_reverse, fun digit hdigit ↦ hdigits digit (List.mem_reverse.mp hdigit), ?_⟩
  rw [List.length_reverse]
  exact hrewinds.exists_leads_initial hstart htext hdigits hlength hlow hhigh hheadLow hheadHigh

end Rewinds

end Turing

end TapeMachine
