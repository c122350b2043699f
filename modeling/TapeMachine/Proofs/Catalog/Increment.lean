import Mathlib.Data.List.Basic
import TapeMachine.Proofs.Catalog.Rewind

/-!
# The machine that adds one

The second state of the machine carries: it turns ones into zeros on its way up, until a zero or the
blank above the highest digit becomes a one. `successor` is what this makes of the digits, lowest
first, and it stands for the next number (`digitsValue_successor`).
-/

set_option autoImplicit false

namespace TapeMachine

open TapeMachine.Turing TapeMachine.Turing.Configuration

/-! ### Binary digits -/

namespace Symbol

/-- The symbol of a binary digit. -/
def ofBit : Bool → Symbol
  | true => one
  | false => zero

/-- What a symbol counts as a binary digit. -/
def digitValue : Symbol → Nat
  | zero => 0
  | one => 1
  | blank => 0

/-- The number that binary digits stand for, the lowest first. -/
def digitsValue (digits : List Symbol) : Nat :=
  digits.foldr (fun digit value ↦ digit.digitValue + 2 * value) 0

/-- The digits of the next number, the lowest first. -/
def successor : List Symbol → List Symbol
  | [] => [one]
  | zero :: digits => one :: digits
  | one :: digits => zero :: successor digits
  | blank :: digits => one :: digits

theorem digitsValue_cons (digit : Symbol) (digits : List Symbol) :
    digitsValue (digit :: digits) = digit.digitValue + 2 * digitsValue digits := rfl

theorem digitsValue_successor (digits : List Symbol) :
    digitsValue (successor digits) = digitsValue digits + 1 := by
  induction digits with
  | nil => rfl
  | cons digit digits ih =>
    cases digit with
    | zero =>
      simp only [successor, digitsValue_cons, digitValue]
      omega
    | one =>
      simp only [successor, digitsValue_cons, digitValue, ih]
      omega
    | blank =>
      simp only [successor, digitsValue_cons, digitValue]
      omega

/-- A carry through ones. -/
theorem successor_ones (carries : Nat) (digits : List Symbol) :
    successor (List.replicate carries one ++ digits) =
      List.replicate carries zero ++ successor digits := by
  induction carries with
  | zero => rfl
  | succ carries ih =>
    rw [List.replicate_succ, List.cons_append, successor, ih, List.replicate_succ, List.cons_append]

theorem ne_blank_of_mem_successor {digits : List Symbol}
    (hdigits : ∀ digit ∈ digits, digit ≠ .blank) :
    ∀ digit ∈ successor digits, digit ≠ .blank := by
  induction digits with
  | nil => simp [successor]
  | cons digit digits ih =>
    have hrest := fun other hother ↦ hdigits other (List.mem_cons_of_mem digit hother)
    cases digit with
    | zero => simpa [successor] using hrest
    | one => simpa [successor] using ih hrest
    | blank => exact absurd rfl (hdigits .blank List.mem_cons_self)

/-- The next number has as many digits, or one more if every digit is a one. -/
theorem length_successor {digits : List Symbol} (hdigits : ∀ digit ∈ digits, digit ≠ .blank) :
    (successor digits).length =
      if .zero ∈ digits then digits.length else digits.length + 1 := by
  induction digits with
  | nil => rfl
  | cons digit digits ih =>
    have hrest := ih fun other hother ↦ hdigits other (List.mem_cons_of_mem digit hother)
    cases digit with
    | zero => simp [successor]
    | one =>
      rw [successor, List.length_cons, hrest]
      by_cases hzero : zero ∈ digits
      · rw [if_pos hzero, if_pos (List.mem_cons_of_mem _ hzero), List.length_cons]
      · rw [if_neg hzero, if_neg (by simp [hzero]), List.length_cons]
    | blank => exact absurd rfl (hdigits .blank List.mem_cons_self)

/-- Each digit is the bit of the number at its place. -/
theorem getD_eq_ofBit {digits : List Symbol} (hdigits : ∀ digit ∈ digits, digit ≠ .blank)
    (index : Nat) :
    digits.getD index .blank =
      if index < digits.length then ofBit ((digitsValue digits).testBit index) else .blank := by
  induction digits generalizing index with
  | nil => rfl
  | cons digit digits ih =>
    have hrest := ih fun other hother ↦ hdigits other (List.mem_cons_of_mem digit hother)
    have hdigit := hdigits digit List.mem_cons_self
    rw [digitsValue_cons, List.length_cons]
    cases index with
    | zero =>
      rw [if_pos (Nat.succ_pos _), List.getD_cons_zero, Nat.testBit_zero]
      cases digit with
      | zero => simp [digitValue, ofBit]
      | one => simp [digitValue, ofBit, Nat.add_mod]
      | blank => exact absurd rfl hdigit
    | succ index =>
      have hhalf : (digit.digitValue + 2 * digitsValue digits) / 2 = digitsValue digits := by
        have hlt : digit.digitValue < 2 := by cases digit <;> decide
        omega
      rw [List.getD_cons_succ, hrest, Nat.testBit_add_one, hhalf]
      simp only [Nat.add_lt_add_iff_right]

/-- A binary text stands for the number of its digits. -/
theorem ofDigitChars_toChar (symbols : List Symbol) :
    Nat.ofDigitChars 2 (symbols.map toChar) 0 = digitsValue symbols.reverse := by
  have hdigit : ∀ (value : Nat) (symbol : Symbol),
      2 * value + (symbol.toChar.toNat - '0'.toNat) = symbol.digitValue + 2 * value := by
    intro value symbol
    cases symbol <;> simp [toChar, digitValue, Nat.add_comm]
  unfold Nat.ofDigitChars digitsValue
  rw [List.foldl_map, List.foldr_reverse]
  simp only [hdigit]

end Symbol

/-! ### The machine -/

namespace Turing

theorem rewinds_increment_start : Rewinds Catalog.increment.rows 1 2 :=
  .of_rules rfl rfl rfl

theorem rewinds_increment_end : Rewinds Catalog.increment.rows 3 0 :=
  .of_rules rfl rfl rfl

/-- Steps of the machine on a tape of a number of cells. -/
abbrev Increments (cells count : Nat) : Configuration → Configuration → Prop :=
  Leads Catalog.increment.rows cells count

variable {cells : Nat} {low : Int} {digits : List Symbol}

/-- Ones become zeros on the way up. -/
theorem increments_carry (carries : Nat) (hlow : 0 ≤ low) (hhigh : low + carries ≤ cells) :
    Increments cells carries
      (facingUp 2 low [] (List.replicate carries .one ++ digits))
      (facingUp 2 (low + carries) (List.replicate carries .zero) digits) := by
  rw [← List.append_nil (List.replicate carries Symbol.zero)]
  exact leads_sweepUp_replicate carries rfl rfl hlow hhigh

/-- The carry ends at a zero that is not the highest digit. The head goes back down. -/
theorem increments_zero (carries : Nat) (hdigits : ∀ digit ∈ digits, digit ≠ .blank)
    (hne : digits ≠ []) (hlow : 0 < low) (hhigh : low + carries + 1 < cells) :
    Increments cells (2 * carries + 4)
      (facingUp 2 low [] (List.replicate carries .one ++ .zero :: digits))
      (facingUp 0 low [] (List.replicate carries .zero ++ .one :: digits)) := by
  obtain ⟨digit, higher, rfl⟩ := List.exists_cons_of_ne_nil hne
  have hdigit := rewinds_increment_end.digit digit (hdigits digit List.mem_cons_self)
  have hback : ∀ symbol ∈ Symbol.one :: List.replicate carries .zero, symbol ≠ .blank :=
    List.forall_mem_cons.mpr ⟨by decide, List.forall_mem_replicate.mpr (Or.inr (by decide))⟩
  have htrace :=
    calc
      Increments cells carries
          (facingUp 2 low [] (List.replicate carries .one ++ .zero :: digit :: higher))
          (facingUp 2 (low + carries) (List.replicate carries .zero) (.zero :: digit :: higher)) :=
        increments_carry carries (by omega) (by omega)
      Increments cells 1 _
          (facingUp 3 (low + carries + 1) (.one :: List.replicate carries .zero)
            (digit :: higher)) :=
        leads_up rfl (by omega) (by omega)
      Increments cells 1 _
          (facingDown 3 (low + carries + 1) (.one :: List.replicate carries .zero)
            (digit :: higher)) :=
        leads_turnDown hdigit (by omega) (by omega)
      Increments cells _ _
          (facingUp 0 low [] ((.one :: List.replicate carries .zero).reverse ++ digit :: higher)) :=
        rewinds_increment_end.leads hback
          (by rw [List.length_cons, List.length_replicate]; omega) hlow (by omega)
  rw [List.reverse_cons, List.reverse_replicate, List.append_assoc, List.singleton_append,
    List.length_cons, List.length_replicate] at htrace
  rwa [show 2 * carries + 4 = carries + 1 + 1 + (carries + 1 + 1) by omega]

/-- The carry ends at the highest digit, a zero. The head is then above all digits, and halts one
cell further up. -/
theorem increments_highest (carries : Nat) (hlow : 0 ≤ low) (hhigh : low + carries + 2 ≤ cells) :
    Increments cells (carries + 2)
      (facingUp 2 low [] (List.replicate carries .one ++ [.zero]))
      (facingUp 0 (low + carries + 2) (.blank :: .one :: List.replicate carries .zero) []) := by
  have hborder : low + carries + 2 = low + carries + 1 + 1 := by omega
  rw [hborder]
  calc
    Increments cells carries (facingUp 2 low [] (List.replicate carries .one ++ [.zero]))
        (facingUp 2 (low + carries) (List.replicate carries .zero) [.zero]) :=
      increments_carry carries hlow (by omega)
    Increments cells 1 _
        (facingUp 3 (low + carries + 1) (.one :: List.replicate carries .zero) []) :=
      leads_up rfl (by omega) (by omega)
    Increments cells 1 _
        (facingUp 0 (low + carries + 1 + 1) (.blank :: .one :: List.replicate carries .zero)
          []) := by
      rw [facingUp_nil]
      exact leads_up rfl (by omega) (by omega)

theorem ribbon_highest (carries : Nat) :
    ribbon (low + carries + 2) (.blank :: .one :: List.replicate carries .zero) [] =
      ribbon low [] (List.replicate carries .zero ++ [.one]) :=
  calc
    _ = ribbon (low + carries + 1 + 1) (.blank :: .one :: List.replicate carries .zero) [] := by
      rw [Int.add_assoc (low + carries)]
      rfl
    _ = ribbon (low + carries) (List.replicate carries .zero ++ []) [.one, .blank] := by
      rw [ribbon_cons, ribbon_cons, List.append_nil]
    _ = ribbon low [] ((List.replicate carries .zero ++ [.one]) ++ List.replicate 1 .blank) := by
      rw [ribbon_replicate, List.append_assoc]
      rfl
    _ = ribbon low [] (List.replicate carries .zero ++ [.one]) := ribbon_blanks_above 1

/-- The carry goes through all digits. A one is put above them, and the head goes back down. -/
theorem increments_ones (carries : Nat) (hlow : 0 < low) (hhigh : low + carries < cells) :
    Increments cells (2 * carries + 2) (facingUp 2 low [] (List.replicate carries .one))
      (facingUp 0 low [] (List.replicate carries .zero ++ [.one])) := by
  have hback : ∀ symbol ∈ List.replicate carries Symbol.zero, symbol ≠ .blank :=
    List.forall_mem_replicate.mpr (Or.inr (by decide))
  have htrace :=
    calc
      Increments cells carries (facingUp 2 low [] (List.replicate carries .one ++ []))
          (facingUp 2 (low + carries) (List.replicate carries .zero) []) :=
        increments_carry carries (by omega) (by omega)
      Increments cells 1 _
          (facingDown 3 (low + carries) (List.replicate carries .zero) [.one]) := by
        rw [facingUp_nil]
        exact leads_turnDown rfl (by omega) (by omega)
      Increments cells _ _ (facingUp 0 low [] ((List.replicate carries .zero).reverse ++ [.one])) :=
        rewinds_increment_end.leads hback (by rw [List.length_replicate]) hlow (by omega)
  rw [List.reverse_replicate, List.length_replicate, List.append_nil] at htrace
  rwa [show 2 * carries + 2 = carries + 1 + (carries + 1) by omega]

/-- Digits begin with ones up to a zero, or are all ones. -/
theorem exists_carries (hdigits : ∀ digit ∈ digits, digit ≠ .blank) :
    ∃ carries, digits = List.replicate carries .one ∨
      ∃ higher, digits = List.replicate carries .one ++ .zero :: higher := by
  induction digits with
  | nil => exact ⟨0, Or.inl rfl⟩
  | cons digit digits ih =>
    cases digit with
    | zero => exact ⟨0, Or.inr ⟨digits, rfl⟩⟩
    | one =>
      obtain ⟨carries, hall | ⟨higher, hsome⟩⟩ :=
        ih fun other hother ↦ hdigits other (List.mem_cons_of_mem _ hother)
      · exact ⟨carries + 1, Or.inl (by rw [hall, List.replicate_succ])⟩
      · exact ⟨carries + 1, Or.inr ⟨higher, by rw [hsome, List.replicate_succ, List.cons_append]⟩⟩
    | blank => exact absurd rfl (hdigits .blank List.mem_cons_self)

/-- From the lowest digit the machine halts, with the digits of the next number on its tape. -/
theorem exists_increments (hdigits : ∀ digit ∈ digits, digit ≠ .blank) (hlow : 0 < low)
    (hhigh : low + digits.length + 1 < cells) :
    ∃ count ≤ 2 * digits.length + 2, ∃ last,
      Increments cells count (facingUp 2 low [] digits) last ∧
      last.state = 0 ∧ last.OnTape cells ∧ last.tape = ribbon low [] (Symbol.successor digits) := by
  obtain ⟨carries, rfl | ⟨higher, rfl⟩⟩ := exists_carries hdigits
  · rw [List.length_replicate] at hhigh ⊢
    refine ⟨_, Nat.le_refl _, _, increments_ones carries hlow (by omega), rfl,
      onTape_facingUp (by omega) (by omega), ?_⟩
    rw [← List.append_nil (List.replicate carries Symbol.one), Symbol.successor_ones]
    rfl
  · have hdigitsHigher : ∀ digit ∈ higher, digit ≠ .blank := fun digit hdigit ↦
      hdigits digit (List.mem_append_right _ (List.mem_cons_of_mem _ hdigit))
    rw [List.length_append, List.length_replicate, List.length_cons] at hhigh ⊢
    rw [Symbol.successor_ones, Symbol.successor]
    by_cases hnil : higher = []
    · rw [hnil] at hhigh ⊢
      rw [List.length_nil] at hhigh
      refine ⟨_, ?_, _, increments_highest carries (by omega) (by omega), rfl,
        onTape_facingUp (by omega) (by omega), ribbon_highest carries⟩
      omega
    · have hpos : 0 < higher.length := List.length_pos_iff.mpr hnil
      refine ⟨_, ?_, _, increments_zero carries hdigitsHigher hnil hlow (by omega), rfl,
        onTape_facingUp (by omega) (by omega), rfl⟩
      omega

end Turing

/-! ### Runs -/

namespace Machine

/-- The tape of digits, said by the number they stand for. -/
theorem ribbon_eq_ofBit {digits : List Symbol} (hdigits : ∀ digit ∈ digits, digit ≠ .blank)
    (low cell : Nat) :
    ribbon low [] digits cell =
      if low ≤ cell ∧ cell < low + digits.length then
        Symbol.ofBit ((Symbol.digitsValue digits).testBit (cell - low))
      else .blank := by
  unfold ribbon
  by_cases hle : low ≤ cell
  · have hdistance : ((cell : Int) - low).toNat = cell - low := by omega
    have hwithin : (low ≤ cell ∧ cell < low + digits.length) ↔ cell - low < digits.length := by
      omega
    rw [if_pos (by omega), hdistance, Symbol.getD_eq_ofBit hdigits]
    simp only [hwithin]
  · rw [if_neg (by omega), if_neg (by omega)]
    rfl

variable {cells : Nat} {machine : Machine}

/-- The machine adds one to every binary number, from any head position on its digits or right below
them, in a number of steps that is linear in their number. Afterwards the tape holds the digits of
the next number, as many as before or one more if there was no zero among them, from the same lowest
cell on. -/
theorem run_increment (hmachine : ofTable Catalog.increment.rows cells = .ok machine)
    {text : String} (hbinary : Text.IsBinary text) {low position head : Nat}
    (hlength : low + text.length = position + 1) (hlow : 1 ≤ low)
    (hhigh : position + 2 < machine.cellCount) (hheadLow : low ≤ head + 1)
    (hheadHigh : head ≤ position) :
    ∃ placed, machine.after (Action.place text position head) = .ok placed ∧
      ∀ budget ≥ 31 * (3 * text.length + 3), placed.HaltsLeaving budget fun last ↦
        last.tape = .ok ((List.range machine.cellCount).reverse.map fun cell : Nat ↦
          let width := if '0' ∈ text.toList then text.length else text.length + 1
          if low ≤ cell ∧ cell < low + width then
            Symbol.ofBit ((Nat.ofDigitChars 2 text.toList 0 + 1).testBit (cell - low))
          else .blank) := by
  obtain ⟨placed, digits, hplace, htext, hcount, hdigits, rewinding, hrewinding, hstart⟩ :=
    rewinds_increment_start.exists_place rfl machine hbinary hlength hlow (by omega) hheadLow
      hheadHigh
  obtain ⟨carrying, hcarrying, last, hleads, hhalt, hon, htape⟩ :=
    exists_increments hdigits (by omega : (0 : Int) < low)
      (by omega : (low : Int) + digits.length + 1 < machine.cellCount)
  have hzero : Symbol.zero ∈ digits ↔ '0' ∈ text.toList := by
    rw [htext, ← List.mem_reverse]
    exact (List.mem_map_of_injective Symbol.toChar_injective).symm
  refine ⟨placed, hplace, fun budget hbudget ↦ ?_⟩
  have hsteps : 31 * (rewinding + carrying) ≤ budget := by omega
  refine haltsLeaving_of_leads hmachine hplace (hstart.trans hleads) hhalt hon hsteps
    fun after hcells hshows ↦ ?_
  rw [hshows.tape_eq, hcells]
  refine congrArg Except.ok (List.map_congr_left fun cell hcell ↦ ?_)
  rw [htape, ribbon_eq_ofBit (Symbol.ne_blank_of_mem_successor hdigits),
    Symbol.length_successor hdigits, Symbol.digitsValue_successor, ← List.reverse_reverse digits,
    ← Symbol.ofDigitChars_toChar, ← htext, List.reverse_reverse, hcount]
  simp only [hzero]

/-- Three ones carry into a new digit. -/
theorem run_increment_all_ones :
    ∃ machine placed, ofTable Catalog.increment.rows 16 = .ok machine ∧
      machine.after (Action.place "111" 10 7) = .ok placed ∧
      placed.HaltsLeaving 372 fun last ↦ last.tape = .ok
        (List.replicate 4 .blank ++ [.one, .zero, .zero, .zero] ++ List.replicate 8 .blank) := by
  obtain ⟨machine, hmachine, hcells⟩ := Catalog.increment.exists_ofTable
  have hlength : 8 + "111".length = 10 + 1 := rfl
  obtain ⟨placed, hplace, hruns⟩ := run_increment hmachine (by decide : Text.IsBinary "111") hlength
    (by omega) (by omega) (by omega : 8 ≤ 7 + 1) (by omega)
  have hhalts := hruns 372 (by decide)
  rw [hcells] at hhalts
  exact ⟨machine, placed, hmachine, hplace, hhalts⟩

end Machine

end TapeMachine
