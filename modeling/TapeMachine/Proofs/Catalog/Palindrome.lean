import Mathlib.Data.List.Induction
import TapeMachine.Proofs.Catalog.Rewind

/-!
# The machine that decides palindromes

A round of the machine takes the lowest digit of a text away, carries it up past the others and
compares it with the highest. If the two are the same, the highest is taken away as well, and the
next round begins on the lowest of the digits that are left. If they differ, all that is left is
erased. The rounds are an induction that takes a list apart at both ends.
-/

set_option autoImplicit false

namespace TapeMachine

open TapeMachine.Turing TapeMachine.Turing.Configuration

namespace Turing

/-! ### The states -/

/-- Steps of the machine on a tape of a number of cells. -/
abbrev Decides (cells count : Nat) : Configuration → Configuration → Prop :=
  Leads Catalog.palindrome.rows cells count

/-- The state that carries a digit up; the one after it compares the digit. -/
def carrying : Symbol → Nat
  | .one => 5
  | _ => 3

theorem rewinds_palindrome : Rewinds Catalog.palindrome.rows 1 2 :=
  .of_rules rfl rfl rfl

variable {digit other : Symbol}

theorem rule?_take (hdigit : digit ≠ .blank) :
    rule? Catalog.palindrome.rows 2 digit = some ⟨.blank, .right, carrying digit⟩ := by
  cases digit with
  | zero => rfl
  | one => rfl
  | blank => exact absurd rfl hdigit

theorem rule?_carrying (hother : other ≠ .blank) :
    rule? Catalog.palindrome.rows (carrying digit) other =
      some ⟨other, .right, carrying digit⟩ := by
  cases other with
  | zero => cases digit <;> rfl
  | one => cases digit <;> rfl
  | blank => exact absurd rfl hother

theorem rule?_carrying_blank :
    rule? Catalog.palindrome.rows (carrying digit) .blank =
      some ⟨.blank, .left, carrying digit + 1⟩ := by
  cases digit <;> rfl

theorem rule?_comparing_same (hdigit : digit ≠ .blank) :
    rule? Catalog.palindrome.rows (carrying digit + 1) digit = some ⟨.blank, .left, 1⟩ := by
  cases digit with
  | zero => rfl
  | one => rfl
  | blank => exact absurd rfl hdigit

theorem rule?_comparing_different (hdigit : digit ≠ .blank) (hother : other ≠ .blank)
    (hne : other ≠ digit) :
    rule? Catalog.palindrome.rows (carrying digit + 1) other = some ⟨other, .stay, 7⟩ := by
  cases digit with
  | zero =>
    cases other with
    | zero => exact absurd rfl hne
    | one => rfl
    | blank => exact absurd rfl hother
  | one =>
    cases other with
    | zero => rfl
    | one => exact absurd rfl hne
    | blank => exact absurd rfl hother
  | blank => exact absurd rfl hdigit

theorem rule?_comparing_blank :
    rule? Catalog.palindrome.rows (carrying digit + 1) .blank = some ⟨.blank, .stay, 1⟩ := by
  cases digit <;> rfl

theorem rule?_erase (hother : other ≠ .blank) :
    rule? Catalog.palindrome.rows 7 other = some ⟨.blank, .left, 7⟩ := by
  cases other with
  | zero => rfl
  | one => rfl
  | blank => exact absurd rfl hother

/-! ### A round -/

variable {cells : Nat} {low top : Int} {digits : List Symbol}

/-- The lowest digit is taken away and carried up past the others. -/
theorem decides_carry (hdigit : digit ≠ .blank) (hdigits : ∀ other ∈ digits, other ≠ .blank)
    (hlow : 0 ≤ low) (htop : low + 1 + digits.length = top) (hhigh : top < cells) :
    Decides cells (1 + digits.length + 1) (facingUp 2 low [] (digit :: digits))
      (facingDown (carrying digit + 1) top digits.reverse []) := by
  have htrace :=
    calc
      Decides cells 1 (facingUp 2 low [] (digit :: digits))
          (facingUp (carrying digit) (low + 1) [.blank] (digits ++ [])) := by
        rw [List.append_nil]
        exact leads_up (rule?_take hdigit) hlow (by omega)
      Decides cells digits.length _
          (facingUp (carrying digit) top ((digits.map id).reverse ++ List.replicate 1 .blank) []) :=
        leads_sweepUp (fun other hother ↦ rule?_carrying (hdigits other hother)) htop (by omega)
          (by omega)
      Decides cells 1 _
          (facingDown (carrying digit + 1) top ((digits.map id).reverse ++ List.replicate 1 .blank)
            ([] ++ List.replicate 1 .blank)) := by
        rw [facingUp_nil]
        exact leads_turnDown rule?_carrying_blank (by omega) hhigh
  rwa [facingDown_blanks_below, facingDown_blanks_above, List.map_id] at htrace

/-- A digit that has no other to be compared with is taken away, and nothing is left. -/
theorem decides_single (hdigit : digit ≠ .blank) (hlow : 0 < low) (hhigh : low + 1 < cells) :
    Decides cells 4 (facingUp 2 low [] [digit]) (facingUp 2 (low + 1) [] []) := by
  have hnone : ∀ other ∈ ([] : List Symbol), other ≠ .blank := List.forall_mem_nil _
  have hempty : low + 1 + ([] : List Symbol).length = low + 1 := by
    rw [List.length_nil, Int.natCast_zero, Int.add_zero]
  calc
    Decides cells 2 (facingUp 2 low [] [digit])
        (facingDown (carrying digit + 1) (low + 1) [] []) :=
      decides_carry hdigit hnone (by omega) hempty hhigh
    Decides cells 1 _ (facingDown 1 (low + 1) [] []) := by
      rw [facingDown_nil, facingDown_nil]
      exact leads_stayDown rule?_comparing_blank (by omega) (by omega)
    Decides cells 1 _ (facingUp 2 (low + 1) [] []) :=
      rewinds_palindrome.leads hnone hempty (by omega) (by omega)

section Compare

variable (hdigit : digit ≠ .blank) (hother : other ≠ .blank)
  (hdigits : ∀ inner ∈ digits, inner ≠ .blank) (hlow : 0 < low)
  (hhigh : low + digits.length + 2 < cells)

include hdigit hother hdigits hlow hhigh

/-- The lowest digit gets to the highest. -/
theorem decides_meet :
    Decides cells (1 + (digits ++ [other]).length + 1)
      (facingUp 2 low [] (digit :: (digits ++ [other])))
      (facingDown (carrying digit + 1) (low + digits.length + 2) (other :: digits.reverse) []) := by
  have hall : ∀ inner ∈ digits ++ [other], inner ≠ .blank :=
    List.forall_mem_append.mpr ⟨hdigits, List.forall_mem_singleton.mpr hother⟩
  have htop : low + 1 + (digits ++ [other]).length = low + digits.length + 2 := by
    rw [List.length_append, List.length_singleton]
    omega
  have hcarry := decides_carry hdigit hall (by omega) htop hhigh
  rwa [List.reverse_append] at hcarry

/-- If the outer digits are the same, both are taken away. -/
theorem exists_decides_same (hsame : other = digit) :
    ∃ count, Decides cells count (facingUp 2 low [] (digit :: (digits ++ [other])))
      (facingUp 2 (low + 1) [] digits) := by
  subst hsame
  have hreverse : ∀ inner ∈ digits.reverse, inner ≠ .blank :=
    fun inner hinner ↦ hdigits inner (List.mem_reverse.mp hinner)
  have htrace :=
    calc
      Decides cells _ (facingUp 2 low [] (other :: (digits ++ [other])))
          (facingDown (carrying other + 1) (low + digits.length + 2) (other :: digits.reverse)
            []) :=
        decides_meet hdigit hother hdigits hlow hhigh
      Decides cells 1 _
          (facingDown 1 (low + digits.length + 2 - 1) digits.reverse
            ([] ++ List.replicate 1 .blank)) :=
        leads_down (rule?_comparing_same hdigit) (by omega) (by omega)
      Decides cells _ _
          (facingUp 2 (low + 1) [] (digits.reverse.reverse ++ ([] ++ List.replicate 1 .blank))) :=
        rewinds_palindrome.leads hreverse (by rw [List.length_reverse]; omega) (by omega) (by omega)
  rw [List.reverse_reverse, List.nil_append, facingUp_blanks_above] at htrace
  exact ⟨_, htrace⟩

/-- If the outer digits differ, everything is erased, and a zero is put where the lowest was. -/
theorem exists_decides_different (hne : other ≠ digit) :
    ∃ count, Decides cells count (facingUp 2 low [] (digit :: (digits ++ [other])))
      (facingUp 0 low [] [.zero]) := by
  have hrules : ∀ inner ∈ other :: digits.reverse,
      rule? Catalog.palindrome.rows 7 inner = some ⟨.blank, .left, 7⟩ := by
    intro inner hinner
    rcases List.mem_cons.mp hinner with rfl | hmem
    · exact rule?_erase hother
    · exact rule?_erase (hdigits inner (List.mem_reverse.mp hmem))
  have htarget : low + 1 + (other :: digits.reverse).length = low + digits.length + 2 := by
    rw [List.length_cons, List.length_reverse]
    omega
  have htrace :=
    calc
      Decides cells _ (facingUp 2 low [] (digit :: (digits ++ [other])))
          (facingDown (carrying digit + 1) (low + digits.length + 2) (other :: digits.reverse)
            []) :=
        decides_meet hdigit hother hdigits hlow hhigh
      Decides cells 1 _
          (facingDown 7 (low + digits.length + 2) (other :: digits.reverse ++ []) []) := by
        rw [List.append_nil]
        exact leads_stayDown (rule?_comparing_different hdigit hother hne) (by omega) (by omega)
      Decides cells _ _
          (facingDown 7 (low + 1) []
            (((other :: digits.reverse).map fun _ ↦ .blank).reverse ++ [])) :=
        leads_sweepDown hrules htarget (by omega) (by omega)
      Decides cells 1 _
          (facingDown 0 (low + 1) [.zero]
            (((other :: digits.reverse).map fun _ ↦ .blank).reverse ++ [])) := by
        rw [facingDown_nil]
        exact leads_stayDown rfl (by omega) (by omega)
  rw [List.append_nil, List.map_const', List.reverse_replicate, facingDown_cons,
    Int.add_sub_cancel, ← @List.singleton_append _ Symbol.zero, facingUp_blanks_above] at htrace
  exact ⟨_, htrace⟩

end Compare

/-! ### All rounds -/

/-- The symbol that says whether digits read the same in both directions. -/
def verdict (digits : List Symbol) : Symbol :=
  if digits = digits.reverse then .one else .zero

theorem verdict_outer (digit other : Symbol) (digits : List Symbol) :
    verdict (digit :: (digits ++ [other])) = if other = digit then verdict digits else .zero := by
  unfold verdict
  rw [List.reverse_cons, List.reverse_append, List.reverse_singleton, List.singleton_append,
    List.cons_append]
  by_cases hsame : other = digit
  · simp [hsame]
  · rw [if_neg hsame, if_neg]
    intro heq
    exact hsame (List.head_eq_of_cons_eq heq).symm

/-- From the lowest digit the machine halts, with nothing on its tape but the verdict under the
head. -/
theorem exists_decides (hdigits : ∀ digit ∈ digits, digit ≠ .blank) (hlow : 0 < low)
    (hhigh : low + digits.length < cells) :
    ∃ count, ∃ final : Int, 0 ≤ final ∧ final < cells ∧
      Decides cells count (facingUp 2 low [] digits) (facingUp 0 final [] [verdict digits]) := by
  have haccept : ∀ border : Int, 0 ≤ border → border < cells →
      Decides cells 1 (facingUp 2 border [] []) (facingUp 0 border [] [.one]) := by
    intro border hborder hcells
    rw [facingUp_nil]
    exact leads_stayUp rfl hborder hcells
  induction digits using List.bidirectionalRec generalizing low with
  | nil =>
    exact ⟨1, low, by omega, by simpa using hhigh, haccept low (by omega) (by simpa using hhigh)⟩
  | singleton digit =>
    rw [List.length_singleton] at hhigh
    have hdigit := hdigits digit (List.mem_singleton_self digit)
    have htrace := (decides_single hdigit hlow (by omega)).trans
      (haccept (low + 1) (by omega) (by omega))
    have hsame : verdict [digit] = .one := if_pos rfl
    rw [hsame]
    exact ⟨_, low + 1, by omega, by omega, htrace⟩
  | cons_append digit inner other ih =>
    obtain ⟨hdigit, hrest⟩ := List.forall_mem_cons.mp hdigits
    obtain ⟨hinner, hlast⟩ := List.forall_mem_append.mp hrest
    have hother := List.forall_mem_singleton.mp hlast
    rw [List.length_cons, List.length_append, List.length_singleton] at hhigh
    rw [verdict_outer]
    by_cases hsame : other = digit
    · obtain ⟨count, hround⟩ :=
        exists_decides_same hdigit hother hinner hlow (by omega : low + inner.length + 2 < cells)
          hsame
      obtain ⟨rest, final, hfinal, hcells, hrest⟩ :=
        ih hinner (by omega : 0 < low + 1) (by omega)
      rw [if_pos hsame]
      exact ⟨_, final, hfinal, hcells, hround.trans hrest⟩
    · obtain ⟨count, hround⟩ :=
        exists_decides_different hdigit hother hinner hlow
          (by omega : low + inner.length + 2 < cells) hsame
      rw [if_neg hsame]
      exact ⟨count, low, by omega, by omega, hround⟩

end Turing

/-! ### Runs -/

namespace Machine

variable {cells : Nat} {machine : Machine}

/-- The machine decides whether a binary text reads the same in both directions, from any head
position on the text or right below it. It halts with a blank tape, but for a one under the head if
the text does, and a zero if it does not. -/
theorem run_palindrome (hmachine : ofTable Catalog.palindrome.rows cells = .ok machine)
    {text : String} (hbinary : Text.IsBinary text) {low position head : Nat}
    (hlength : low + text.length = position + 1) (hlow : 1 ≤ low)
    (hhigh : position + 1 < machine.cellCount) (hheadLow : low ≤ head + 1)
    (hheadHigh : head ≤ position) :
    ∃ placed, machine.after (Action.place text position head) = .ok placed ∧
      ∃ bound, ∀ budget ≥ bound, placed.HaltsLeaving budget fun last ↦
        ∃ final, last.head = .ok final ∧
          last.tape = .ok ((List.range machine.cellCount).reverse.map fun cell : Nat ↦
            if cell = final then
              if text.toList = text.toList.reverse then .one else .zero
            else .blank) := by
  obtain ⟨placed, digits, hplace, htext, hcount, hdigits, rewinding, -, hstart⟩ :=
    rewinds_palindrome.exists_place rfl machine hbinary hlength hlow (by omega) hheadLow hheadHigh
  have hsame : digits = digits.reverse ↔ text.toList = text.toList.reverse := by
    rw [htext, ← List.map_reverse, List.map_inj_right fun _ _ hchar ↦ Symbol.toChar_injective hchar,
      List.reverse_reverse]
    exact eq_comm
  obtain ⟨deciding, final, hfinal, hcells, hleads⟩ :=
    exists_decides hdigits (by omega : (0 : Int) < low)
      (by omega : (low : Int) + digits.length < machine.cellCount)
  refine ⟨placed, hplace, 31 * (rewinding + deciding), fun budget hbudget ↦ ?_⟩
  refine haltsLeaving_of_leads hmachine hplace (hstart.trans hleads) rfl
    (onTape_facingUp hfinal hcells) hbudget fun after hafter hshows ↦ ?_
  refine ⟨final.toNat, hshows.head_of_onTape (hafter ▸ onTape_facingUp hfinal hcells), ?_⟩
  rw [hshows.tape_eq, hafter]
  refine congrArg Except.ok (List.map_congr_left fun cell hcell ↦ ?_)
  have hunder : ((cell : Int) = final) ↔ cell = final.toNat := by omega
  change ribbon final [] [verdict digits] cell = _
  rw [ribbon_singleton]
  simp only [hunder, verdict, hsame]

/-- A text of odd length that reads the same in both directions, from its middle. -/
theorem run_palindrome_odd_length :
    ∃ machine placed, ofTable Catalog.palindrome.rows 16 = .ok machine ∧
      machine.after (Action.place "10101" 10 8) = .ok placed ∧
      ∃ bound, ∀ budget ≥ bound, placed.HaltsLeaving budget fun last ↦
        ∃ final, last.head = .ok final ∧
          last.tape = .ok ((List.range 16).reverse.map fun cell : Nat ↦
            if cell = final then .one else .blank) := by
  obtain ⟨machine, hmachine, hcells⟩ := Catalog.palindrome.exists_ofTable
  have hlength : 6 + "10101".length = 10 + 1 := rfl
  obtain ⟨placed, hplace, bound, hruns⟩ := run_palindrome hmachine
    (by decide : Text.IsBinary "10101") hlength (by decide) (by omega) (by decide : 6 ≤ 8 + 1)
    (by decide)
  rw [hcells, if_pos (by decide)] at hruns
  exact ⟨machine, placed, hmachine, hplace, bound, hruns⟩

end Machine

end TapeMachine
