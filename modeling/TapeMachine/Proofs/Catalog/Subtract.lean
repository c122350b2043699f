import TapeMachine.Proofs.Catalog.Rewind

/-!
# The machine that subtracts

Two numbers of ones are on the tape, the subtrahend below the minuend with a blank between them. A
round of the machine marks the lowest one of each with a zero. `stage` is the configuration between
two rounds. When no one of the subtrahend is left, the marks are erased, and what is left of the
minuend is the difference.
-/

set_option autoImplicit false

namespace TapeMachine

open TapeMachine.Turing TapeMachine.Turing.Configuration

namespace Turing

/-- Steps of the machine on a tape of a number of cells. -/
abbrev Subtracts (cells count : Nat) : Configuration → Configuration → Prop :=
  Leads Catalog.subtract.rows cells count

abbrev zeros (count : Nat) : List Symbol := List.replicate count .zero

abbrev ones (count : Nat) : List Symbol := List.replicate count .one

abbrev blanks (count : Nat) : List Symbol := List.replicate count .blank

theorem rewinds_subtract_round : Rewinds Catalog.subtract.rows 2 3 :=
  .of_rules rfl rfl rfl

theorem rewinds_subtract_end : Rewinds Catalog.subtract.rows 5 6 :=
  .of_rules rfl rfl rfl

variable {cells : Nat} {low border : Int}

/-! ### A round -/

/-- From a digit of the minuend the machine goes down to the lowest digit of the subtrahend. -/
theorem exists_subtracts_return {upper lower above : List Symbol}
    (hupper : ∀ symbol ∈ upper, symbol ≠ .blank) (hlower : ∀ symbol ∈ lower, symbol ≠ .blank)
    (hlow : 0 < low) (hborder : low + lower.length + 1 + upper.length = border)
    (hhigh : border ≤ cells) :
    ∃ count, Subtracts cells count (facingDown 1 border (upper ++ .blank :: lower) above)
      (facingUp 3 low [] (lower.reverse ++ .blank :: (upper.reverse ++ above))) := by
  have hrules : ∀ symbol ∈ upper,
      rule? Catalog.subtract.rows 1 symbol = some ⟨id symbol, .left, 1⟩ := by
    intro symbol hsymbol
    cases symbol with
    | zero => rfl
    | one => rfl
    | blank => exact absurd rfl (hupper .blank hsymbol)
  have htrace :=
    calc
      Subtracts cells upper.length (facingDown 1 border (upper ++ .blank :: lower) above)
          (facingDown 1 (low + lower.length + 1) (.blank :: lower)
            ((upper.map id).reverse ++ above)) :=
        leads_sweepDown hrules hborder (by omega) hhigh
      Subtracts cells 1 _
          (facingDown 2 (low + lower.length + 1 - 1) lower
            (.blank :: ((upper.map id).reverse ++ above))) :=
        leads_down rfl (by omega) (by omega)
      Subtracts cells _ _
          (facingUp 3 low [] (lower.reverse ++ .blank :: ((upper.map id).reverse ++ above))) :=
        rewinds_subtract_round.leads hlower (by omega) hlow (by omega)
  rw [List.map_id] at htrace
  exact ⟨_, htrace⟩

/-- The configuration between two rounds: as many ones of both numbers are marked as there were
rounds, and the head is on the lowest digit. -/
def stage (low : Int) (marked subtrahend minuend : Nat) : Configuration :=
  facingUp 3 low []
    (zeros marked ++ (ones subtrahend ++ .blank :: (zeros marked ++ ones minuend)))

theorem ne_blank_of_mem_zeros (count : Nat) : ∀ symbol ∈ zeros count, symbol ≠ .blank :=
  List.forall_mem_replicate.mpr (Or.inr (by decide))

theorem ne_blank_of_mem_ones (count : Nat) : ∀ symbol ∈ ones count, symbol ≠ .blank :=
  List.forall_mem_replicate.mpr (Or.inr (by decide))

/-- A round marks a one of each number. -/
theorem exists_subtracts_round (marked subtrahend minuend : Nat) (hlow : 0 < low)
    (hhigh : low + 2 * marked + subtrahend + minuend + 2 < cells) :
    ∃ count, Subtracts cells count (stage low marked (subtrahend + 1) (minuend + 1))
      (stage low (marked + 1) subtrahend minuend) := by
  have hlower : ∀ symbol ∈ ones subtrahend ++ .zero :: zeros marked, symbol ≠ .blank :=
    List.forall_mem_append.mpr
      ⟨ne_blank_of_mem_ones subtrahend, ne_blank_of_mem_zeros (marked + 1)⟩
  have hmark :=
    calc
      Subtracts cells marked (stage low marked (subtrahend + 1) (minuend + 1))
          (facingUp 3 (low + marked) (zeros marked ++ [])
            (.one :: (ones subtrahend ++ .blank :: (zeros marked ++ ones (minuend + 1))))) :=
        leads_sweepUp_replicate marked rfl rfl (by omega) (by omega)
      Subtracts cells 1 _
          (facingUp 4 (low + marked + 1) (.zero :: (zeros marked ++ []))
            (ones subtrahend ++ .blank :: (zeros marked ++ ones (minuend + 1)))) :=
        leads_up rfl (by omega) (by omega)
      Subtracts cells subtrahend _
          (facingUp 4 (low + marked + 1 + subtrahend)
            (ones subtrahend ++ .zero :: (zeros marked ++ []))
            (.blank :: (zeros marked ++ ones (minuend + 1)))) :=
        leads_sweepUp_replicate subtrahend rfl rfl (by omega) (by omega)
      Subtracts cells 1 _
          (facingUp 8 (low + marked + 1 + subtrahend + 1)
            (.blank :: (ones subtrahend ++ .zero :: (zeros marked ++ [])))
            (zeros marked ++ ones (minuend + 1))) :=
        leads_up rfl (by omega) (by omega)
      Subtracts cells marked _
          (facingUp 8 (low + marked + 1 + subtrahend + 1 + marked)
            (zeros marked ++ .blank :: (ones subtrahend ++ .zero :: (zeros marked ++ [])))
            (.one :: ones minuend)) :=
        leads_sweepUp_replicate marked rfl rfl (by omega) (by omega)
      Subtracts cells 1 _
          (facingDown 1 (low + marked + 1 + subtrahend + 1 + marked)
            (zeros marked ++ .blank :: (ones subtrahend ++ .zero :: (zeros marked ++ [])))
            (.zero :: ones minuend)) :=
        leads_turnDown rfl (by omega) (by omega)
  have hborder : low + (ones subtrahend ++ .zero :: zeros marked).length + 1 +
      (zeros marked).length = low + marked + 1 + subtrahend + 1 + marked := by
    simp only [List.length_append, List.length_cons, List.length_replicate]
    omega
  obtain ⟨count, hreturn⟩ := @exists_subtracts_return cells low _ _ _ (.zero :: ones minuend)
    (ne_blank_of_mem_zeros marked) hlower hlow hborder (by omega)
  have hstage : facingUp 3 low [] ((ones subtrahend ++ .zero :: zeros marked).reverse ++
      .blank :: ((zeros marked).reverse ++ .zero :: ones minuend)) =
      stage low (marked + 1) subtrahend minuend := by
    unfold stage zeros ones
    rw [List.replicate_succ']
    simp only [List.reverse_append, List.reverse_cons, List.reverse_replicate, List.append_assoc,
      List.cons_append, List.nil_append]
  rw [List.append_nil] at hmark
  rw [hstage] at hreturn
  exact ⟨_, hmark.trans hreturn⟩

/-! ### The end -/

/-- The marks are erased from the lowest digit up. -/
theorem exists_subtracts_erase (marked minuend : Nat) (hlow : 0 < low)
    (hhigh : low + 2 * marked + minuend + 1 < cells) :
    ∃ count, Subtracts cells count
      (facingUp 6 low [] (zeros marked ++ .blank :: (zeros marked ++ ones minuend)))
      (facingDown 0 (low + 2 * marked + minuend + 1) (ones minuend) []) := by
  have hblanks : blanks marked ++ .blank :: (blanks marked ++ []) =
      blanks (marked + (marked + 1)) := by
    rw [List.append_nil, ← List.replicate_succ, List.replicate_append_replicate]
  have htrace :=
    calc
      Subtracts cells marked
          (facingUp 6 low [] (zeros marked ++ .blank :: (zeros marked ++ ones minuend)))
          (facingUp 6 (low + marked) (blanks marked ++ [])
            (.blank :: (zeros marked ++ ones minuend))) :=
        leads_sweepUp_replicate marked rfl rfl (by omega) (by omega)
      Subtracts cells 1 _
          (facingUp 7 (low + marked + 1) (.blank :: (blanks marked ++ []))
            (zeros marked ++ ones minuend)) :=
        leads_up rfl (by omega) (by omega)
      Subtracts cells marked _
          (facingUp 7 (low + marked + 1 + marked) (blanks marked ++ .blank :: (blanks marked ++ []))
            (ones minuend ++ [])) := by
        rw [List.append_nil (ones minuend)]
        exact leads_sweepUp_replicate marked rfl rfl (by omega) (by omega)
      Subtracts cells minuend _
          (facingUp 7 (low + 2 * marked + minuend + 1)
            (ones minuend ++ (blanks marked ++ .blank :: (blanks marked ++ []))) []) :=
        leads_sweepUp_replicate minuend rfl (by omega) (by omega) (by omega)
      Subtracts cells 1 _
          (facingDown 0 (low + 2 * marked + minuend + 1)
            (ones minuend ++ (blanks marked ++ .blank :: (blanks marked ++ [])))
            ([] ++ blanks 1)) := by
        rw [facingUp_nil]
        exact leads_turnDown rfl (by omega) (by omega)
  rw [hblanks, facingDown_blanks_below, facingDown_blanks_above] at htrace
  exact ⟨_, htrace⟩

/-- With no one of the subtrahend left, the machine goes back down and erases the marks. -/
theorem exists_subtracts_end (marked minuend : Nat) (hlow : 0 < low)
    (hhigh : low + 2 * marked + minuend + 1 < cells) :
    ∃ count, Subtracts cells count (stage low marked 0 minuend)
      (facingDown 0 (low + 2 * marked + minuend + 1) (ones minuend) []) := by
  have hdigits : ∀ symbol ∈ zeros marked ++ [], symbol ≠ .blank := by
    rw [List.append_nil]
    exact ne_blank_of_mem_zeros marked
  have hborder : low + (zeros marked ++ []).length = low + marked := by
    rw [List.append_nil, List.length_replicate]
  have hreturn :=
    calc
      Subtracts cells marked (stage low marked 0 minuend)
          (facingUp 3 (low + marked) (zeros marked ++ [])
            (.blank :: (zeros marked ++ ones minuend))) :=
        leads_sweepUp_replicate marked rfl rfl (by omega) (by omega)
      Subtracts cells 1 _
          (facingDown 5 (low + marked) (zeros marked ++ [])
            (.blank :: (zeros marked ++ ones minuend))) :=
        leads_turnDown rfl (by omega) (by omega)
      Subtracts cells _ _
          (facingUp 6 low []
            ((zeros marked ++ []).reverse ++ .blank :: (zeros marked ++ ones minuend))) :=
        rewinds_subtract_end.leads hdigits hborder hlow (by omega)
  rw [List.append_nil, List.reverse_replicate] at hreturn
  obtain ⟨count, herase⟩ := exists_subtracts_erase marked minuend hlow hhigh
  exact ⟨_, hreturn.trans herase⟩

/-- Round after round the subtrahend is used up, and the difference is left of the minuend. -/
theorem exists_subtracts (marked subtrahend difference : Nat) (hlow : 0 < low)
    (hhigh : low + 2 * marked + 2 * subtrahend + difference + 1 < cells) :
    ∃ count, Subtracts cells count (stage low marked subtrahend (difference + subtrahend))
      (facingDown 0 (low + 2 * marked + 2 * subtrahend + difference + 1) (ones difference) []) := by
  induction subtrahend generalizing marked with
  | zero =>
    have hborder : low + 2 * marked + 2 * (0 : Nat) + difference + 1 =
        low + 2 * marked + difference + 1 := by omega
    rw [hborder] at hhigh ⊢
    exact exists_subtracts_end marked difference hlow hhigh
  | succ subtrahend ih =>
    have hroom : low + 2 * marked + subtrahend + (difference + subtrahend : Nat) + 2 < cells := by
      omega
    obtain ⟨count, hround⟩ :=
      exists_subtracts_round marked subtrahend (difference + subtrahend) hlow hroom
    obtain ⟨more, hrest⟩ := ih (marked + 1) (by omega)
    have hborder : low + 2 * (marked + 1 : Nat) + 2 * subtrahend + difference + 1 =
        low + 2 * marked + 2 * (subtrahend + 1 : Nat) + difference + 1 := by omega
    rw [hborder] at hrest
    exact ⟨_, hround.trans hrest⟩

/-! ### The beginning -/

/-- From any digit of the minuend the machine gets to its first round. -/
theorem exists_subtracts_initial {text : String} {minuend subtrahend low position head : Nat}
    (htext : text.toList = (ones minuend ++ .blank :: ones subtrahend).map Symbol.toChar)
    (hlength : low + subtrahend + minuend = position) (hlow : 1 ≤ low) (hhigh : position < cells)
    (hheadLow : position + 1 ≤ head + minuend) (hheadHigh : head ≤ position) :
    ∃ count, Subtracts cells count (initial Catalog.subtract.rows text position head)
      (stage low 0 subtrahend minuend) := by
  obtain ⟨above, rfl⟩ := Nat.exists_eq_add_of_le hheadHigh
  obtain ⟨upper, rfl⟩ : ∃ upper, minuend = above + upper := ⟨minuend - above, by omega⟩
  have hroom : (ones (above + upper) ++ .blank :: ones subtrahend).length ≤ head + above + 1 := by
    rw [List.length_append, List.length_cons, List.length_replicate, List.length_replicate]
    omega
  have hsplit : ones (above + upper) ++ .blank :: ones subtrahend =
      ones above ++ (ones upper ++ .blank :: ones subtrahend) := by
    rw [← List.append_assoc, List.replicate_append_replicate]
  have hborder : (low : Int) + (ones subtrahend).length + 1 + (ones upper).length = head + 1 := by
    rw [List.length_replicate, List.length_replicate]
    omega
  obtain ⟨count, hreturn⟩ := @exists_subtracts_return cells low _ _ _ (ones above)
    (ne_blank_of_mem_ones upper) (ne_blank_of_mem_ones subtrahend) (by omega) hborder (by omega)
  have hstage : facingUp 3 low [] ((ones subtrahend).reverse ++
      .blank :: ((ones upper).reverse ++ ones above)) = stage low 0 subtrahend (above + upper) := by
    rw [List.reverse_replicate, List.reverse_replicate, List.replicate_append_replicate,
      Nat.add_comm upper above]
    rfl
  have hhead : head + (ones above).length = head + above := by rw [List.length_replicate]
  refine ⟨count, ?_⟩
  rw [initial_eq_facingDown htext hroom hsplit hhead, List.reverse_replicate, ← hstage]
  exact hreturn

end Turing

/-! ### Runs -/

namespace Machine

/-- The tape of a number of ones. -/
theorem ribbon_ones (count position cell : Nat) :
    ribbon (position + 1) (ones count) [] cell =
      if cell ≤ position ∧ position < cell + count then .one else .blank := by
  unfold ribbon
  by_cases hle : cell ≤ position
  · have hdistance : ((position : Int) + 1 - 1 - cell).toNat = position - cell := by omega
    have hwithin : (cell ≤ position ∧ position < cell + count) ↔ position - cell < count := by
      omega
    rw [if_neg (by omega), hdistance, List.getD_eq_getElem?_getD, List.getElem?_replicate]
    simp only [hwithin]
    split
    · rfl
    · rfl
  · rw [if_pos (by omega), if_neg fun h ↦ hle h.1]
    rfl

variable {cells : Nat} {machine : Machine}

/-- The machine subtracts every number of ones from every number of ones that is no less, from any
head position on the minuend. It halts with its head where the text began, and from there down with
as many ones on an else blank tape as the difference has. -/
theorem run_subtract (hmachine : ofTable Catalog.subtract.rows cells = .ok machine)
    {minuend subtrahend position head : Nat} (hle : subtrahend ≤ minuend)
    (hlow : minuend + subtrahend + 1 ≤ position) (hhigh : position + 1 < machine.cellCount)
    (hheadLow : position + 1 ≤ head + minuend) (hheadHigh : head ≤ position) :
    ∃ placed, machine.after (Action.place (String.ofList
        (List.replicate minuend '1' ++ ' ' :: List.replicate subtrahend '1')) position head) =
        .ok placed ∧
      ∃ bound, ∀ budget ≥ bound, placed.HaltsLeaving budget fun last ↦
        last.head = .ok position ∧
          last.tape = .ok ((List.range machine.cellCount).reverse.map fun cell : Nat ↦
            if cell ≤ position ∧ position < cell + (minuend - subtrahend) then .one
            else .blank) := by
  have htext : (String.ofList
      (List.replicate minuend '1' ++ ' ' :: List.replicate subtrahend '1')).toList =
      (ones minuend ++ .blank :: ones subtrahend).map Symbol.toChar := by
    rw [String.toList_ofList, List.map_append, List.map_cons, List.map_replicate,
      List.map_replicate]
    rfl
  have hroom : (ones minuend ++ .blank :: ones subtrahend).length ≤ position + 1 := by
    rw [List.length_append, List.length_cons, List.length_replicate, List.length_replicate]
    omega
  obtain ⟨placed, hplace⟩ := machine.exists_place htext (by omega : position < machine.cellCount)
    hroom (by omega : head < machine.cellCount)
  obtain ⟨difference, rfl⟩ := Nat.exists_eq_add_of_le' hle
  obtain ⟨low, hlength⟩ := Nat.exists_eq_add_of_le' (by omega :
    subtrahend + (difference + subtrahend) ≤ position)
  rw [← Nat.add_assoc] at hlength
  obtain ⟨starting, hstart⟩ := exists_subtracts_initial htext hlength.symm (by omega)
    (by omega : position < machine.cellCount) hheadLow hheadHigh
  obtain ⟨rounds, hrounds⟩ := @exists_subtracts machine.cellCount low 0 subtrahend difference
    (by omega) (by omega)
  have hborder : (low : Int) + 2 * (0 : Nat) + 2 * subtrahend + difference + 1 = position + 1 := by
    omega
  have hon : (facingDown 0 (position + 1) (ones difference) []).OnTape machine.cellCount :=
    onTape_facingDown (by omega) (by omega)
  rw [hborder] at hrounds
  rw [Nat.add_sub_cancel]
  refine ⟨placed, hplace, 31 * (starting + rounds), fun budget hbudget ↦ ?_⟩
  refine haltsLeaving_of_leads hmachine hplace (hstart.trans hrounds) rfl hon hbudget
    fun after hafter hshows ↦ ⟨?_, ?_⟩
  · have hhead : ((position : Int) + 1 - 1).toNat = position := by omega
    have hfinal := hshows.head_of_onTape (hafter ▸ hon)
    unfold facingDown at hfinal
    rwa [hhead] at hfinal
  · rw [hshows.tape_eq, hafter]
    refine congrArg Except.ok (List.map_congr_left fun cell hcell ↦ ?_)
    exact ribbon_ones difference position cell

/-- Three less two, from the lowest digit of the minuend. -/
theorem run_subtract_three_two :
    ∃ machine placed, ofTable Catalog.subtract.rows 16 = .ok machine ∧
      machine.after (Action.place "111 11" 10 8) = .ok placed ∧
      ∃ bound, ∀ budget ≥ bound, placed.HaltsLeaving budget fun last ↦
        last.head = .ok 10 ∧
          last.tape = .ok (List.replicate 5 .blank ++ [.one] ++ List.replicate 10 .blank) := by
  obtain ⟨machine, hmachine, hcells⟩ := Catalog.subtract.exists_ofTable
  obtain ⟨placed, hplace, bound, hruns⟩ := run_subtract hmachine (by decide : 2 ≤ 3)
    (by decide : 3 + 2 + 1 ≤ 10) (by omega) (by decide : 10 + 1 ≤ 8 + 3) (by decide)
  rw [hcells] at hruns
  exact ⟨machine, placed, hmachine, hplace, bound, hruns⟩

end Machine

end TapeMachine
