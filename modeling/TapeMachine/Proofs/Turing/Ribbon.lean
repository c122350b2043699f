import TapeMachine.Turing

/-!
# Ribbons

A ribbon is a tape whose symbols are listed from a border: one list from the border up, one from the
cell before it down, and blanks beyond both. The head is next to the border, on the first symbol
above it (`facingUp`) or on the first below it (`facingDown`). A step takes the border past one
symbol, or turns the head around at the border. A state that keeps its direction over a list of
symbols takes the border past all of them (`leads_sweepUp`, `leads_sweepDown`).
-/

set_option autoImplicit false

namespace TapeMachine.Turing

/-! ### Tapes -/

/-- The tape with symbols from a border up, symbols from the cell before it down, and blanks
elsewhere. -/
def ribbon (border : Int) (below above : List Symbol) : Int → Symbol := fun position ↦
  if border ≤ position then above.getD (position - border).toNat .blank
  else below.getD (border - 1 - position).toNat .blank

variable {border : Int} {below above symbols : List Symbol}

theorem ribbon_border (symbol : Symbol) :
    ribbon border below (symbol :: above) border = symbol := by
  unfold ribbon
  rw [if_pos (Int.le_refl border), Int.sub_self]
  rfl

theorem ribbon_singleton (symbol : Symbol) (position : Int) :
    ribbon border [] [symbol] position = if position = border then symbol else .blank := by
  by_cases hposition : position = border
  · rw [if_pos hposition, hposition, ribbon_border]
  · rw [if_neg hposition]
    unfold ribbon
    by_cases hle : border ≤ position
    · obtain ⟨distance, hdistance⟩ : ∃ distance, (position - border).toNat = distance + 1 :=
        ⟨(position - border - 1).toNat, by omega⟩
      rw [if_pos hle, hdistance]
      rfl
    · rw [if_neg hle]
      rfl

/-- The border can be taken past a symbol. -/
theorem ribbon_cons (symbol : Symbol) :
    ribbon (border + 1) (symbol :: below) above = ribbon border below (symbol :: above) := by
  funext position
  unfold ribbon
  rcases Int.lt_trichotomy position border with hlt | rfl | hgt
  · have hsucc : (border + 1 - 1 - position).toNat = (border - 1 - position).toNat + 1 := by omega
    rw [if_neg (by omega), if_neg (by omega), hsucc, List.getD_cons_succ]
  · rw [if_neg (by omega), if_pos (Int.le_refl position), Int.sub_self, Int.add_sub_cancel,
      Int.sub_self]
    rfl
  · have hsucc : (position - border).toNat = (position - (border + 1)).toNat + 1 := by omega
    rw [if_pos (by omega), if_pos (by omega), hsucc, List.getD_cons_succ]

theorem ribbon_append (symbols : List Symbol) :
    ribbon (border + symbols.length) (symbols.reverse ++ below) above =
      ribbon border below (symbols ++ above) := by
  induction symbols generalizing border below with
  | nil => rw [List.length_nil, Int.natCast_zero, Int.add_zero]; rfl
  | cons symbol symbols ih =>
    rw [List.cons_append, ← ribbon_cons, ← ih, List.reverse_cons, List.append_assoc,
      List.length_cons]
    congr 1
    omega

/-- A border in a block of equal symbols. -/
theorem ribbon_replicate (count : Nat) (symbol : Symbol) :
    ribbon (border + count) (List.replicate count symbol ++ below) above =
      ribbon border below (List.replicate count symbol ++ above) := by
  have happend := @ribbon_append border below above (List.replicate count symbol)
  rwa [List.reverse_replicate, List.length_replicate] at happend

private theorem getD_append_blanks (symbols : List Symbol) (count index : Nat) :
    (symbols ++ List.replicate count Symbol.blank).getD index .blank =
      symbols.getD index .blank := by
  simp only [List.getD_eq_getElem?_getD]
  rcases Nat.lt_or_ge index symbols.length with hlt | hge
  · rw [List.getElem?_append_left hlt]
  · rw [List.getElem?_append_right hge, List.getElem?_eq_none hge, List.getElem?_replicate]
    split
    · rfl
    · rfl

theorem ribbon_blanks_above (count : Nat) :
    ribbon border below (above ++ List.replicate count .blank) = ribbon border below above := by
  funext position
  unfold ribbon
  rw [getD_append_blanks]

theorem ribbon_blanks_below (count : Nat) :
    ribbon border (below ++ List.replicate count .blank) above = ribbon border below above := by
  funext position
  unfold ribbon
  rw [getD_append_blanks]

/-- Writing the symbol at the border. -/
theorem ribbon_write (symbol written : Symbol) :
    (fun position ↦ if position = border then written
      else ribbon border below (symbol :: above) position) =
      ribbon border below (written :: above) := by
  funext position
  by_cases hposition : position = border
  · rw [if_pos hposition, hposition, ribbon_border]
  · rw [if_neg hposition]
    unfold ribbon
    by_cases hle : border ≤ position
    · obtain ⟨distance, hdistance⟩ : ∃ distance, (position - border).toNat = distance + 1 :=
        ⟨(position - border - 1).toNat, by omega⟩
      rw [if_pos hle, if_pos hle, hdistance, List.getD_cons_succ, List.getD_cons_succ]
    · rw [if_neg hle, if_neg hle]

/-! ### Configurations -/

namespace Configuration

/-- The configuration with the head on the first symbol above a border. -/
def facingUp (state : Nat) (border : Int) (below above : List Symbol) : Configuration :=
  { state := state, head := border, tape := ribbon border below above }

/-- The configuration with the head on the first symbol below a border. -/
def facingDown (state : Nat) (border : Int) (below above : List Symbol) : Configuration :=
  { state := state, head := border - 1, tape := ribbon border below above }

variable {state : Nat}

theorem onTape_facingUp {cells : Nat} (hlow : 0 ≤ border) (hhigh : border < cells) :
    (facingUp state border below above).OnTape cells := ⟨hlow, hhigh⟩

theorem onTape_facingDown {cells : Nat} (hlow : 0 < border) (hhigh : border ≤ cells) :
    (facingDown state border below above).OnTape cells :=
  ⟨Int.sub_nonneg_of_le hlow, Int.sub_one_lt_of_le hhigh⟩

theorem facingDown_cons (symbol : Symbol) :
    facingDown state border (symbol :: below) above =
      facingUp state (border - 1) below (symbol :: above) := by
  unfold facingDown facingUp
  rw [← ribbon_cons, Int.sub_add_cancel]

/-! Blanks at the far ends of a ribbon can be left out. -/

theorem facingUp_blanks_above (count : Nat) :
    facingUp state border below (above ++ List.replicate count .blank) =
      facingUp state border below above := by
  unfold facingUp
  rw [ribbon_blanks_above]

theorem facingUp_blanks_below (count : Nat) :
    facingUp state border (below ++ List.replicate count .blank) above =
      facingUp state border below above := by
  unfold facingUp
  rw [ribbon_blanks_below]

theorem facingDown_blanks_above (count : Nat) :
    facingDown state border below (above ++ List.replicate count .blank) =
      facingDown state border below above := by
  unfold facingDown
  rw [ribbon_blanks_above]

theorem facingDown_blanks_below (count : Nat) :
    facingDown state border (below ++ List.replicate count .blank) above =
      facingDown state border below above := by
  unfold facingDown
  rw [ribbon_blanks_below]

theorem facingUp_blank_below :
    facingUp state border [.blank] above = facingUp state border [] above := by
  change facingUp state border ([] ++ List.replicate 1 .blank) above = _
  rw [facingUp_blanks_below]

theorem facingUp_nil : facingUp state border below [] = facingUp state border below [.blank] :=
  (facingUp_blanks_above 1).symm

theorem facingDown_nil :
    facingDown state border [] above = facingDown state border [.blank] above :=
  (facingDown_blanks_below 1).symm

end Configuration

/-! ### Steps -/

open TapeMachine.Turing.Configuration

/-- The rule of a table for a state and a symbol. -/
def rule? (rows : List Row) : Nat → Symbol → Option (Rule Nat)
  | 0, _ => none
  | state + 1, symbol => rows[state]?.map fun row ↦ row.get symbol

theorem Configuration.rule?_eq (configuration : Configuration) (rows : List Row) :
    configuration.rule? rows =
      Turing.rule? rows configuration.state (configuration.tape configuration.head) := by
  unfold Configuration.rule? Turing.rule?
  cases configuration.state with
  | zero => rfl
  | succ state => rfl

/-- Whether a number of steps leads from one configuration to another. -/
def Leads (rows : List Row) (cells count : Nat) (start last : Configuration) : Prop :=
  start.steps? rows cells count = some last

variable {rows : List Row} {cells count more : Nat} {start middle last : Configuration}

theorem Leads.trans (hfirst : Leads rows cells count start middle)
    (hsecond : Leads rows cells more middle last) :
    Leads rows cells (count + more) start last := by
  unfold Leads at *
  induction count generalizing start with
  | zero =>
    cases hfirst
    rw [Nat.zero_add, hsecond]
  | succ count ih =>
    rw [steps?] at hfirst
    obtain ⟨next, hnext, hrest⟩ := Option.bind_eq_some_iff.mp hfirst
    rw [Nat.add_right_comm, steps?, hnext, Option.bind_some, ih hrest]

instance : Trans (Leads rows cells count) (Leads rows cells more)
    (Leads rows cells (count + more)) :=
  ⟨Leads.trans⟩

theorem leads_refl (configuration : Configuration) :
    Leads rows cells 0 configuration configuration := rfl

theorem leads_apply {rule : Rule Nat} (hon : start.OnTape cells)
    (hrule : Turing.rule? rows start.state (start.tape start.head) = some rule) :
    Leads rows cells 1 start (start.apply rule) := by
  unfold Leads
  rw [steps?, step?, if_pos hon, rule?_eq, hrule]
  rfl

-- Longer traces are composed of these, and unification should not run the machine.
attribute [irreducible] Leads

variable {state next : Nat} {symbol written : Symbol}

private theorem leads_write {move : HeadMove}
    (hrule : Turing.rule? rows state symbol = some ⟨written, move, next⟩) (hlow : 0 ≤ border)
    (hhigh : border < cells) :
    Leads rows cells 1 (facingUp state border below (symbol :: above))
      { state := next
        head := border + move.delta
        tape := ribbon border below (written :: above) } := by
  have hread : Turing.rule? rows state (ribbon border below (symbol :: above) border) =
      some ⟨written, move, next⟩ := by rw [ribbon_border, hrule]
  have hon : (facingUp state border below (symbol :: above)).OnTape cells := ⟨hlow, hhigh⟩
  have hstep := leads_apply hon hread
  unfold apply at hstep
  unfold facingUp at hstep ⊢
  dsimp only at hstep
  rwa [ribbon_write] at hstep

theorem leads_up (hrule : Turing.rule? rows state symbol = some ⟨written, .right, next⟩)
    (hlow : 0 ≤ border) (hhigh : border < cells) :
    Leads rows cells 1 (facingUp state border below (symbol :: above))
      (facingUp next (border + 1) (written :: below) above) := by
  unfold facingUp
  rw [ribbon_cons]
  exact leads_write hrule hlow hhigh

theorem leads_turnDown (hrule : Turing.rule? rows state symbol = some ⟨written, .left, next⟩)
    (hlow : 0 ≤ border) (hhigh : border < cells) :
    Leads rows cells 1 (facingUp state border below (symbol :: above))
      (facingDown next border below (written :: above)) :=
  leads_write hrule hlow hhigh

theorem leads_stayUp (hrule : Turing.rule? rows state symbol = some ⟨written, .stay, next⟩)
    (hlow : 0 ≤ border) (hhigh : border < cells) :
    Leads rows cells 1 (facingUp state border below (symbol :: above))
      (facingUp next border below (written :: above)) := by
  have hhead : border + HeadMove.stay.delta = border := Int.add_zero border
  have hstep : Leads rows cells 1 (facingUp state border below (symbol :: above))
      ⟨next, border + HeadMove.stay.delta, ribbon border below (written :: above)⟩ :=
    leads_write hrule hlow hhigh
  rwa [hhead] at hstep

theorem leads_down (hrule : Turing.rule? rows state symbol = some ⟨written, .left, next⟩)
    (hlow : 0 < border) (hhigh : border ≤ cells) :
    Leads rows cells 1 (facingDown state border (symbol :: below) above)
      (facingDown next (border - 1) below (written :: above)) := by
  rw [facingDown_cons]
  exact leads_turnDown hrule (by omega) (by omega)

theorem leads_turnUp (hrule : Turing.rule? rows state symbol = some ⟨written, .right, next⟩)
    (hlow : 0 < border) (hhigh : border ≤ cells) :
    Leads rows cells 1 (facingDown state border (symbol :: below) above)
      (facingUp next border (written :: below) above) := by
  rw [facingDown_cons, ← Int.sub_add_cancel border 1, Int.add_sub_cancel]
  exact leads_up hrule (by omega) (by omega)

theorem leads_stayDown (hrule : Turing.rule? rows state symbol = some ⟨written, .stay, next⟩)
    (hlow : 0 < border) (hhigh : border ≤ cells) :
    Leads rows cells 1 (facingDown state border (symbol :: below) above)
      (facingDown next border (written :: below) above) := by
  rw [facingDown_cons, facingDown_cons]
  exact leads_stayUp hrule (by omega) (by omega)

/-! ### Sweeps -/

/-- A state that goes on upward over symbols takes the border past them. -/
theorem leads_sweepUp {rewrite : Symbol → Symbol} {target : Int}
    (hrules : ∀ symbol ∈ symbols,
      Turing.rule? rows state symbol = some ⟨rewrite symbol, .right, state⟩)
    (htarget : border + symbols.length = target) (hlow : 0 ≤ border) (hhigh : target ≤ cells) :
    Leads rows cells symbols.length (facingUp state border below (symbols ++ above))
      (facingUp state target ((symbols.map rewrite).reverse ++ below) above) := by
  subst htarget
  induction symbols generalizing border below with
  | nil =>
    rw [List.length_nil, Int.natCast_zero, Int.add_zero]
    exact leads_refl _
  | cons symbol symbols ih =>
    rw [List.length_cons] at hhigh
    have hfirst : Leads rows cells 1 (facingUp state border below (symbol :: (symbols ++ above)))
        (facingUp state (border + 1) (rewrite symbol :: below) (symbols ++ above)) :=
      leads_up (hrules symbol List.mem_cons_self) hlow (by omega)
    have hrest := @ih (border + 1) (rewrite symbol :: below)
      (fun other hother ↦ hrules other (List.mem_cons_of_mem _ hother)) (by omega) (by omega)
    have hborder : border + (symbols.length + 1 : Nat) = border + 1 + symbols.length := by omega
    rw [List.length_cons, hborder, List.map_cons, List.reverse_cons, List.append_assoc,
      Nat.add_comm]
    exact hfirst.trans hrest

/-- A sweep over a block of equal symbols. -/
theorem leads_sweepUp_replicate {target : Int} (length : Nat)
    (hrule : Turing.rule? rows state symbol = some ⟨written, .right, state⟩)
    (htarget : border + length = target) (hlow : 0 ≤ border) (hhigh : target ≤ cells) :
    Leads rows cells length (facingUp state border below (List.replicate length symbol ++ above))
      (facingUp state target (List.replicate length written ++ below) above) := by
  have hrules : ∀ other ∈ List.replicate length symbol,
      Turing.rule? rows state other = some ⟨written, .right, state⟩ := by
    intro other hother
    rw [List.eq_of_mem_replicate hother, hrule]
  have hlength : border + (List.replicate length symbol).length = target := by
    rw [List.length_replicate, htarget]
  have hsweep : Leads rows cells (List.replicate length symbol).length
      (facingUp state border below (List.replicate length symbol ++ above))
      (facingUp state target
        (((List.replicate length symbol).map fun _ ↦ written).reverse ++ below) above) :=
    leads_sweepUp hrules hlength hlow hhigh
  rwa [List.length_replicate, List.map_replicate, List.reverse_replicate] at hsweep

/-- A state that goes on downward over symbols takes the border past them. -/
theorem leads_sweepDown {rewrite : Symbol → Symbol} {target : Int}
    (hrules : ∀ symbol ∈ symbols,
      Turing.rule? rows state symbol = some ⟨rewrite symbol, .left, state⟩)
    (htarget : target + symbols.length = border) (hlow : 0 ≤ target) (hhigh : border ≤ cells) :
    Leads rows cells symbols.length (facingDown state border (symbols ++ below) above)
      (facingDown state target below ((symbols.map rewrite).reverse ++ above)) := by
  induction symbols generalizing border above with
  | nil =>
    obtain rfl : target = border := by simpa using htarget
    exact leads_refl _
  | cons symbol symbols ih =>
    rw [List.length_cons] at htarget
    have hfirst : Leads rows cells 1
        (facingDown state border (symbol :: (symbols ++ below)) above)
        (facingDown state (border - 1) (symbols ++ below) (rewrite symbol :: above)) :=
      leads_down (hrules symbol List.mem_cons_self) (by omega) hhigh
    have hrest := @ih (border - 1) (rewrite symbol :: above)
      (fun other hother ↦ hrules other (List.mem_cons_of_mem _ hother)) (by omega) (by omega)
    rw [List.length_cons, List.map_cons, List.reverse_cons, List.append_assoc, Nat.add_comm]
    exact hfirst.trans hrest

end TapeMachine.Turing
