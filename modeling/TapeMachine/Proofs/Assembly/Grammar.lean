import TapeMachine.Assembly.Grammar

/-!
# Reading lines of assembly

Every text that has the form of a line is read as that line. The reader takes the longest run of a
class of characters at each place, so what has to be known of a part is that the text after it does
not go on with the same class; the lemmas below carry this from the end of a line to its start.
-/

set_option autoImplicit false

namespace TapeMachine.Assembly

/-! ### Runs and gaps -/

/-- A text that does not go on with a character of a class. -/
def Ends (belongs : Char → Bool) (rest : List Char) : Prop :=
  ∀ c ∈ rest.head?, belongs c = false

@[simp]
theorem ends_nil (belongs : Char → Bool) : Ends belongs [] := by
  simp [Ends]

@[simp]
theorem ends_cons (belongs : Char → Bool) (c : Char) (rest : List Char) :
    Ends belongs (c :: rest) ↔ belongs c = false := by
  simp [Ends]

theorem Ends.mono {narrow wide : Char → Bool} {rest : List Char}
    (hsub : ∀ c, narrow c = true → wide c = true) (hrest : Ends wide rest) : Ends narrow rest := by
  intro c hc
  rw [Bool.eq_false_iff]
  intro hnarrow
  have hwide := hsub c hnarrow
  rw [hrest c hc] at hwide
  cases hwide

instance (belongs : Char → Bool) (text : List Char) : Decidable (IsRun belongs text) :=
  decidable_of_iff (text ≠ [] ∧ text.all belongs = true)
    (and_congr_right fun _ ↦ List.all_eq_true)

/-- What starts with a run of one class does not go on with a class that shares nothing with it. -/
theorem IsRun.ends {inside outside : Char → Bool} {found : List Char} (hfound : IsRun inside found)
    (hapart : ∀ c, inside c = true → outside c = false) (rest : List Char) :
    Ends outside (found ++ rest) := by
  obtain ⟨hne, hall⟩ := hfound
  rcases found with _ | ⟨first, more⟩
  · exact absurd rfl hne
  · simp only [List.cons_append, ends_cons]
    exact hapart first (hall first (by simp))

theorem IsRun.append_ne_cons {belongs : Char → Bool} {found rest tail : List Char} {c : Char}
    (hfound : IsRun belongs found) (hc : belongs c = false) : found ++ rest ≠ c :: tail := by
  obtain ⟨hne, hall⟩ := hfound
  rcases found with _ | ⟨first, more⟩
  · exact absurd rfl hne
  · intro heq
    rw [List.cons_append, List.cons.injEq] at heq
    have hfirst := hall first (by simp)
    rw [heq.1, hc] at hfirst
    cases hfirst

/-- A run at the start of a text is read whole when the text does not go on with its class. -/
theorem run?_append {belongs : Char → Bool} {found rest : List Char} (hfound : IsRun belongs found)
    (hrest : Ends belongs rest) : run? belongs (found ++ rest) = some (found, rest) := by
  obtain ⟨hne, hall⟩ := hfound
  have htake : rest.takeWhile belongs = [] := by
    rcases rest with _ | ⟨c, rest⟩
    · rfl
    · simp [(ends_cons belongs c rest).mp hrest]
  have hdrop : rest.dropWhile belongs = rest := by
    rcases rest with _ | ⟨c, rest⟩
    · rfl
    · simp [(ends_cons belongs c rest).mp hrest]
  rcases found with _ | ⟨first, more⟩
  · exact absurd rfl hne
  · rw [run?, List.takeWhile_append_of_pos hall, List.dropWhile_append_of_pos hall, htake, hdrop]
    simp

/-- No run is found where a text does not go on with the class. -/
theorem run?_eq_none {belongs : Char → Bool} {rest : List Char} (hrest : Ends belongs rest) :
    run? belongs rest = none := by
  rcases rest with _ | ⟨c, rest⟩
  · rfl
  · simp [run?, (ends_cons belongs c rest).mp hrest]

theorem skipGap_append {gap : List Char} (hgap : IsGap gap) (rest : List Char) :
    skipGap (gap ++ rest) = skipGap rest :=
  List.dropWhile_append_of_pos hgap

theorem skipGap_of_ends {rest : List Char} (hrest : Ends isGap rest) : skipGap rest = rest := by
  rcases rest with _ | ⟨c, rest⟩
  · rfl
  · simp [skipGap, (ends_cons isGap c rest).mp hrest]

theorem skipGap_of_isGap {gap : List Char} (hgap : IsGap gap) : skipGap gap = [] := by
  have hnil := skipGap_append hgap []
  rwa [List.append_nil] at hnil

@[simp]
theorem skipGap_skipGap (text : List Char) : skipGap (skipGap text) = skipGap text := by
  induction text with
  | nil => rfl
  | cons c rest ih =>
    by_cases hc : isGap c = true
    · simpa [skipGap, hc] using ih
    · simp [skipGap, hc]

/-- A class that spaces and tabs are not of may be looked for behind a gap. -/
theorem Ends.of_skipGap {belongs : Char → Bool} {text : List Char}
    (hapart : ∀ c, isGap c = true → belongs c = false) (htext : Ends belongs (skipGap text)) :
    Ends belongs text := by
  rcases text with _ | ⟨c, rest⟩
  · exact ends_nil belongs
  · rw [ends_cons]
    by_cases hc : isGap c = true
    · exact hapart c hc
    · rw [skipGap_of_ends (by simpa using hc)] at htext
      exact (ends_cons belongs c rest).mp htext

/-- A gap ends every class that spaces and tabs are not of, if what follows it does. -/
theorem IsGap.ends_append {belongs : Char → Bool} {gap rest : List Char} (hgap : IsGap gap)
    (hapart : ∀ c, isGap c = true → belongs c = false) (hrest : Ends belongs rest) :
    Ends belongs (gap ++ rest) := by
  rcases gap with _ | ⟨c, gap⟩
  · exact hrest
  · simp only [List.cons_append, ends_cons]
    exact hapart c (hgap c (by simp))

/-! ### The classes of characters -/

theorem eq_or_eq_of_isGap {c : Char} (hc : isGap c = true) : c = ' ' ∨ c = '\t' := by
  simpa [isGap] using hc

theorem isNameChar_eq_false_of_isGap (c : Char) (hc : isGap c = true) : isNameChar c = false := by
  rcases eq_or_eq_of_isGap hc with rfl | rfl <;> decide

theorem isNameChar_of_isDigit (c : Char) (hc : c.isDigit = true) : isNameChar c = true := by
  simp [isNameChar, Char.isAlphanum, hc]

theorem isNameChar_of_isAlpha (c : Char) (hc : c.isAlpha = true) : isNameChar c = true := by
  simp [isNameChar, Char.isAlphanum, hc]

theorem isGap_eq_false_of_isNameChar (c : Char) (hc : isNameChar c = true) : isGap c = false := by
  rw [Bool.eq_false_iff]
  intro hgap
  rw [isNameChar_eq_false_of_isGap c hgap] at hc
  cases hc

theorem isGap_eq_false_of_isDigit (c : Char) (hc : c.isDigit = true) : isGap c = false :=
  isGap_eq_false_of_isNameChar c (isNameChar_of_isDigit c hc)

theorem isGap_eq_false_of_isAlpha (c : Char) (hc : c.isAlpha = true) : isGap c = false :=
  isGap_eq_false_of_isNameChar c (isNameChar_of_isAlpha c hc)

/-! ### Operands -/

/-- An operand is read whole when its text does not go on with a character of a name. -/
theorem OperandForm.bareOperand?_append {operand : Operand} {text rest : List Char}
    (htext : OperandForm operand text) (hrest : Ends isNameChar rest) :
    bareOperand? (text ++ rest) = some (operand, rest) := by
  have hdigit := hrest.mono isNameChar_of_isDigit
  cases htext with
  | register hname =>
    rw [List.cons_append, bareOperand?, run?_append hname hrest]
    rfl
  | negative hdigits =>
    rw [List.cons_append, bareOperand?, run?_append hdigits hdigit]
    rfl
  | number hdigits =>
    -- The first digit is neither of the two signs that an operand may start with.
    unfold bareOperand?
    split
    · next hdollar => exact absurd hdollar (hdigits.append_ne_cons (by decide))
    · next hminus => exact absurd hminus (hdigits.append_ne_cons (by decide))
    · rw [run?_append hdigits hdigit]
      rfl

/-- An operand is read with the gaps around it, and with the gap that may follow them. -/
theorem OperandForm.operand?_append {operand : Operand} {before text after rest : List Char}
    (hbefore : IsGap before) (htext : OperandForm operand text) (hafter : IsGap after)
    (hrest : Ends isNameChar rest) :
    operand? (before ++ text ++ after ++ rest) = some (operand, skipGap rest) := by
  have hstart : Ends isGap (text ++ (after ++ rest)) := by
    cases htext with
    | register hname => simp [isGap]
    | negative hdigits => simp [isGap]
    | number hdigits => exact hdigits.ends isGap_eq_false_of_isDigit _
  have hend : Ends isNameChar (after ++ rest) :=
    hafter.ends_append isNameChar_eq_false_of_isGap hrest
  rw [operand?, List.append_assoc, List.append_assoc, skipGap_append hbefore,
    skipGap_of_ends hstart, htext.bareOperand?_append hend]
  simp only [Option.map_some, skipGap_append hafter]

/-- Where no comma stands, no further operands are read. -/
theorem moreOperands_of_ends {rest : List Char} (hrest : Ends (· = ',') rest) :
    moreOperands rest = ([], rest) := by
  unfold moreOperands
  split
  · simp at hrest
  · rfl

/-- Where a comma and an operand stand, the operand comes before those that are read after it. -/
theorem moreOperands_comma {operand : Operand} {operands : List Operand}
    {rest after last : List Char} (hoperand : operand? rest = some (operand, after))
    (hmore : moreOperands after = (operands, last)) :
    moreOperands (',' :: rest) = (operand :: operands, last) := by
  rw [moreOperands]
  split
  · next found left hfound =>
    rw [hoperand] at hfound
    obtain ⟨rfl, rfl⟩ := hfound
    rw [hmore]
  · next hfound =>
    rw [hoperand] at hfound
    cases hfound

/-- Operands with commas between them are read as a first operand and those that follow it. -/
theorem OperandsForm.exists_read {operands : List Operand} {text rest : List Char}
    (htext : OperandsForm operands text) (hrest : Ends isNameChar rest)
    (hcomma : Ends (· = ',') (skipGap rest)) :
    ∃ first more after, operands = first :: more ∧
      operand? (text ++ rest) = some (first, after) ∧
      moreOperands after = (more, skipGap rest) := by
  induction htext with
  | single hbefore htext hafter =>
    exact ⟨_, [], _, rfl, htext.operand?_append hbefore hafter hrest, moreOperands_of_ends hcomma⟩
  | @cons operand operands before text after tail hbefore htext hafter _ ih =>
    obtain ⟨first, more, left, rfl, hfirst, hmore⟩ := ih
    have hend : Ends isNameChar (',' :: (tail ++ rest)) := by
      simp [show isNameChar ',' = false by decide]
    have hstop : skipGap (',' :: (tail ++ rest)) = ',' :: (tail ++ rest) :=
      skipGap_of_ends (by simp [isGap])
    refine ⟨operand, first :: more, ',' :: (tail ++ rest), rfl, ?_, moreOperands_comma hfirst hmore⟩
    have hread := htext.operand?_append hbefore hafter hend
    rw [hstop] at hread
    simpa using hread

@[simp]
theorem operand?_skipGap (text : List Char) : operand? (skipGap text) = operand? text := by
  simp only [operand?, skipGap_skipGap]

theorem operand?_close (rest : List Char) : operand? (')' :: rest) = none := by
  have hdigit : run? Char.isDigit (')' :: rest) = none := run?_eq_none (by simp)
  rw [operand?, skipGap_of_ends (by simp [isGap]), bareOperand?, hdigit]
  · rfl
  · simp
  · simp

theorem operandList?_cons {first : Operand} {more : List Operand}
    {inner left after rest : List Char} (hfirst : operand? inner = some (first, left))
    (hmore : moreOperands left = (more, after)) (hafter : skipGap after = ')' :: rest) :
    operandList? ('(' :: inner) = some (first :: more, rest) := by
  simp only [operandList?, operand?_skipGap, hfirst, hmore, hafter]

theorem operandList?_empty {inner rest : List Char} (hinner : skipGap inner = ')' :: rest) :
    operandList? ('(' :: inner) = some ([], rest) := by
  have hclose : skipGap (')' :: rest) = ')' :: rest := skipGap_of_ends (by simp [isGap])
  simp only [operandList?, hinner, operand?_close, hclose]

/-- A list of operands in parentheses is read whole, and where there is none nothing is read but
the gap. -/
theorem OperandListForm.exists_left {operands : List Operand} {text rest : List Char}
    (htext : OperandListForm operands text) (hrest : Ends (· = '(') (skipGap rest)) :
    ∃ left, skipGap left = skipGap rest ∧
      (operandList? (skipGap (text ++ rest))).getD ([], skipGap (text ++ rest)) =
        (operands, left) := by
  have hopen (inner : List Char) : skipGap ('(' :: inner) = '(' :: inner :=
    skipGap_of_ends (by simp [isGap])
  have hclose : skipGap (')' :: rest) = ')' :: rest := skipGap_of_ends (by simp [isGap])
  cases htext with
  | absent =>
    refine ⟨skipGap rest, skipGap_skipGap rest, ?_⟩
    rw [List.nil_append]
    unfold operandList?
    split
    · next hparen => simp [hparen] at hrest
    · rfl
  | @empty inner hinner =>
    have hskip : skipGap (inner ++ ')' :: rest) = ')' :: rest := by
      rw [skipGap_append hinner, hclose]
    have hread := operandList?_empty hskip
    exact ⟨rest, rfl, by simp [hopen, hread]⟩
  | @operands _ before text after hbefore htext hafter =>
    have hskip : skipGap (after ++ ')' :: rest) = ')' :: rest := by
      rw [skipGap_append hafter, hclose]
    have hend : Ends isNameChar (after ++ ')' :: rest) := by
      refine hafter.ends_append isNameChar_eq_false_of_isGap ?_
      simp [show isNameChar ')' = false by decide]
    obtain ⟨first, more, left, rfl, hfirst, hmore⟩ :=
      htext.exists_read hend (by rw [hskip]; simp)
    have hstart : operand? (before ++ (text ++ (after ++ ')' :: rest))) = some (first, left) := by
      rw [← operand?_skipGap, skipGap_append hbefore, operand?_skipGap, hfirst]
    have hread := operandList?_cons hstart hmore (by rw [skipGap_skipGap, hskip])
    exact ⟨rest, rfl, by simp [hopen, hread]⟩

/-! ### Targets -/

theorem skipGap_arrow {before : List Char} (hbefore : IsGap before) (rest : List Char) :
    skipGap (before ++ '-' :: '>' :: rest) = '-' :: '>' :: rest := by
  rw [skipGap_append hbefore, skipGap_of_ends (by simp [isGap])]

@[simp]
theorem target?_skipGap (text : List Char) : target? (skipGap text) = target? text := by
  simp only [target?, skipGap_skipGap]

/-- A target is read with its arrow when no digit follows it, and none is read in a gap. -/
theorem TargetForm.target?_append {target : Option Target} {text rest : List Char}
    (htext : TargetForm target text) (hrest : IsGap rest) :
    target? (text ++ rest) = target.map fun found ↦ (found, rest) := by
  have hdigit : Ends Char.isDigit rest := by
    have hname := hrest.ends_append isNameChar_eq_false_of_isGap (ends_nil isNameChar)
    rw [List.append_nil] at hname
    exact hname.mono isNameChar_of_isDigit
  cases htext with
  | absent =>
    rw [List.nil_append, target?, skipGap_of_isGap hrest]
    rfl
  | @entry before after digits hbefore hafter hdigits =>
    have hstart : Ends isGap (digits ++ rest) := hdigits.ends isGap_eq_false_of_isDigit rest
    have hskip : skipGap (after ++ (digits ++ rest)) = digits ++ rest := by
      rw [skipGap_append hafter, skipGap_of_ends hstart]
    simp only [target?, List.append_assoc, List.cons_append, skipGap_arrow hbefore, hskip]
    split
    · next hat => exact absurd hat (hdigits.append_ne_cons (by decide))
    · rw [run?_append hdigits hdigit]
      rfl
  | @offset before after digits hbefore hafter hdigits =>
    have hskip : skipGap (after ++ '@' :: (digits ++ rest)) = '@' :: (digits ++ rest) := by
      rw [skipGap_append hafter, skipGap_of_ends (by simp [isGap])]
    simp only [target?, List.append_assoc, List.cons_append, skipGap_arrow hbefore, hskip]
    rw [run?_append hdigits hdigit]
    rfl

/-! ### Whole lines -/

theorem OperandListForm.ends_skipGap {belongs : Char → Bool} {operands : List Operand}
    {text rest : List Char} (htext : OperandListForm operands text)
    (hparen : belongs '(' = false) (hrest : Ends belongs (skipGap rest)) :
    Ends belongs (skipGap (text ++ rest)) := by
  cases htext with
  | absent => exact hrest
  | empty _ => simpa [skipGap, isGap] using hparen
  | operands _ _ _ => simpa [skipGap, isGap] using hparen

theorem TargetForm.ends_skipGap {belongs : Char → Bool} {target : Option Target}
    {text rest : List Char} (htext : TargetForm target text) (hminus : belongs '-' = false)
    (hrest : IsGap rest) : Ends belongs (skipGap (text ++ rest)) := by
  cases htext with
  | absent =>
    rw [List.nil_append, skipGap_of_isGap hrest]
    exact ends_nil belongs
  | entry hbefore _ _ =>
    simp only [List.append_assoc, List.cons_append, skipGap_arrow hbefore]
    simpa using hminus
  | offset hbefore _ _ =>
    simp only [List.append_assoc, List.cons_append, skipGap_arrow hbefore]
    simpa using hminus

/-- Every text that has the form of a line is read as that line. -/
theorem LineForm.parse?_eq {line : Line} {text : List Char} (htext : LineForm line text) :
    Line.parse? text = some line := by
  obtain ⟨mnemonic, operands, target⟩ := line
  rcases htext with @⟨before, between, operandsText, targetText, after, hbefore, hmnemonic,
    hbetween, hoperands, htarget, hafter⟩
  have hstart : skipGap (mnemonic ++ (between ++ (operandsText ++ (targetText ++ after)))) =
      mnemonic ++ (between ++ (operandsText ++ (targetText ++ after))) :=
    skipGap_of_ends (hmnemonic.ends isGap_eq_false_of_isAlpha _)
  have hend : Ends Char.isAlpha (between ++ (operandsText ++ (targetText ++ after))) := by
    refine Ends.of_skipGap ?_ ?_
    · intro c hc
      rcases eq_or_eq_of_isGap hc with rfl | rfl <;> decide
    · rw [skipGap_append hbetween]
      exact hoperands.ends_skipGap (by decide) (htarget.ends_skipGap (by decide) hafter)
  -- Without operands the gap before the target is gone already, which no target minds.
  obtain ⟨left, hleft, hlist⟩ :=
    hoperands.exists_left (htarget.ends_skipGap (by decide) hafter)
  have htargetLeft : target? left = target.map fun found ↦ (found, after) := by
    rw [← target?_skipGap, hleft, target?_skipGap, htarget.target?_append hafter]
  rw [Line.parse?]
  simp only [List.append_assoc, skipGap_append hbefore, hstart, run?_append hmnemonic hend,
    skipGap_append hbetween, hlist, htargetLeft]
  cases htarget with
  | absent => simp [hleft, skipGap_of_isGap hafter]
  | entry _ _ _ => simp [skipGap_of_isGap hafter]
  | offset _ _ _ => simp [skipGap_of_isGap hafter]

/-! ### The characters of a line -/

/-- Whether a character may stand in a line: in a name, in a gap, or as a mark. -/
def isLineChar (c : Char) : Bool :=
  isNameChar c || isGap c || ['$', '-', '>', '@', '(', ')', ','].contains c

theorem isLineChar_of_isNameChar {c : Char} (hc : isNameChar c = true) : isLineChar c = true := by
  simp [isLineChar, hc]

theorem isLineChar_of_isDigit {c : Char} (hc : c.isDigit = true) : isLineChar c = true :=
  isLineChar_of_isNameChar (isNameChar_of_isDigit c hc)

theorem isLineChar_of_isGap {c : Char} (hc : isGap c = true) : isLineChar c = true := by
  simp [isLineChar, hc]

theorem OperandForm.forall_isLineChar {operand : Operand} {text : List Char}
    (htext : OperandForm operand text) : ∀ c ∈ text, isLineChar c = true := by
  intro c hc
  cases htext with
  | register hname =>
    rcases List.mem_cons.mp hc with rfl | hc
    · decide
    · exact isLineChar_of_isNameChar (hname.2 c hc)
  | number hdigits => exact isLineChar_of_isDigit (hdigits.2 c hc)
  | negative hdigits =>
    rcases List.mem_cons.mp hc with rfl | hc
    · decide
    · exact isLineChar_of_isDigit (hdigits.2 c hc)

theorem OperandsForm.forall_isLineChar {operands : List Operand} {text : List Char}
    (htext : OperandsForm operands text) : ∀ c ∈ text, isLineChar c = true := by
  induction htext with
  | single hbefore htext hafter =>
    intro c hc
    simp only [List.mem_append] at hc
    rcases hc with (hc | hc) | hc
    · exact isLineChar_of_isGap (hbefore c hc)
    · exact htext.forall_isLineChar c hc
    · exact isLineChar_of_isGap (hafter c hc)
  | cons hbefore htext hafter _ ih =>
    intro c hc
    simp only [List.mem_append, List.mem_cons] at hc
    rcases hc with ((hc | hc) | hc) | rfl | hc
    · exact isLineChar_of_isGap (hbefore c hc)
    · exact htext.forall_isLineChar c hc
    · exact isLineChar_of_isGap (hafter c hc)
    · decide
    · exact ih c hc

theorem OperandListForm.forall_isLineChar {operands : List Operand} {text : List Char}
    (htext : OperandListForm operands text) : ∀ c ∈ text, isLineChar c = true := by
  intro c hc
  cases htext with
  | absent => cases hc
  | empty hinner =>
    simp only [List.mem_append, List.mem_cons, List.not_mem_nil, or_false] at hc
    rcases hc with (rfl | hc) | rfl
    · decide
    · exact isLineChar_of_isGap (hinner c hc)
    · decide
  | operands hbefore htext hafter =>
    simp only [List.mem_append, List.mem_cons, List.not_mem_nil, or_false] at hc
    rcases hc with (((rfl | hc) | hc) | hc) | rfl
    · decide
    · exact isLineChar_of_isGap (hbefore c hc)
    · exact htext.forall_isLineChar c hc
    · exact isLineChar_of_isGap (hafter c hc)
    · decide

theorem TargetForm.forall_isLineChar {target : Option Target} {text : List Char}
    (htext : TargetForm target text) : ∀ c ∈ text, isLineChar c = true := by
  intro c hc
  cases htext with
  | absent => cases hc
  | entry hbefore hafter hdigits =>
    simp only [List.mem_append, List.mem_cons] at hc
    rcases hc with (hc | rfl | rfl | hc) | hc
    · exact isLineChar_of_isGap (hbefore c hc)
    · decide
    · decide
    · exact isLineChar_of_isGap (hafter c hc)
    · exact isLineChar_of_isDigit (hdigits.2 c hc)
  | offset hbefore hafter hdigits =>
    simp only [List.mem_append, List.mem_cons] at hc
    rcases hc with (hc | rfl | rfl | hc) | rfl | hc
    · exact isLineChar_of_isGap (hbefore c hc)
    · decide
    · decide
    · exact isLineChar_of_isGap (hafter c hc)
    · decide
    · exact isLineChar_of_isDigit (hdigits.2 c hc)

/-- Only characters of a line stand in it; in particular no hash and no line feed. -/
theorem LineForm.forall_isLineChar {line : Line} {text : List Char} (htext : LineForm line text) :
    ∀ c ∈ text, isLineChar c = true := by
  rcases htext with ⟨hbefore, hmnemonic, hbetween, hoperands, htarget, hafter⟩
  intro c hc
  simp only [List.mem_append] at hc
  rcases hc with ((((hc | hc) | hc) | hc) | hc) | hc
  · exact isLineChar_of_isGap (hbefore c hc)
  · exact isLineChar_of_isNameChar (isNameChar_of_isAlpha c (hmnemonic.2 c hc))
  · exact isLineChar_of_isGap (hbetween c hc)
  · exact hoperands.forall_isLineChar c hc
  · exact htarget.forall_isLineChar c hc
  · exact isLineChar_of_isGap (hafter c hc)

/-- A line has a letter in it. -/
theorem LineForm.exists_isAlpha {line : Line} {text : List Char} (htext : LineForm line text) :
    ∃ c ∈ text, c.isAlpha = true := by
  rcases htext with ⟨_, hmnemonic, _, _, _, _⟩
  obtain ⟨c, hc⟩ := List.exists_mem_of_ne_nil _ hmnemonic.1
  exact ⟨c, by simp [hc], hmnemonic.2 c hc⟩

end TapeMachine.Assembly
