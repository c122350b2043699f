/-!
# Lines

A text is cut into lines at its line feeds. A carriage return directly before a line feed goes
with it, and a line feed at the very end starts no further line. Texts that hold neither come back
as the lines that were made of them (`lines_flatten`).
-/

set_option autoImplicit false

namespace TapeMachine.Text

/-- The lines of a text. -/
def lines : List Char → List (List Char)
  | [] => []
  | '\n' :: rest => [] :: lines rest
  | '\r' :: '\n' :: rest => [] :: lines rest
  | c :: rest =>
    match lines rest with
    | [] => [[c]]
    | line :: more => (c :: line) :: more

/-- A text without line feeds and carriage returns. -/
def IsUnbroken (text : List Char) : Prop :=
  '\n' ∉ text ∧ '\r' ∉ text

instance (text : List Char) : Decidable (IsUnbroken text) :=
  inferInstanceAs (Decidable (_ ∧ _))

theorem isUnbroken_append {text more : List Char} :
    IsUnbroken (text ++ more) ↔ IsUnbroken text ∧ IsUnbroken more := by
  simp only [IsUnbroken, List.mem_append, not_or, and_and_and_comm]

theorem isUnbroken_cons {c : Char} {text : List Char} :
    IsUnbroken (c :: text) ↔ (c ≠ '\n' ∧ c ≠ '\r') ∧ IsUnbroken text := by
  simp only [IsUnbroken, List.mem_cons, not_or, and_and_and_comm, ne_comm, ne_eq]

theorem lines_cons {c : Char} (hfeed : c ≠ '\n') (hreturn : c ≠ '\r') (rest : List Char) :
    lines (c :: rest) =
      match lines rest with
      | [] => [[c]]
      | line :: more => (c :: line) :: more := by
  rw [lines]
  · exact hfeed
  · exact fun _ hc _ ↦ hreturn hc

/-- A text without line feeds and carriage returns is the first line of what it starts. -/
theorem lines_append_feed {text : List Char} (htext : IsUnbroken text) (rest : List Char) :
    lines (text ++ '\n' :: rest) = text :: lines rest := by
  induction text with
  | nil => rw [List.nil_append, lines]
  | cons c text ih =>
    obtain ⟨⟨hfeed, hreturn⟩, hrest⟩ := isUnbroken_cons.mp htext
    rw [List.cons_append, lines_cons hfeed hreturn, ih hrest]

/-- A text whose lines are each ended by a line feed is cut into these lines again. -/
theorem lines_flatten {texts : List (List Char)} (htexts : ∀ text ∈ texts, IsUnbroken text) :
    lines (texts.map (· ++ ['\n'])).flatten = texts := by
  induction texts with
  | nil => rfl
  | cons text texts ih =>
    obtain ⟨htext, hrest⟩ := List.forall_mem_cons.mp htexts
    rw [List.map_cons, List.flatten_cons, List.append_assoc, List.singleton_append,
      lines_append_feed htext, ih hrest]

/-- The last line needs no line feed, unless it is empty. -/
theorem lines_of_isUnbroken {text : List Char} (htext : IsUnbroken text) (hne : text ≠ []) :
    lines text = [text] := by
  induction text with
  | nil => exact absurd rfl hne
  | cons c text ih =>
    obtain ⟨⟨hfeed, hreturn⟩, hrest⟩ := isUnbroken_cons.mp htext
    rw [lines_cons hfeed hreturn]
    by_cases hend : text = []
    · rw [hend, lines]
    · rw [ih hrest hend]

end TapeMachine.Text
