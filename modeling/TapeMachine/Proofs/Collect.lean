import Mathlib.Data.List.Forall2

/-!
# Collecting answers

A list of questions that may each fail is asked in order, and the answers are collected if none of
them fails. `mapM_eq_ok_iff` reads a collected list back one question at a time, and
`mapM_eq_error_iff` finds the first question that fails.
-/

set_option autoImplicit false

namespace TapeMachine

variable {α β ε : Type}

/-- A list of answers is collected exactly if each question has its answer. -/
theorem mapM_eq_ok_iff {ask : α → Except ε β} {questions : List α} {answers : List β} :
    questions.mapM ask = .ok answers ↔ questions.map ask = answers.map .ok := by
  induction questions generalizing answers with
  | nil =>
    cases answers with
    | nil => simp [pure, Except.pure]
    | cons answer rest => simp [pure, Except.pure]
  | cons question questions ih =>
    rw [List.mapM_cons, List.map_cons]
    cases hquestion : ask question with
    | error fault => cases answers <;> simp [bind, Except.bind]
    | ok answer =>
      cases hrest : questions.mapM ask with
      | error fault =>
        cases answers with
        | nil => simp [bind, Except.bind]
        | cons first others => simp [bind, Except.bind, ← ih, hrest]
      | ok rest =>
        cases answers with
        | nil => simp [bind, Except.bind, pure, Except.pure]
        | cons first others => simp [bind, Except.bind, pure, Except.pure, ← ih, hrest]

theorem exists_mapM_eq_ok_iff {ask : α → Except ε β} {questions : List α} :
    (∃ answers, questions.mapM ask = .ok answers) ↔
      ∀ question ∈ questions, ∃ answer, ask question = .ok answer := by
  constructor
  · rintro ⟨answers, hanswers⟩ question hquestion
    have hmem := List.mem_map_of_mem hquestion (f := ask)
    rw [mapM_eq_ok_iff.mp hanswers, List.mem_map] at hmem
    obtain ⟨answer, -, hanswer⟩ := hmem
    exact ⟨answer, hanswer.symm⟩
  · intro hall
    induction questions with
    | nil => exact ⟨[], rfl⟩
    | cons question questions ih =>
      obtain ⟨answer, hanswer⟩ := hall question List.mem_cons_self
      obtain ⟨answers, hanswers⟩ := ih fun other hother ↦ hall other (List.mem_cons_of_mem _ hother)
      refine ⟨answer :: answers, ?_⟩
      rw [List.mapM_cons, hanswer, hanswers]
      rfl

theorem length_of_mapM_eq_ok {ask : α → Except ε β} {questions : List α} {answers : List β}
    (hanswers : questions.mapM ask = .ok answers) : answers.length = questions.length := by
  have hlength := congrArg List.length (mapM_eq_ok_iff.mp hanswers)
  rw [List.length_map, List.length_map] at hlength
  exact hlength.symm

theorem mapM_eq_ok_iff_forall₂ {ask : α → Except ε β} {questions : List α} {answers : List β} :
    questions.mapM ask = .ok answers ↔
      List.Forall₂ (fun question answer ↦ ask question = .ok answer) questions answers := by
  rw [mapM_eq_ok_iff, ← List.forall₂_eq_eq_eq, List.forall₂_map_left_iff,
    List.forall₂_map_right_iff]

/-- Collecting fails as the first question that fails does. -/
theorem mapM_eq_error_iff {ask : α → Except ε β} {questions : List α} {fault : ε} :
    questions.mapM ask = .error fault ↔
      ∃ before question after, questions = before ++ question :: after ∧
        (∀ earlier ∈ before, ∃ answer, ask earlier = .ok answer) ∧
        ask question = .error fault := by
  induction questions with
  | nil => simp [pure, Except.pure]
  | cons question questions ih =>
    rw [List.mapM_cons]
    simp only [List.cons_eq_append_iff]
    cases hquestion : ask question with
    | error first =>
      constructor
      · intro hfault
        obtain rfl := Except.error.inj hfault
        exact ⟨[], question, questions, .inl ⟨rfl, rfl⟩, by simp, hquestion⟩
      · rintro ⟨before, other, after, ⟨rfl, hsame⟩ | ⟨rest, rfl, -⟩, hbefore, hother⟩
        · obtain ⟨rfl, rfl⟩ := List.cons.inj hsame
          rw [hquestion] at hother
          rw [Except.error.inj hother]
          rfl
        · obtain ⟨answer, hanswer⟩ := hbefore question List.mem_cons_self
          rw [hquestion] at hanswer
          cases hanswer
    | ok answer =>
      have hrest : (do
          let first ← (.ok answer : Except ε β)
          let rest ← questions.mapM ask
          pure (first :: rest)) = .error fault ↔ questions.mapM ask = .error fault := by
        cases questions.mapM ask <;> simp [bind, Except.bind, pure, Except.pure]
      rw [hrest, ih]
      constructor
      · rintro ⟨before, other, after, rfl, hbefore, hother⟩
        refine ⟨question :: before, other, after, .inr ⟨before, rfl, rfl⟩, ?_, hother⟩
        exact List.forall_mem_cons.mpr ⟨⟨answer, hquestion⟩, hbefore⟩
      · rintro ⟨before, other, after, ⟨rfl, hsame⟩ | ⟨rest, rfl, rfl⟩, hbefore, hother⟩
        · obtain ⟨rfl, rfl⟩ := List.cons.inj hsame
          rw [hquestion] at hother
          cases hother
        · exact ⟨rest, other, after, rfl, (List.forall_mem_cons.mp hbefore).2, hother⟩

end TapeMachine
