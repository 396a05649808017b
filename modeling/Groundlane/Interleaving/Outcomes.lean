import Groundlane.Interleaving.Program

/-!
# Paths to an outcome

A call comes to its end with a value or with an error, and its path to either leads through the
parts of its program: a sequence stops at the first error, and a handler continues from one.
-/

namespace Interleaving

namespace Program

variable {Op : Type} {Res : Op → Type} {ε α β : Type} {effects : List (Σ op, Res op)}
  {outcome : Except ε α}

/-- A path from a value to an outcome has no operations. -/
@[simp] theorem path_done_outcome {value : α} :
    Path (done value : Program Op Res ε α) effects (ofExcept outcome) ↔
      effects = [] ∧ outcome = .ok value := by
  rw [← ofExcept_ok, path_ofExcept_iff]

/-- A path from an error to an outcome has no operations. -/
@[simp] theorem path_raise_outcome {error : ε} :
    Path (raise error : Program Op Res ε α) effects (ofExcept outcome) ↔
      effects = [] ∧ outcome = .error error := by
  rw [← ofExcept_error, path_ofExcept_iff]

/-- A path to an outcome of a sequence stops in its first part or continues after it. -/
theorem Path.bind_outcome {program : Program Op Res ε α} {rest : α → Program Op Res ε β}
    {outcome : Except ε β} (h : Path (program.bind rest) effects (ofExcept outcome)) :
    (∃ error, Path program effects (raise error) ∧ outcome = .error error) ∨
      ∃ first second value, effects = first ++ second ∧ Path program first (done value) ∧
        Path (rest value) second (ofExcept outcome) := by
  rcases h.bind_inv with ⟨middle, hpath, hmiddle⟩ | hsplit
  · cases middle with
    | done value =>
      rw [done_bind] at hmiddle
      exact .inr ⟨effects, [], value, by simp, hpath, hmiddle ▸ .here _⟩
    | raise error =>
      rw [raise_bind] at hmiddle
      refine .inl ⟨error, hpath, ?_⟩
      cases outcome with
      | ok value => cases hmiddle
      | error other =>
        cases hmiddle
        rfl
    | perform op next =>
      rw [perform_bind] at hmiddle
      cases outcome <;> cases hmiddle
  · exact .inr hsplit

/-- Running a program to its end never raises. -/
theorem not_path_attempt_raise (program : Program Op Res ε α) (effects : List (Σ op, Res op))
    (error : ε) : ¬ Path program.attempt effects (raise error) := by
  induction program generalizing effects with
  | done value => simp
  | raise other => simp
  | perform op next ih =>
    intro h
    rw [attempt_perform] at h
    cases h with
    | step h => exact ih _ _ h

/-- A path to an outcome of a caught program ends with its value or goes through the handler. -/
theorem Path.tryCatch_outcome {program : Program Op Res ε α} {handler : ε → Program Op Res ε α}
    (h : Path (program.tryCatch handler) effects (ofExcept outcome)) :
    (∃ value, Path program effects (done value) ∧ outcome = .ok value) ∨
      ∃ first second error, effects = first ++ second ∧ Path program first (raise error) ∧
        Path (handler error) second (ofExcept outcome) := by
  rcases h.bind_outcome with ⟨error, hpath, -⟩ | ⟨first, second, result, rfl, hpath, hrest⟩
  · exact absurd hpath (not_path_attempt_raise program effects error)
  · cases result with
    | ok value =>
      obtain ⟨rfl, rfl⟩ := path_done_outcome.1 hrest
      exact .inl ⟨value, by simpa using hpath.attempt_inv, rfl⟩
    | error error => exact .inr ⟨first, second, error, rfl, hpath.attempt_inv, hrest⟩

end Program

end Interleaving
