import Groundlane.Interleaving.System

/-!
# A call that nobody interrupts

`Program.settle` computes what a program comes to when one oracle answers all of its operations
and nobody else moves.
-/

namespace Interleaving

variable {Op : Type} {Res : Op → Type} {ε α β S : Type}

namespace Program

/-- The outcome of the program, and the state it leaves, when nobody else moves. -/
def settle (exec : (op : Op) → S → S × Res op) : Program Op Res ε α → S → Except ε α × S
  | done value, state => (.ok value, state)
  | raise error, state => (.error error, state)
  | perform op next, state => settle exec (next (exec op state).2) (exec op state).1

variable {exec : (op : Op) → S → S × Res op} {state after : S}

@[simp] theorem settle_done (value : α) :
    settle exec (done value : Program Op Res ε α) state = (.ok value, state) := rfl

@[simp] theorem settle_raise (error : ε) :
    settle exec (raise error : Program Op Res ε α) state = (.error error, state) := rfl

theorem settle_perform (op : Op) (next : Res op → Program Op Res ε α) :
    settle exec (perform op next) state =
      settle exec (next (exec op state).2) (exec op state).1 := rfl

variable {rest : α → Program Op Res ε β} {program : Program Op Res ε α} {outcome : Except ε α}

/-- The second part of a sequence runs where the first part ended. -/
theorem settle_bind_ok {value : α} (h : settle exec program state = (.ok value, after)) :
    settle exec (program.bind rest) state = settle exec (rest value) after := by
  induction program generalizing state with
  | done value =>
    cases h
    rw [done_bind]
  | raise error => cases h
  | perform op next ih =>
    rw [perform_bind, settle_perform]
    exact ih _ h

/-- An error ends the sequence. -/
theorem settle_bind_error {error : ε} (h : settle exec program state = (.error error, after)) :
    settle exec (program.bind rest) state = (.error error, after) := by
  induction program generalizing state with
  | done value => cases h
  | raise error =>
    cases h
    rw [raise_bind, settle_raise]
  | perform op next ih =>
    rw [perform_bind, settle_perform]
    exact ih _ h

/-- A sequence behind a check. -/
theorem settle_check : settle exec ((ofExcept outcome).bind rest) state =
      match outcome with
      | .ok value => settle exec (rest value) state
      | .error error => (.error error, state) := by
  cases outcome with
  | ok value => rw [ofExcept_ok, done_bind]
  | error error => rw [ofExcept_error, raise_bind, settle_raise]

/-- Checks in front of something that leaves the state as it is do so, too. -/
theorem settle_check_pure {next : α → Except ε β}
    (h : ∀ value, settle exec (rest value) state = (next value, state)) :
    settle exec ((ofExcept outcome).bind rest) state = (outcome >>= next, state) := by
  cases outcome with
  | ok value =>
    rw [ofExcept_ok, done_bind]
    exact h value
  | error error =>
    rw [ofExcept_error, raise_bind]
    rfl

/-- A computed value. -/
theorem settle_ofExcept (outcome : Except ε α) :
    settle exec (ofExcept outcome : Program Op Res ε α) state = (outcome, state) := by
  cases outcome <;> rfl

/-- Catching the errors of a program returns its outcome. -/
theorem settle_attempt (program : Program Op Res ε α) :
    settle exec program.attempt state =
      (.ok (settle exec program state).1, (settle exec program state).2) := by
  induction program generalizing state with
  | done value => rw [attempt_done, settle_done, settle_done]
  | raise error => rw [attempt_raise, settle_done, settle_raise]
  | perform op next ih =>
    rw [attempt_perform, settle_perform, settle_perform]
    exact ih _

end Program

end Interleaving
