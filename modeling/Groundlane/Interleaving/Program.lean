import Mathlib.Logic.Relation

/-!
# Programs that perform operations on a shared world

A `Program` is a call in progress: it has returned, it has raised an error, or it is about
to perform an operation and continue with the answer. Between two operations of one program
any number of operations of other programs may happen, so a program is a tree over the
answers and not a function of the state.

`Path` follows one branch of the tree, and `AtMost` bounds how often the operations of a kind
occur on any branch. Both speak about the program text alone; `Interleaving.System` connects
them to runs.
-/

namespace Interleaving

/-- A call in progress over operations `Op`, whose answers have type `Res op`. -/
inductive Program (Op : Type) (Res : Op → Type) (ε α : Type) : Type where
  | done (value : α)
  | raise (error : ε)
  | perform (op : Op) (next : Res op → Program Op Res ε α)

namespace Program

variable {Op : Type} {Res : Op → Type} {ε α β γ : Type}

/-- Run `program` and pass its value on; an error skips the rest. -/
def bind (program : Program Op Res ε α) (rest : α → Program Op Res ε β) :
    Program Op Res ε β :=
  match program with
  | done value => rest value
  | raise error => raise error
  | perform op next => perform op fun answer => (next answer).bind rest

instance : Monad (Program Op Res ε) where
  pure := done
  bind := bind

/-- Perform one operation and return its answer. -/
def request (op : Op) : Program Op Res ε (Res op) :=
  perform op done

/-- Return a computed value or raise its error, without performing anything. -/
def ofExcept : Except ε α → Program Op Res ε α
  | .ok value => done value
  | .error error => raise error

instance : MonadLift (Except ε) (Program Op Res ε) where
  monadLift := ofExcept

/-- Run `program` to its end and return what came out; the result never raises. -/
def attempt : Program Op Res ε α → Program Op Res ε (Except ε α)
  | done value => done (.ok value)
  | raise error => done (.error error)
  | perform op next => perform op fun answer => (next answer).attempt

/-- `try program catch handler`: errors of the handler itself are not caught. -/
def tryCatch (program : Program Op Res ε α) (handler : ε → Program Op Res ε α) :
    Program Op Res ε α :=
  program.attempt.bind fun
    | .ok value => done value
    | .error error => handler error

@[simp] theorem pure_eq (value : α) : (pure value : Program Op Res ε α) = done value := rfl

@[simp] theorem bind_eq (program : Program Op Res ε α) (rest : α → Program Op Res ε β) :
    program >>= rest = program.bind rest := rfl

@[simp] theorem done_bind (value : α) (rest : α → Program Op Res ε β) :
    (done value).bind rest = rest value := rfl

@[simp] theorem raise_bind (error : ε) (rest : α → Program Op Res ε β) :
    (raise error : Program Op Res ε α).bind rest = raise error := rfl

@[simp] theorem perform_bind (op : Op) (next : Res op → Program Op Res ε α)
    (rest : α → Program Op Res ε β) :
    (perform op next).bind rest = perform op fun answer => (next answer).bind rest := rfl

@[simp] theorem request_bind (op : Op) (rest : Res op → Program Op Res ε β) :
    (request op).bind rest = perform op rest := rfl

@[simp] theorem attempt_done (value : α) :
    (done value : Program Op Res ε α).attempt = done (.ok value) := rfl

@[simp] theorem attempt_raise (error : ε) :
    (raise error : Program Op Res ε α).attempt = done (.error error) := rfl

@[simp] theorem attempt_perform (op : Op) (next : Res op → Program Op Res ε α) :
    (perform op next).attempt = perform op fun answer => (next answer).attempt := rfl

@[simp] theorem ofExcept_ok (value : α) :
    (ofExcept (.ok value) : Program Op Res ε α) = done value := rfl

@[simp] theorem ofExcept_error (error : ε) :
    (ofExcept (.error error) : Program Op Res ε α) = raise error := rfl

@[simp] theorem liftM_eq (outcome : Except ε α) :
    (liftM outcome : Program Op Res ε α) = ofExcept outcome := rfl

@[simp] theorem monadLift_eq (outcome : Except ε α) :
    (MonadLift.monadLift outcome : Program Op Res ε α) = ofExcept outcome := rfl

theorem bind_assoc (program : Program Op Res ε α) (first : α → Program Op Res ε β)
    (second : β → Program Op Res ε γ) :
    (program.bind first).bind second = program.bind fun value => (first value).bind second := by
  induction program with
  | done => rfl
  | raise => rfl
  | perform op next ih => simp only [perform_bind, ih]

/-! ## Two programs in parallel -/

/-- Run `program` to its end for its effects and then raise `error`. -/
def thenRaise (program : Program Op Res ε α) (error : ε) : Program Op Res ε β :=
  program.attempt.bind fun _ => raise error

/-- The left program of a parallel pair is about to perform `op`; the right one is given. When
both can move, the answer to `flip` decides which goes first. -/
def interleave (flip : Op) (leftFirst : Res flip → Bool) (op : Op)
    (left : Res op → Program Op Res ε α → Program Op Res ε β) :
    Program Op Res ε α → Program Op Res ε β
  | done value => perform op fun answer => left answer (done value)
  | raise error => perform op fun answer => left answer (raise error)
  | perform op' next => perform flip fun choice =>
    if leftFirst choice then perform op fun answer => left answer (perform op' next)
    else perform op' fun answer => interleave flip leftFirst op left (next answer)

/-- Both programs, their operations interleaved in any order; the first error is the outcome,
raised once both have come to their end. -/
def both (flip : Op) (leftFirst : Res flip → Bool) :
    Program Op Res ε α → Program Op Res ε β → Program Op Res ε (α × β)
  | done value => fun right => right.bind fun other => done (value, other)
  | raise error => fun right => right.thenRaise error
  | perform op next => interleave flip leftFirst op fun answer => both flip leftFirst (next answer)

/-- All programs of a list, their operations interleaved in any order. -/
def all (flip : Op) (leftFirst : Res flip → Bool) :
    List (Program Op Res ε α) → Program Op Res ε (List α)
  | [] => done []
  | program :: rest => (both flip leftFirst program (all flip leftFirst rest)).bind
    fun values => done (values.1 :: values.2)

/-! ## Branches of a program -/

/-- `Path p effects q`: answering the operations of `p` as `effects` does leads to `q`. -/
inductive Path : Program Op Res ε α → List (Σ op, Res op) → Program Op Res ε α → Prop where
  | here (program) : Path program [] program
  | step {op next answer effects final} :
    Path (next answer) effects final → Path (perform op next) (⟨op, answer⟩ :: effects) final

variable {effects : List (Σ op, Res op)} {program : Program Op Res ε α}
  {rest : α → Program Op Res ε β} {op : Op} {next : Res op → Program Op Res ε α} {bound : Nat}
  {outcome : Except ε α} {value : α}

/-- A path that leads to an operation can be extended by any of its answers. -/
theorem Path.snoc {effects : List (Σ op, Res op)} (h : Path program effects (perform op next))
    (answer : Res op) : Path program (effects ++ [⟨op, answer⟩]) (next answer) := by
  generalize hfinal : perform op next = final at h
  induction h with
  | here => subst hfinal; exact .step (.here _)
  | step _ ih => exact .step (ih hfinal)

/-- A path through a sequence is a path through its first part or continues after it. -/
theorem Path.bind_inv {final : Program Op Res ε β} (h : Path (program.bind rest) effects final) :
    (∃ middle, Path program effects middle ∧ final = middle.bind rest) ∨
      ∃ first second value, effects = first ++ second ∧ Path program first (done value) ∧
        Path (rest value) second final := by
  induction program generalizing effects with
  | done value => exact .inr ⟨[], effects, value, rfl, .here _, h⟩
  | raise error =>
    cases h with
    | here => exact .inl ⟨_, .here _, rfl⟩
  | perform op next ih =>
    cases h with
    | here => exact .inl ⟨_, .here _, rfl⟩
    | step h =>
      rcases ih _ h with ⟨middle, hpath, rfl⟩ | ⟨first, second, value, rfl, hpath, hrest⟩
      · exact .inl ⟨middle, .step hpath, rfl⟩
      · exact .inr ⟨⟨op, _⟩ :: first, second, value, rfl, .step hpath, hrest⟩

variable {final : Program Op Res ε α} {result : β} {error : ε}

/-- A path that ends a sequence normally went through both of its parts. -/
theorem Path.bind_done (h : Path (program.bind rest) effects (done result)) :
    ∃ first second value, effects = first ++ second ∧ Path program first (done value) ∧
      Path (rest value) second (done result) := by
  rcases h.bind_inv with ⟨middle, hpath, hmiddle⟩ | hsplit
  · cases middle with
    | done value => exact ⟨effects, [], value, by simp, hpath, hmiddle ▸ .here _⟩
    | raise error => cases hmiddle
    | perform op next => cases hmiddle
  · exact hsplit

@[simp] theorem path_done_iff :
    Path (done value) effects final ↔ effects = [] ∧ final = done value := by
  constructor
  · intro h
    cases h with
    | here => exact ⟨rfl, rfl⟩
  · rintro ⟨rfl, rfl⟩
    exact .here _

@[simp] theorem path_raise_iff :
    Path (raise error) effects final ↔ effects = [] ∧ final = raise error := by
  constructor
  · intro h
    cases h with
    | here => exact ⟨rfl, rfl⟩
  · rintro ⟨rfl, rfl⟩
    exact .here _

/-- A path through an operation to a final value answers that operation first. -/
theorem path_perform_done_iff {effects : List (Σ op, Res op)} :
    Path (perform op next) effects (done value) ↔
      ∃ answer rest, effects = ⟨op, answer⟩ :: rest ∧ Path (next answer) rest (done value) := by
  constructor
  · intro h
    cases h with
    | step h => exact ⟨_, _, rfl, h⟩
  · rintro ⟨_, _, rfl, h⟩
    exact .step h

/-- A single operation has one answer. -/
theorem path_request_iff {effects : List (Σ op, Res op)} {answer : Res op} :
    Path (request op : Program Op Res ε (Res op)) effects (done answer) ↔
      effects = [⟨op, answer⟩] := by
  rw [request, path_perform_done_iff]
  constructor
  · rintro ⟨_, _, rfl, h⟩
    obtain ⟨rfl, heq⟩ := path_done_iff.1 h
    rw [done.inj heq]
  · rintro rfl
    exact ⟨answer, [], rfl, .here _⟩

/-- A path that ends normally behind a check passed it. -/
theorem Path.check (h : Path ((ofExcept outcome).bind rest) effects (done result)) :
    ∃ value, outcome = .ok value ∧ Path (rest value) effects (done result) := by
  cases outcome with
  | ok value => exact ⟨value, rfl, h⟩
  | error error =>
    obtain ⟨_, h⟩ := path_raise_iff.1 h
    cases h

/-- A path to an outcome behind a computed value has no operations. -/
@[simp] theorem path_ofExcept_iff {first outcome : Except ε α} :
    Path (ofExcept first) effects (ofExcept outcome : Program Op Res ε α) ↔
      effects = [] ∧ outcome = first := by
  cases first <;> cases outcome <;> simp

/-- A path through an operation to an outcome answers that operation first. -/
theorem path_perform_ofExcept_iff {effects : List (Σ op, Res op)} :
    Path (perform op next) effects (ofExcept outcome) ↔
      ∃ answer rest, effects = ⟨op, answer⟩ :: rest ∧
        Path (next answer) rest (ofExcept outcome) := by
  constructor
  · intro h
    generalize hfinal : ofExcept outcome = final at h
    cases h with
    | here => cases outcome <;> cases hfinal
    | step h => exact ⟨_, _, rfl, hfinal ▸ h⟩
  · rintro ⟨_, _, rfl, h⟩
    exact .step h

/-- A path to an outcome behind a check passed it or ends in its error. -/
theorem Path.checked {first : Except ε α} {outcome : Except ε β}
    (h : Path ((ofExcept first).bind rest) effects (ofExcept outcome)) :
    (∃ error, first = .error error ∧ effects = [] ∧ outcome = .error error) ∨
      ∃ value, first = .ok value ∧ Path (rest value) effects (ofExcept outcome) := by
  cases first with
  | ok value => exact .inr ⟨value, rfl, h⟩
  | error error =>
    have hraised : Path (ofExcept (.error error)) effects (ofExcept outcome) := h
    obtain ⟨hnil, heq⟩ := path_ofExcept_iff.1 hraised
    exact .inl ⟨error, rfl, hnil, heq⟩

/-- No path that ends normally leads through a raised error. -/
theorem not_path_raise {result : α} :
    ¬ Path (raise error : Program Op Res ε α) effects (done result) := by
  intro h
  obtain ⟨_, h⟩ := path_raise_iff.1 h
  cases h

/-- A path through a caught program is a path through the program. -/
theorem Path.attempt_inv (h : Path program.attempt effects (done outcome)) :
    Path program effects (ofExcept outcome) := by
  induction program generalizing effects with
  | done value =>
    obtain ⟨rfl, heq⟩ := path_done_iff.1 h
    rw [done.inj heq]
    exact .here _
  | raise error =>
    obtain ⟨rfl, heq⟩ := path_done_iff.1 h
    rw [done.inj heq]
    exact .here _
  | perform op next ih =>
    obtain ⟨answer, _, rfl, hrest⟩ := path_perform_done_iff.1 h
    exact .step (ih answer hrest)

/-- Where the handler only raises, a path that ends normally leads through the program alone. -/
theorem Path.tryCatch_inv {handler : ε → Program Op Res ε α}
    (hraise : ∀ error, ∃ other, handler error = raise other)
    (h : Path (program.tryCatch handler) effects (done value)) :
    Path program effects (done value) := by
  obtain ⟨_, _, outcome, rfl, hprogram, hrest⟩ := Path.bind_done h
  cases outcome with
  | ok result =>
    obtain ⟨rfl, heq⟩ := path_done_iff.1 hrest
    rw [done.inj heq, List.append_nil]
    exact hprogram.attempt_inv
  | error error =>
    obtain ⟨_, hother⟩ := hraise error
    dsimp only at hrest
    rw [hother] at hrest
    exact absurd hrest not_path_raise

/-! ## How often a kind of operation can occur -/

/-- On every branch, at most `bound` operations satisfy `kind`. -/
def AtMost (kind : Op → Bool) : Nat → Program Op Res ε α → Prop
  | _, done _ => True
  | _, raise _ => True
  | bound, perform op next =>
    if kind op then 0 < bound ∧ ∀ answer, AtMost kind (bound - 1) (next answer)
    else ∀ answer, AtMost kind bound (next answer)

variable {kind : Op → Bool}

@[simp] theorem atMost_done (bound : Nat) (value : α) :
    AtMost kind bound (done value : Program Op Res ε α) := trivial

@[simp] theorem atMost_raise (bound : Nat) (error : ε) :
    AtMost kind bound (raise error : Program Op Res ε α) := trivial

/-- An operation of the kind uses up one of the bound. -/
theorem atMost_counted (h : kind op = true) : AtMost kind bound (perform op next) ↔
      0 < bound ∧ ∀ answer, AtMost kind (bound - 1) (next answer) := by
  rw [AtMost, if_pos h]

/-- An operation outside the kind leaves the bound as it is. -/
theorem atMost_uncounted (h : kind op = false) :
    AtMost kind bound (perform op next) ↔ ∀ answer, AtMost kind bound (next answer) := by
  rw [AtMost, if_neg (by simp [h])]

@[simp] theorem atMost_ofExcept (bound : Nat) (outcome : Except ε α) :
    AtMost kind bound (ofExcept outcome : Program Op Res ε α) := by
  cases outcome <;> trivial

/-- A single operation outside the kind costs nothing. -/
theorem atMost_request (h : kind op = false) :
    AtMost kind bound (request op : Program Op Res ε (Res op)) :=
  (atMost_uncounted h).2 fun _ => trivial

/-- A bound may be enlarged. -/
theorem AtMost.mono {small large : Nat} (hle : small ≤ large) (h : AtMost kind small program) :
    AtMost kind large program := by
  induction program generalizing small large with
  | done => trivial
  | raise => trivial
  | perform op next ih =>
    cases hkind : kind op with
    | true =>
      obtain ⟨_, hnext⟩ := (atMost_counted hkind).1 h
      exact (atMost_counted hkind).2 ⟨by omega, fun answer => ih answer (by omega) (hnext answer)⟩
    | false =>
      have hnext := (atMost_uncounted hkind).1 h
      exact (atMost_uncounted hkind).2 fun answer => ih answer hle (hnext answer)

/-- The bounds of the parts of a sequence add up. -/
theorem AtMost.bind {first second : Nat} (h : AtMost kind first program)
    (hrest : ∀ value, AtMost kind second (rest value)) :
    AtMost kind (first + second) (program.bind rest) := by
  induction program generalizing first with
  | done value => exact (hrest value).mono (by omega)
  | raise => trivial
  | perform op next ih =>
    cases hkind : kind op with
    | true =>
      obtain ⟨_, hnext⟩ := (atMost_counted hkind).1 h
      refine (atMost_counted hkind).2 ⟨by omega, fun answer => ?_⟩
      exact (ih answer (hnext answer)).mono (by omega)
    | false =>
      have hnext := (atMost_uncounted hkind).1 h
      exact (atMost_uncounted hkind).2 fun answer => ih answer (hnext answer)

/-- Checks cost nothing. -/
theorem AtMost.check (hrest : ∀ value, AtMost kind bound (rest value)) :
    AtMost kind bound ((ofExcept outcome).bind rest) := by
  cases outcome with
  | ok value => exact hrest value
  | error error => trivial

/-- A first part without operations of the kind costs nothing. -/
theorem AtMost.andThen (h : AtMost kind 0 program) (hrest : ∀ value, AtMost kind bound (rest value)) :
    AtMost kind bound (program.bind rest) :=
  (h.bind hrest).mono (by omega)

/-- A rest without operations of the kind costs nothing. -/
theorem AtMost.before (h : AtMost kind bound program) (hrest : ∀ value, AtMost kind 0 (rest value)) :
    AtMost kind bound (program.bind rest) :=
  (h.bind hrest).mono (by omega)

/-- A single operation costs at most one. -/
theorem atMost_one (op : Op) : AtMost kind 1 (request op : Program Op Res ε (Res op)) := by
  cases hkind : kind op with
  | true => exact (atMost_counted hkind).2 ⟨by omega, fun _ => trivial⟩
  | false => exact (atMost_uncounted hkind).2 fun _ => trivial

/-- Catching the errors of a program changes nothing about its operations. -/
theorem AtMost.attempt (h : AtMost kind bound program) : AtMost kind bound program.attempt := by
  induction program generalizing bound with
  | done => trivial
  | raise => trivial
  | perform op next ih =>
    cases hkind : kind op with
    | true =>
      obtain ⟨hpos, hnext⟩ := (atMost_counted hkind).1 h
      exact (atMost_counted hkind).2 ⟨hpos, fun answer => ih answer (hnext answer)⟩
    | false =>
      have hnext := (atMost_uncounted hkind).1 h
      exact (atMost_uncounted hkind).2 fun answer => ih answer (hnext answer)

/-- Two parallel programs without operations of the kind have none together. -/
theorem atMost_both {flip : Op} {leftFirst : Res flip → Bool} (hflip : kind flip = false)
    {left : Program Op Res ε α} {right : Program Op Res ε β} (hleft : AtMost kind 0 left)
    (hright : AtMost kind 0 right) : AtMost kind 0 (both flip leftFirst left right) := by
  induction left generalizing right with
  | done value => exact hright.andThen fun _ => atMost_done ..
  | raise error => exact hright.attempt.andThen fun _ => atMost_raise ..
  | perform op next ihLeft =>
    cases hkind : kind op with
    | true => exact absurd ((atMost_counted hkind).1 hleft).1 (Nat.lt_irrefl 0)
    | false =>
      have hnext := (atMost_uncounted hkind).1 hleft
      induction right with
      | done other =>
        exact (atMost_uncounted hkind).2 fun answer => ihLeft answer (hnext answer) hright
      | raise error =>
        exact (atMost_uncounted hkind).2 fun answer => ihLeft answer (hnext answer) hright
      | perform op' next' ihRight =>
        cases hkind' : kind op' with
        | true => exact absurd ((atMost_counted hkind').1 hright).1 (Nat.lt_irrefl 0)
        | false =>
          have hnext' := (atMost_uncounted hkind').1 hright
          refine (atMost_uncounted hflip).2 fun choice => ?_
          split
          · exact (atMost_uncounted hkind).2 fun answer =>
              ihLeft answer (hnext answer) hright
          · exact (atMost_uncounted hkind').2 fun answer =>
              ihRight answer (hnext' answer)

/-- A branch of a bounded program performs at most that many operations of the kind. -/
theorem AtMost.countP_le {program final : Program Op Res ε α} (h : AtMost kind bound program)
    (hpath : Path program effects final) :
    effects.countP (fun effect => kind effect.1) ≤ bound := by
  induction hpath generalizing bound with
  | here => simp
  | @step op next answer effects final _ ih =>
    cases hkind : kind op with
    | true =>
      obtain ⟨_, hnext⟩ := (atMost_counted hkind).1 h
      have hrest := ih (hnext answer)
      simp only [List.countP_cons, hkind, if_true]
      omega
    | false =>
      have hnext := (atMost_uncounted hkind).1 h
      simpa [List.countP_cons, hkind] using ih (hnext answer)

-- A program is taken apart by the equations above; unfolding it would run its checks.
attribute [irreducible] bind attempt AtMost

end Program

end Interleaving
