import Groundlane.Interleaving.System

/-!
# Rely-guarantee reasoning about interleaved calls

A guarantee says of every event of every call under which circumstances it happens. A program
is `Safe` when each of its operations keeps the guarantee whatever the other calls did in
between, as long as those kept it too. Once every call is shown safe on its own (`Verified`),
every run is a chain of steps that keep the guarantee, and what each such step preserves holds
throughout (`Ready.run`, `Ready.chain`).
-/

namespace Interleaving

open Relation

variable {Call Op : Type} {Res : Op → Type} {ε α β S Ω : Type}

/-- What call `i` promises about an event in the world in which it is about to happen. -/
abbrev Guarantee (Call Op : Type) (Res : Op → Type) (ε α S : Type) : Type :=
  Nat → Event Call Op Res ε α → World Call Op Res ε α S → Prop

variable (sys : System Call Op Res ε β S Ω) (G : Guarantee Call Op Res ε β S)

/-- A step of call `i` that keeps the guarantee. -/
def Keeps (i : Nat) (world after : World Call Op Res ε β S) : Prop :=
  ∃ event, sys.Step i event world after ∧ G i event world

/-- What the other calls may do between two operations of call `i`. -/
def Rely (i : Nat) : World Call Op Res ε β S → World Call Op Res ε β S → Prop :=
  ReflTransGen fun world after => ∃ j, j ≠ i ∧ Keeps sys G j world after

/-- What all calls together may do. -/
def Evolves : World Call Op Res ε β S → World Call Op Res ε β S → Prop :=
  ReflTransGen fun world after => ∃ j, Keeps sys G j world after

/-- Every operation of the program keeps the guarantee when others move in between as `R`
allows, and the outcome satisfies `post` where it is produced. -/
def Safe (R : World Call Op Res ε β S → World Call Op Res ε β S → Prop) (i : Nat)
    (post : Except ε α → World Call Op Res ε β S → Prop) :
    Program Op Res ε α → World Call Op Res ε β S → Prop
  | .done value, world => post (.ok value) world
  | .raise error, world => post (.error error) world
  | .perform op next, world => ∀ now, R world now → ∀ oracle,
    G i (.effect op (sys.exec oracle op now.state).2) now ∧
      Safe R i post (next (sys.exec oracle op now.state).2)
        (now.log i (.effect op (sys.exec oracle op now.state).2) (sys.exec oracle op now.state).1)

variable {sys G}

/-- Performing an operation is a step. -/
theorem step_effect (i : Nat) (oracle : Ω) (op : Op) (world : World Call Op Res ε β S) :
    sys.Step i (.effect op (sys.exec oracle op world.state).2) world
      (world.log i (.effect op (sys.exec oracle op world.state).2)
        (sys.exec oracle op world.state).1) where
  history := rfl
  fresh := by simp
  effect := by
    rintro _ _ ⟨⟩
    exact ⟨oracle, rfl⟩
  still h := absurd rfl (h _ _)

/-- Responding is a step. -/
theorem step_response (i : Nat) (outcome : Except ε β) (world : World Call Op Res ε β S) :
    sys.Step i (.response outcome) world (world.log i (.response outcome) world.state) where
  history := rfl
  fresh := by simp
  effect := by simp
  still _ := rfl

variable {world : World Call Op Res ε β S} {post : Except ε α → World Call Op Res ε β S → Prop}
  {program : Program Op Res ε α} {P : World Call Op Res ε β S → Prop}
  {config : Config Call Op Res ε β S} {Q : α → World Call Op Res ε β S → Prop} {γ : Type}
  {rest : α → Program Op Res ε γ} {flip : Op} {leftFirst : Res flip → Bool} {outcome : Except ε α}
  {op : Op}

/-- Making a call with a new number is a step. -/
theorem step_invoke {i : Nat} (hfresh : ∀ event, (i, event) ∉ world.history) (call : Call) :
    sys.Step i (.invoke call) world (world.log i (.invoke call) world.state) where
  history := rfl
  fresh _ _ := hfresh
  effect := by simp
  still _ := rfl

/-! ## What is preserved -/

theorem Rely.refl (i : Nat) (world : World Call Op Res ε β S) : Rely sys G i world world :=
  ReflTransGen.refl

theorem Rely.evolves {i : Nat} {world after : World Call Op Res ε β S}
    (h : Rely sys G i world after) : Evolves sys G world after := by
  induction h with
  | refl => exact .refl
  | tail _ hstep ih =>
    obtain ⟨j, -, hkeeps⟩ := hstep
    exact ih.tail ⟨j, hkeeps⟩

theorem Evolves.trans {first second third : World Call Op Res ε β S}
    (h : Evolves sys G first second) (h' : Evolves sys G second third) :
    Evolves sys G first third :=
  ReflTransGen.trans h h'

theorem Keeps.evolves {i : Nat} {world after : World Call Op Res ε β S}
    (h : Keeps sys G i world after) : Evolves sys G world after :=
  .single ⟨i, h⟩

/-- What every step that keeps the guarantee preserves. -/
def Persistent (sys : System Call Op Res ε β S Ω) (G : Guarantee Call Op Res ε β S)
    (P : World Call Op Res ε β S → Prop) : Prop :=
  ∀ i event world after, sys.Step i event world after → G i event world → P world → P after

theorem Persistent.evolves (hP : Persistent sys G P) {world after : World Call Op Res ε β S}
    (h : Evolves sys G world after) (hworld : P world) : P after := by
  induction h with
  | refl => exact hworld
  | tail _ hstep ih =>
    obtain ⟨j, event, hstep, hG⟩ := hstep
    exact hP j event _ _ hstep hG ih

theorem Persistent.rely (hP : Persistent sys G P) {i : Nat} {world after : World Call Op Res ε β S}
    (h : Rely sys G i world after) (hworld : P world) : P after :=
  hP.evolves h.evolves hworld

/-- Every entry of the history stays. -/
theorem persistent_mem_history (entry : Nat × Event Call Op Res ε β) :
    Persistent sys G fun world => entry ∈ world.history :=
  fun _ _ _ _ hstep _ h => hstep.history_mono h

/-- What happens is added at the front of the history. -/
theorem Evolves.suffix {world after : World Call Op Res ε β S} (h : Evolves sys G world after) :
    world.history <:+ after.history := by
  induction h with
  | refl => exact List.suffix_rfl
  | tail _ hstep ih =>
    obtain ⟨j, _, hstep, -⟩ := hstep
    rw [hstep.history]
    exact ih.trans (List.suffix_cons _ _)

/-- Call `i` is `call`. -/
def Calls (i : Nat) (call : Call) (world : World Call Op Res ε β S) : Prop :=
  (i, .invoke call) ∈ world.history ∧ ∀ other, (i, .invoke other) ∈ world.history → other = call

/-- A call is made only once. -/
theorem persistent_calls (i : Nat) (call : Call) :
    Persistent sys G (Calls i call : World Call Op Res ε β S → Prop) := by
  intro j event world after hstep _ ⟨hcall, honly⟩
  refine ⟨hstep.history_mono hcall, fun other hother => ?_⟩
  rcases hstep.mem_history.1 hother with heq | hother
  · obtain ⟨rfl, rfl⟩ := Prod.mk.inj heq
    exact absurd hcall (hstep.fresh other rfl _)
  · exact honly other hother

/-- What the steps of all other calls preserve holds until the next step of call `i`. -/
theorem Rely.preserves {i : Nat}
    (hP : ∀ j event world after, j ≠ i → sys.Step j event world after → G j event world →
      P world → P after) {world after : World Call Op Res ε β S} (h : Rely sys G i world after)
    (hworld : P world) : P after := by
  induction h with
  | refl => exact hworld
  | tail _ hstep ih =>
    obtain ⟨j, hj, event, hstep, hG⟩ := hstep
    exact hP j event _ _ hj hstep hG ih

/-- The other calls add nothing to what call `i` did. -/
theorem Rely.own_history {i : Nat} {world after : World Call Op Res ε β S}
    (h : Rely sys G i world after) (event : Event Call Op Res ε β) :
    (i, event) ∈ after.history ↔ (i, event) ∈ world.history := by
  refine h.preserves (P := fun now => (i, event) ∈ now.history ↔ (i, event) ∈ world.history)
    (fun j other now next hj hstep _ ih => ?_) Iff.rfl
  rw [hstep.mem_history, ← ih]
  simp [Ne.symm hj]

/-- What a call has done last stays so until its next step. -/
theorem Rely.latest {i : Nat} {event : Event Call Op Res ε β} {world after : World Call Op Res ε β S}
    (h : Rely sys G i world after) (hlatest : System.Latest i event world.history) :
    System.Latest i event after.history :=
  h.preserves (P := fun now => System.Latest i event now.history)
    (fun _ _ _ _ hj hstep _ hlatest => (hstep.latest_iff hj).2 hlatest) hlatest

/-! ## Rules -/

variable {R : World Call Op Res ε β S → World Call Op Res ε β S → Prop} {i : Nat}

theorem Safe.mono {post post' : Except ε α → World Call Op Res ε β S → Prop}
    (hpost : ∀ outcome world, post outcome world → post' outcome world)
    (h : Safe sys G R i post program world) : Safe sys G R i post' program world := by
  induction program generalizing world with
  | done value => exact hpost _ _ h
  | raise error => exact hpost _ _ h
  | perform op next ih =>
    intro now hR oracle
    obtain ⟨hG, hnext⟩ := h now hR oracle
    exact ⟨hG, ih _ hnext⟩

/-- A program that is safe among more interference is safe among less. -/
theorem Safe.anti {R' : World Call Op Res ε β S → World Call Op Res ε β S → Prop}
    (hR : ∀ world now, R' world now → R world now) (h : Safe sys G R i post program world) :
    Safe sys G R' i post program world := by
  induction program generalizing world with
  | done value => exact h
  | raise error => exact h
  | perform op next ih =>
    intro now hR' oracle
    obtain ⟨hG, hnext⟩ := h now (hR _ _ hR') oracle
    exact ⟨hG, ih _ hnext⟩

/-- A safe program is still safe after the interference it allows for. -/
theorem Safe.later (htrans : ∀ first second third, R first second → R second third → R first third)
    {next : Res op → Program Op Res ε α} {world later : World Call Op Res ε β S}
    (h : Safe sys G R i post (.perform op next) world) (hlater : R world later) :
    Safe sys G R i post (.perform op next) later :=
  fun now hR => h now (htrans _ _ _ hlater hR)

/-- The outcome of a safe program is produced in a world that evolved from the first one. -/
theorem Safe.evolving (hR : ∀ world now, R world now → Evolves sys G world now)
    (h : Safe sys G R i post program world) :
    Safe sys G R i (fun outcome now => Evolves sys G world now ∧ post outcome now)
      program world := by
  induction program generalizing world with
  | done value => exact ⟨.refl, h⟩
  | raise error => exact ⟨.refl, h⟩
  | perform op next ih =>
    intro now hnow oracle
    obtain ⟨hG, hnext⟩ := h now hnow oracle
    have hhere : Evolves sys G world (now.log i _ _) :=
      (hR _ _ hnow).trans (Keeps.evolves ⟨_, step_effect i oracle op now, hG⟩)
    exact ⟨hG, (ih _ hnext).mono fun _ _ ⟨hevolves, hpost⟩ => ⟨hhere.trans hevolves, hpost⟩⟩

/-- The rule of sequence. -/
theorem Safe.bind (hR : ∀ world now, R world now → Evolves sys G world now)
    {middle : Except ε α → World Call Op Res ε β S → Prop}
    {post : Except ε γ → World Call Op Res ε β S → Prop} (h : Safe sys G R i middle program world)
    (hok : ∀ value now, Evolves sys G world now → middle (.ok value) now →
      Safe sys G R i post (rest value) now)
    (herror : ∀ error now, Evolves sys G world now → middle (.error error) now →
      post (.error error) now) : Safe sys G R i post (program.bind rest) world := by
  have key : ∀ (program : Program Op Res ε α) (here : World Call Op Res ε β S),
      Safe sys G R i (fun outcome now => Evolves sys G world now ∧ middle outcome now)
        program here → Safe sys G R i post (program.bind rest) here := by
    intro program
    induction program with
    | done value =>
      intro here hhere
      rw [Program.done_bind]
      exact hok value here hhere.1 hhere.2
    | raise error =>
      intro here hhere
      rw [Program.raise_bind]
      exact herror error here hhere.1 hhere.2
    | perform op next ih =>
      intro here hhere
      rw [Program.perform_bind]
      intro now hnow oracle
      obtain ⟨hG, hnext⟩ := hhere now hnow oracle
      exact ⟨hG, ih _ _ hnext⟩
  exact key program world (h.evolving hR)

/-- The rule of catching: an error is an outcome like any other. -/
theorem Safe.attempt (h : Safe sys G R i post program world) :
    Safe sys G R i (fun outcome now => ∃ result, outcome = .ok result ∧ post result now)
      program.attempt world := by
  induction program generalizing world with
  | done value =>
    rw [Program.attempt_done]
    exact ⟨_, rfl, h⟩
  | raise error =>
    rw [Program.attempt_raise]
    exact ⟨_, rfl, h⟩
  | perform op next ih =>
    rw [Program.attempt_perform]
    intro now hR oracle
    obtain ⟨hG, hnext⟩ := h now hR oracle
    exact ⟨hG, ih _ hnext⟩

/-- The rule of computed values. -/
theorem Safe.ofExcept (h : post outcome world) : Safe sys G R i post (.ofExcept outcome) world := by
  cases outcome <;> exact h

/-- The rule of a single operation, which never raises. -/
theorem Safe.requested (op : Op) {post : Except ε (Res op) → World Call Op Res ε β S → Prop}
    (h : ∀ now oracle, R world now → G i (.effect op (sys.exec oracle op now.state).2) now ∧
      post (.ok (sys.exec oracle op now.state).2)
        (now.log i (.effect op (sys.exec oracle op now.state).2)
          (sys.exec oracle op now.state).1)) : Safe sys G R i post (Program.request op) world :=
  fun now hnow oracle => h now oracle hnow

/-- The rule of a check that precedes the rest: an error of the check is an outcome. -/
theorem Safe.checked {post : Except ε γ → World Call Op Res ε β S → Prop}
    (hok : ∀ value, outcome = .ok value → Safe sys G R i post (rest value) world)
    (herror : ∀ error, outcome = .error error → post (.error error) world) :
    Safe sys G R i post ((Program.ofExcept outcome).bind rest) world := by
  cases outcome with
  | ok value =>
    rw [Program.ofExcept_ok, Program.done_bind]
    exact hok value rfl
  | error error =>
    rw [Program.ofExcept_error, Program.raise_bind]
    exact herror error rfl

/-! ### Programs whose errors owe nothing -/

/-- The postcondition that asks for `Q` of a value and nothing of an error. -/
def Returning (Q : α → World Call Op Res ε β S → Prop) :
    Except ε α → World Call Op Res ε β S → Prop :=
  fun outcome world => ∀ value, outcome = .ok value → Q value world

/-- What a program knows after one operation of its own: others moved, then the operation
happened and kept the guarantee. -/
def Performed (sys : System Call Op Res ε β S Ω) (G : Guarantee Call Op Res ε β S)
    (R : World Call Op Res ε β S → World Call Op Res ε β S → Prop) (i : Nat)
    (world : World Call Op Res ε β S) (op : Op) (answer : Res op)
    (now : World Call Op Res ε β S) : Prop :=
  ∃ before, R world before ∧ sys.Step i (.effect op answer) before now ∧
    G i (.effect op answer) before

/-- The rule of a single operation. -/
theorem Safe.request
    (h : ∀ now oracle, R world now → G i (.effect op (sys.exec oracle op now.state).2) now) :
    Safe sys G R i (Returning (Performed sys G R i world op)) (Program.request op) world := by
  refine Safe.requested op fun now oracle hnow => ⟨h now oracle hnow, ?_⟩
  rintro _ ⟨⟩
  exact ⟨now, hnow, step_effect i oracle op now, h now oracle hnow⟩

/-- The rule of a check that precedes the rest. -/
theorem Safe.check {Q : γ → World Call Op Res ε β S → Prop}
    (h : ∀ value, outcome = .ok value → Safe sys G R i (Returning Q) (rest value) world) :
    Safe sys G R i (Returning Q) ((Program.ofExcept outcome).bind rest) world :=
  Safe.checked h (by rintro _ _ _ ⟨⟩)

/-- The rule of sequence when errors owe nothing. -/
theorem Safe.andThen (hR : ∀ world now, R world now → Evolves sys G world now)
    {middle : α → World Call Op Res ε β S → Prop} {Q : γ → World Call Op Res ε β S → Prop}
    (h : Safe sys G R i (Returning middle) program world)
    (hrest : ∀ value now, Evolves sys G world now → middle value now →
      Safe sys G R i (Returning Q) (rest value) now) :
    Safe sys G R i (Returning Q) (program.bind rest) world :=
  h.bind hR (fun value now hevolves hmiddle => hrest value now hevolves (hmiddle value rfl))
    (by rintro _ _ _ _ _ ⟨⟩)

/-- A raised error owes nothing. -/
theorem Safe.raise {error : ε} : Safe sys G R i (Returning Q) (.raise error) world := by
  rintro _ ⟨⟩

/-- A returned value owes what is asked of it. -/
theorem Safe.done {value : α} (h : Q value world) :
    Safe sys G R i (Returning Q) (.done value) world := by
  rintro _ ⟨⟩
  exact h

/-- The rule of catching when errors owe nothing. -/
theorem Safe.caught (h : Safe sys G R i (Returning Q) program world) :
    Safe sys G R i (Returning fun outcome now => ∀ value, outcome = .ok value → Q value now)
      program.attempt world :=
  h.attempt.mono fun _ _ ⟨_, houtcome, hpost⟩ _ hvalue value hok =>
    hpost value (by rw [← hok]; exact Except.ok.inj (houtcome.symm.trans hvalue))

/-- A program whose values owe what later entitles it to respond. -/
theorem Safe.responds {Q : β → World Call Op Res ε β S → Prop} {program : Program Op Res ε β}
    (h : Safe sys G R i (Returning Q) program world)
    (hvalue : ∀ value now, Q value now → ∀ later, Rely sys G i now later →
      G i (.response (.ok value)) later) (herror : ∀ error now, G i (.response (.error error)) now) :
    Safe sys G R i (fun outcome now => ∀ later, Rely sys G i now later →
      G i (.response outcome) later) program world := by
  refine h.mono fun outcome now hpost later hlater => ?_
  cases outcome with
  | ok value => exact hvalue value now (hpost value rfl) later hlater
  | error error => exact herror error later

/-- An operation is what its call has done last. -/
theorem Performed.latest {world now : World Call Op Res ε β S} {answer : Res op}
    (h : Performed sys G R i world op answer now) :
    System.Latest i (.effect op answer) now.history := by
  obtain ⟨_, -, hstep, -⟩ := h
  exact hstep.latest

/-- A program of a call about whose events the guarantee says nothing is safe. -/
theorem Safe.unconstrained (hR : ∀ world now, R world now → Evolves sys G world now)
    (h : ∀ now, Evolves sys G world now → ∀ event, G i event now) :
    Safe sys G R i (fun _ now => Evolves sys G world now) program world := by
  have key : ∀ (program : Program Op Res ε α) (here : World Call Op Res ε β S),
      Evolves sys G world here → Safe sys G R i (fun _ now => Evolves sys G world now) program
        here := by
    intro program
    induction program with
    | done value => exact fun here hhere => hhere
    | raise error => exact fun here hhere => hhere
    | perform op next ih =>
      intro here hhere now hnow oracle
      have hbefore := hhere.trans (hR _ _ hnow)
      have hG := h now hbefore (.effect op (sys.exec oracle op now.state).2)
      exact ⟨hG, ih _ _ (hbefore.trans (Keeps.evolves ⟨_, step_effect i oracle op now, hG⟩))⟩
  exact key program world .refl

/-- The two sides of a parallel pair, each safe whatever all calls do, are safe together. Each
side's outcome satisfied its postcondition when that side came to its end. -/
theorem Safe.both (hR : ∀ world now, R world now → Evolves sys G world now)
    (hflip : ∀ answer world, G i (.effect flip answer) world)
    {postLeft : Except ε α → World Call Op Res ε β S → Prop}
    {postRight : Except ε γ → World Call Op Res ε β S → Prop} (left : Program Op Res ε α) :
    ∀ (right : Program Op Res ε γ) (worldLeft worldRight world : World Call Op Res ε β S),
      Evolves sys G worldLeft world → Evolves sys G worldRight world →
      Safe sys G (Evolves sys G) i postLeft left worldLeft →
      Safe sys G (Evolves sys G) i postRight right worldRight →
      Safe sys G R i (fun outcome now => ∀ pair, outcome = .ok pair →
          (∃ before, Evolves sys G before now ∧ postLeft (.ok pair.1) before) ∧
            ∃ before, Evolves sys G before now ∧ postRight (.ok pair.2) before)
        (Program.both flip leftFirst left right) world := by
  -- One side alone: it may go on while the other side's outcome stays as it is.
  have alone : ∀ {δ : Type} {post : Except ε δ → World Call Op Res ε β S → Prop}
      (program : Program Op Res ε δ) (here world : World Call Op Res ε β S),
      Evolves sys G here world → Safe sys G (Evolves sys G) i post program here →
      Safe sys G R i (fun outcome now => Evolves sys G world now ∧
        ∃ before, Evolves sys G before now ∧ post outcome before) program world := by
    intro δ post program
    induction program with
    | done value => exact fun here world hhere h => ⟨.refl, here, hhere, h⟩
    | raise error => exact fun here world hhere h => ⟨.refl, here, hhere, h⟩
    | perform op next ih =>
      intro here world hhere h now hnow oracle
      obtain ⟨hG, hnext⟩ := h now (hhere.trans (hR _ _ hnow)) oracle
      have hstep : Evolves sys G world (now.log i _ _) :=
        (hR _ _ hnow).trans (Keeps.evolves ⟨_, step_effect i oracle op now, hG⟩)
      exact ⟨hG, (ih _ _ _ .refl hnext).mono fun _ _ ⟨hevolves, hpost⟩ =>
        ⟨hstep.trans hevolves, hpost⟩⟩
  induction left with
  | done value =>
    intro right worldLeft worldRight world hleft hright hsafeLeft hsafeRight
    refine (alone right worldRight world hright hsafeRight).bind hR ?_ ?_
    · rintro other now - ⟨hworld, hother⟩ pair ⟨⟩
      exact ⟨⟨worldLeft, hleft.trans hworld, hsafeLeft⟩, hother⟩
    · rintro error now - - pair ⟨⟩
  | raise error =>
    intro right worldLeft worldRight world hleft hright hsafeLeft hsafeRight
    refine (alone right worldRight world hright hsafeRight).attempt.bind hR ?_ ?_
    · rintro outcome now - - pair ⟨⟩
    · rintro error now - - pair ⟨⟩
  | perform op next ihLeft =>
    intro right
    induction right with
    | done other =>
      intro worldLeft worldRight world hleft hright hsafeLeft hsafeRight now hnow oracle
      obtain ⟨hG, hnext⟩ := hsafeLeft now (hleft.trans (hR _ _ hnow)) oracle
      have hstep := Keeps.evolves ⟨_, step_effect i oracle op now, hG⟩
      exact ⟨hG, ihLeft _ _ _ worldRight _ .refl
        ((hright.trans (hR _ _ hnow)).trans hstep) hnext hsafeRight⟩
    | raise error =>
      intro worldLeft worldRight world hleft hright hsafeLeft hsafeRight now hnow oracle
      obtain ⟨hG, hnext⟩ := hsafeLeft now (hleft.trans (hR _ _ hnow)) oracle
      have hstep := Keeps.evolves ⟨_, step_effect i oracle op now, hG⟩
      exact ⟨hG, ihLeft _ _ _ worldRight _ .refl
        ((hright.trans (hR _ _ hnow)).trans hstep) hnext hsafeRight⟩
    | perform op' next' ihRight =>
      intro worldLeft worldRight world hleft hright hsafeLeft hsafeRight now hnow oracle
      have hflipped := (hR _ _ hnow).trans
        (Keeps.evolves ⟨_, step_effect i oracle flip now, hflip _ _⟩)
      refine ⟨hflip _ _, ?_⟩
      simp only
      split
      · intro now' hnow' oracle'
        have hhere := hflipped.trans (hR _ _ hnow')
        obtain ⟨hG, hnext⟩ := hsafeLeft now' (hleft.trans hhere) oracle'
        have hstep := Keeps.evolves ⟨_, step_effect i oracle' op now', hG⟩
        exact ⟨hG, ihLeft _ _ _ worldRight _ .refl
          ((hright.trans hhere).trans hstep) hnext hsafeRight⟩
      · intro now' hnow' oracle'
        have hhere := hflipped.trans (hR _ _ hnow')
        obtain ⟨hG, hnext⟩ := hsafeRight now' (hright.trans hhere) oracle'
        have hstep := Keeps.evolves ⟨_, step_effect i oracle' op' now', hG⟩
        exact ⟨hG, ihRight _ worldLeft _ _ ((hleft.trans hhere).trans hstep) .refl hsafeLeft hnext⟩

/-- The rule of a parallel pair when errors owe nothing. -/
theorem Safe.together (hflip : ∀ answer world, G i (.effect flip answer) world)
    {Q' : γ → World Call Op Res ε β S → Prop} {left : Program Op Res ε α}
    {right : Program Op Res ε γ} (hleft : Safe sys G (Evolves sys G) i (Returning Q) left world)
    (hright : Safe sys G (Evolves sys G) i (Returning Q') right world) :
    Safe sys G (Evolves sys G) i (Returning fun pair now =>
        (∃ before, Evolves sys G before now ∧ Q pair.1 before) ∧
          ∃ before, Evolves sys G before now ∧ Q' pair.2 before)
      (Program.both flip leftFirst left right) world := by
  refine (Safe.both (fun _ _ h => h) hflip left right world world world .refl .refl hleft
    hright).mono fun outcome now h pair hpair => ?_
  obtain ⟨⟨before, hbefore, hQ⟩, before', hbefore', hQ'⟩ := h pair hpair
  exact ⟨⟨before, hbefore, hQ pair.1 rfl⟩, before', hbefore', hQ' pair.2 rfl⟩

/-- Programs that are safe whatever all calls do are safe together. -/
theorem Safe.all (hflip : ∀ answer world, G i (.effect flip answer) world)
    {programs : List (Program Op Res ε α)} (h : ∀ program ∈ programs,
      Safe sys G (Evolves sys G) i (Returning fun _ _ => True) program world) :
    Safe sys G (Evolves sys G) i (Returning fun _ _ => True)
      (Program.all flip leftFirst programs) world := by
  induction programs with
  | nil => exact Safe.done trivial
  | cons program rest ih =>
    rw [List.forall_mem_cons] at h
    exact Safe.andThen (fun _ _ h => h) (Safe.together hflip h.1 (ih h.2))
      fun _ _ _ _ => Safe.done trivial

/-- A program adds to the history of its call only operations of its own: what holds of all
events of the call before it and of all operations outside a kind that it has none of holds of
all events of the call after it. -/
theorem Safe.own {kind : Op → Bool} {own : Event Call Op Res ε β → Prop}
    (hR : ∀ world now, R world now → ∀ event, (i, event) ∈ now.history →
      (i, event) ∈ world.history) (hkind : ∀ op answer, kind op = false → own (.effect op answer))
    (h : Safe sys G R i post program world) (hprogram : Program.AtMost kind 0 program)
    (hworld : ∀ event, (i, event) ∈ world.history → own event) :
    Safe sys G R i (fun outcome now => post outcome now ∧
      ∀ event, (i, event) ∈ now.history → own event) program world := by
  induction program generalizing world with
  | done value => exact ⟨h, hworld⟩
  | raise error => exact ⟨h, hworld⟩
  | perform op next ih =>
    intro now hnow oracle
    obtain ⟨hG, hnext⟩ := h now hnow oracle
    cases hop : kind op with
    | true => exact absurd ((Program.atMost_counted hop).1 hprogram).1 (Nat.lt_irrefl 0)
    | false =>
      refine ⟨hG, ih _ hnext ((Program.atMost_uncounted hop).1 hprogram _) ?_⟩
      intro event hevent
      rcases List.mem_cons.1 hevent with heq | hevent
      · rw [(Prod.mk.inj heq).2]
        exact hkind op _ hop
      · exact hworld event (hR world now hnow event hevent)

/-! ## Verified systems -/

/-- What a call owes when it comes to its end: the guarantee of its response. -/
def Responds (sys : System Call Op Res ε β S Ω) (G : Guarantee Call Op Res ε β S) (i : Nat)
    (outcome : Except ε β) (world : World Call Op Res ε β S) : Prop :=
  ∀ now, Rely sys G i world now → G i (.response outcome) now

/-- Every call keeps the guarantee when started where the invariant holds, and steps that keep
the guarantee preserve the invariant. -/
structure Verified (sys : System Call Op Res ε β S Ω) (G : Guarantee Call Op Res ε β S)
    (Inv : World Call Op Res ε β S → Prop) : Prop where
  inv : Persistent sys G Inv
  invoke : ∀ i call world, Inv world → G i (.invoke call) world
  main : ∀ i call world, Inv world → Calls i call world →
    (∀ event, (i, event) ∈ world.history → event = .invoke call) →
    Safe sys G (Rely sys G i) i (Responds sys G i) (sys.main call) world

/-- A configuration from which every call in progress is safe. -/
structure Ready (sys : System Call Op Res ε β S Ω) (G : Guarantee Call Op Res ε β S)
    (Inv : World Call Op Res ε β S → Prop) (config : Config Call Op Res ε β S) : Prop where
  consistent : sys.Consistent config
  inv : Inv config.toWorld
  safe : ∀ i call program, config.threads[i]? = some ⟨call, some program⟩ →
    ∃ world, Rely sys G i world config.toWorld ∧
      Safe sys G (Rely sys G i) i (Responds sys G i) program world

variable {Inv : World Call Op Res ε β S → Prop}

/-- Before any call is made there is nothing to be safe from. -/
theorem ready_initial {state : S}
    (hinit : Inv (Config.initial state : Config Call Op Res ε β S).toWorld) :
    Ready sys G Inv (Config.initial state) where
  consistent := System.consistent_initial state
  inv := hinit
  safe := by simp [Config.initial]

/-- The threads other than the one that moved keep their safety. -/
private theorem safe_of_set {after : World Call Op Res ε β S} {j : Nat}
    {thread : Thread Call Op Res ε β} (hkeeps : Keeps sys G j config.toWorld after)
    (hsafe : ∀ i call program, config.threads[i]? = some ⟨call, some program⟩ →
      ∃ world, Rely sys G i world config.toWorld ∧
        Safe sys G (Rely sys G i) i (Responds sys G i) program world)
    (hself : ∀ call program, thread = ⟨call, some program⟩ →
      ∃ world, Rely sys G j world after ∧
        Safe sys G (Rely sys G j) j (Responds sys G j) program world) :
    ∀ i call program, (config.threads.set j thread)[i]? = some ⟨call, some program⟩ →
      ∃ world, Rely sys G i world after ∧
        Safe sys G (Rely sys G i) i (Responds sys G i) program world := by
  intro i call program hi
  rw [List.getElem?_set] at hi
  split at hi
  · subst i
    split at hi
    · exact hself call program (Option.some.inj hi)
    · cases hi
  · rename_i hne
    obtain ⟨world, hrely, hworld⟩ := hsafe i call program hi
    exact ⟨world, hrely.tail ⟨j, hne, hkeeps⟩, hworld⟩

/-- One action of a ready configuration does nothing or is a step that keeps the guarantee, and
leads to a ready configuration. -/
theorem Ready.acts (hv : Verified sys G Inv) {config after : Config Call Op Res ε β S}
    (h : Ready sys G Inv config) (hacts : sys.Acts config after) :
    Ready sys G Inv after ∧ (after = config ∨
      ∃ i event, sys.Step i event config.toWorld after.toWorld ∧ G i event config.toWorld) := by
  have hconsistent := h.consistent.acts hacts
  cases hacts with
  | idle => exact ⟨h, .inl rfl⟩
  | invoke call =>
    have hfresh : ∀ event, (config.threads.length, event) ∉ config.history :=
      fun event hmem => Nat.lt_irrefl _ (h.consistent.numbered _ event hmem)
    have hG := hv.invoke config.threads.length call _ h.inv
    have hstep : sys.Step config.threads.length (.invoke call) config.toWorld _ :=
      step_invoke hfresh call
    have hinv := hv.inv _ _ _ _ hstep hG h.inv
    refine ⟨⟨hconsistent, hinv, ?_⟩, .inr ⟨_, _, hstep, hG⟩⟩
    intro i call' program hi
    rcases Nat.lt_trichotomy i config.threads.length with hlt | rfl | hgt
    · rw [List.getElem?_append_left hlt] at hi
      obtain ⟨world, hrely, hworld⟩ := h.safe i call' program hi
      exact ⟨world, hrely.tail ⟨_, by omega, _, hstep, hG⟩, hworld⟩
    · obtain ⟨rfl, rfl⟩ : call = call' ∧ sys.main call = program := by simpa using hi
      refine ⟨_, .refl _ _, hv.main _ call _ hinv ⟨by simp, ?_⟩ ?_⟩
      · intro other hother
        simpa [hfresh] using hother
      · intro event hevent
        simpa [hfresh] using hevent
    · rw [List.getElem?_append_right (by omega)] at hi
      simp [show i - config.threads.length ≠ 0 by omega] at hi
  | effect j call op next oracle hthread =>
    obtain ⟨world, hrely, hsafe⟩ := h.safe j call _ hthread
    obtain ⟨hG, hnext⟩ := hsafe _ hrely oracle
    have hstep : sys.Step j _ config.toWorld _ := step_effect j oracle op config.toWorld
    refine ⟨⟨hconsistent, hv.inv _ _ _ _ hstep hG h.inv, ?_⟩, .inr ⟨_, _, hstep, hG⟩⟩
    refine safe_of_set ⟨_, hstep, hG⟩ h.safe ?_
    rintro _ _ ⟨⟩
    exact ⟨_, .refl _ _, hnext⟩
  | response j call outcome hthread =>
    obtain ⟨_, hrely, hsafe⟩ := h.safe j call _ hthread
    have hG : G j (.response outcome) config.toWorld := by
      cases outcome <;> exact hsafe _ hrely
    have hstep : sys.Step j _ config.toWorld _ := step_response j outcome config.toWorld
    refine ⟨⟨hconsistent, hv.inv _ _ _ _ hstep hG h.inv, ?_⟩, .inr ⟨_, _, hstep, hG⟩⟩
    refine safe_of_set ⟨_, hstep, hG⟩ h.safe ?_
    rintro _ _ ⟨⟩

/-- Runs lead from ready configurations to ready configurations. -/
theorem Ready.run (hv : Verified sys G Inv) (h : Ready sys G Inv config)
    (actions : List (Action Call Ω)) : Ready sys G Inv (sys.run config actions) := by
  induction actions generalizing config with
  | nil => exact h
  | cons action actions ih => exact ih (h.acts hv (System.acts_act config action)).1

/-- The run rule: what every step that keeps the guarantee and meets the run's condition
preserves holds at the end of the run. -/
theorem Ready.preserves (hv : Verified sys G Inv) (h : Ready sys G Inv config)
    {actions : List (Action Call Ω)} {condition : Guarantee Call Op Res ε β S}
    (hmeets : sys.Meets condition config actions)
    (hP : ∀ i event world after, Inv world → sys.Accounted after →
      sys.Step i event world after → G i event world → condition i event world → P world →
      P after) (hstart : P config.toWorld) : P (sys.run config actions).toWorld := by
  induction actions generalizing config with
  | nil => exact hstart
  | cons action actions ih =>
    obtain ⟨hcondition, hmeets⟩ := hmeets
    obtain ⟨hready, hstep⟩ := h.acts hv (System.acts_act config action)
    refine ih hready hmeets ?_
    rcases hstep with heq | ⟨i, event, hstep, hG⟩
    · rw [heq]
      exact hstart
    · exact hP i event _ _ h.inv ⟨_, hready.consistent, rfl⟩ hstep hG
        (hcondition i event hstep.history) hstart

/-- The run rule without a condition. -/
theorem Ready.persists (hv : Verified sys G Inv) (h : Ready sys G Inv config)
    (actions : List (Action Call Ω)) (hP : ∀ i event world after, Inv world → sys.Accounted after →
      sys.Step i event world after → G i event world → P world → P after)
    (hstart : P config.toWorld) : P (sys.run config actions).toWorld :=
  h.preserves hv (System.meets_true config actions)
    (fun i event world after hinv haccounted hstep hG _ =>
      hP i event world after hinv haccounted hstep hG) hstart

/-- Every run of a verified system keeps the guarantee at each event. -/
theorem Ready.meets (hv : Verified sys G Inv) (h : Ready sys G Inv config)
    (actions : List (Action Call Ω)) : sys.Meets G config actions := by
  induction actions generalizing config with
  | nil => trivial
  | cons action actions ih =>
    obtain ⟨hready, hstep⟩ := h.acts hv (System.acts_act config action)
    refine ⟨fun i event hhistory => ?_, ih hready⟩
    rcases hstep with heq | ⟨j, _, hstep, hG⟩
    · rw [heq] at hhistory
      exact absurd hhistory (by simp)
    · obtain ⟨rfl, rfl⟩ := Prod.mk.inj (List.cons.inj (hhistory.symm.trans hstep.history)).1
      exact hG

/-- What the guarantee says of each event and its past holds throughout every run. -/
theorem Ready.throughout (hv : Verified sys G Inv) (h : Ready sys G Inv config)
    (actions : List (Action Call Ω)) {Q : Nat → Event Call Op Res ε β → List _ → Prop}
    (hQ : ∀ i event world, G i event world → Q i event world.history)
    (hstart : System.Throughout Q config.history) :
    System.Throughout Q (sys.run config actions).history :=
  h.persists hv actions (P := fun world => System.Throughout Q world.history)
    (fun _ _ _ _ _ _ hstep hG h => h.step hstep (hQ _ _ _ hG)) hstart

-- Clients reason by the rules above, never by unfolding the recursion.
attribute [irreducible] Safe

end Interleaving
