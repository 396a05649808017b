import Groundlane.Interleaving.RelyGuarantee

/-!
# A bounded number of programs at a time

A crew is a fixed number of programs in progress; it runs until one of them comes to its end and
hands over the outcome together with the rest of the crew. `serve` works off a queue of tasks
with a crew: whoever has finished a task takes the next one of the queue, and whoever has raised
an error leaves. The operations of the programs interleave in any order. `Safe.serve` is the
rule for this: if every task is safe whatever all calls do, then so is the crew.
-/

namespace Interleaving

namespace Program

variable {Op : Type} {Res : Op → Type} {ε α β γ τ : Type}

section Race

variable (flip : Op) (leftFirst : Res flip → Bool) (onLeft : α → Program Op Res ε β → Program Op Res ε γ)
  (onRight : β → Program Op Res ε α → Program Op Res ε γ)

/-- The left program of a race, `whole`, is about to perform `op`; the right one is given. -/
def raceRight (whole : Program Op Res ε α) (op : Op)
    (left : Res op → Program Op Res ε β → Program Op Res ε γ) :
    Program Op Res ε β → Program Op Res ε γ
  | done value => onRight value whole
  | raise error => raise error
  | perform op' next => perform flip fun choice =>
    if leftFirst choice then perform op fun answer => left answer (perform op' next)
    else perform op' fun answer => raceRight whole op left (next answer)

/-- Both programs, their operations interleaved in any order, until one of them comes to its
end; then the continuation of that side, with what is left of the other one. -/
def race : Program Op Res ε α → Program Op Res ε β → Program Op Res ε γ
  | done value => fun right => onLeft value right
  | raise error => fun _ => raise error
  | perform op next => raceRight flip leftFirst onRight (perform op next) op fun answer =>
    race (next answer)

end Race

/-- `n` programs in progress. -/
def Crew (Op : Type) (Res : Op → Type) (ε α : Type) : Nat → Type
  | 0 => Unit
  | n + 1 => Program Op Res ε (Except ε α × Crew Op Res ε α n)

variable (flip : Op) (leftFirst : Res flip → Bool)

/-- The crew with one more member. -/
def Crew.add : (n : Nat) → Program Op Res ε (Except ε α) → Crew Op Res ε α n →
    Crew Op Res ε α (n + 1)
  | 0, member, _ => member.bind fun outcome => done (outcome, ())
  | n + 1, member, crew => race flip leftFirst (fun outcome rest => done (outcome, rest))
    (fun first member => done (first.1, Crew.add n member first.2)) member crew

/-- Every member comes to its end. -/
def Crew.finish : (n : Nat) → Crew Op Res ε α n → Program Op Res ε (List (Except ε α))
  | 0, _ => done []
  | n + 1, crew => bind (α := Except ε α × Crew Op Res ε α n) crew fun first =>
    (Crew.finish n first.2).bind fun outcomes => done (first.1 :: outcomes)

/-- The first member who comes to its end without an error takes the task. -/
def Crew.handOver (task : Program Op Res ε α)
    (next : (n : Nat) → Crew Op Res ε α n → Program Op Res ε (List (Except ε α))) :
    (n : Nat) → Crew Op Res ε α n → Program Op Res ε (List (Except ε α))
  | 0, _ => done []
  | n + 1, crew => bind (α := Except ε α × Crew Op Res ε α n) crew fun first =>
    (match first.1 with
      | .ok _ => next (n + 1) (Crew.add flip leftFirst n task.attempt first.2)
      | .error _ => Crew.handOver task next n first.2).bind
        fun outcomes => done (first.1 :: outcomes)

/-- A crew works off a queue. -/
def Crew.workOff (body : τ → Program Op Res ε α) : List τ → (n : Nat) → Crew Op Res ε α n →
    Program Op Res ε (List (Except ε α))
  | [] => Crew.finish
  | task :: queue => Crew.handOver flip leftFirst (body task) (Crew.workOff body queue)

/-- Take on up to `count` more members, each with a task from the queue, and work it off. -/
def Crew.start (body : τ → Program Op Res ε α) : Nat → List τ → (n : Nat) → Crew Op Res ε α n →
    Program Op Res ε (List (Except ε α))
  | count + 1, task :: queue => fun n crew =>
    Crew.start body count queue (n + 1) (Crew.add flip leftFirst n (body task).attempt crew)
  | _, queue => Crew.workOff flip leftFirst body queue

/-- Work off a queue with a crew of `count`; the result has one outcome for each task that was
begun, in the order in which they came to their ends. -/
def serve (body : τ → Program Op Res ε α) (count : Nat) (queue : List τ) :
    Program Op Res ε (List (Except ε α)) :=
  Crew.start flip leftFirst body count queue 0 ()

end Program

/-! ## Safety -/

section Safety

variable {Call Op : Type} {Res : Op → Type} {ε α β γ τ S Ω δ : Type}
  {sys : System Call Op Res ε δ S Ω} {G : Guarantee Call Op Res ε δ S} {i : Nat}

attribute [local semireducible] Safe

/-- What holds of the value of a program for good still does when the program starts later. -/
theorem Safe.after {Q : α → World Call Op Res ε δ S → Prop}
    (hQ : ∀ value world now, Evolves sys G world now → Q value world → Q value now)
    {program : Program Op Res ε α} {world now : World Call Op Res ε δ S}
    (h : Safe sys G (Evolves sys G) i (Returning Q) program world)
    (hnow : Evolves sys G world now) :
    Safe sys G (Evolves sys G) i (Returning Q) program now := by
  cases program with
  | done value => exact fun result hresult => hQ result world now hnow (h result hresult)
  | raise error => exact Safe.raise
  | perform op next => exact Safe.later (fun _ _ _ => Evolves.trans) h hnow

/-- The rule of a race: both continuations are safe when what is left of the other side is. -/
theorem Safe.race {flip : Op} {leftFirst : Res flip → Bool}
    {onLeft : α → Program Op Res ε β → Program Op Res ε γ}
    {onRight : β → Program Op Res ε α → Program Op Res ε γ}
    (hflip : ∀ answer world, G i (.effect flip answer) world)
    {QLeft : α → World Call Op Res ε δ S → Prop} {QRight : β → World Call Op Res ε δ S → Prop}
    {Q : γ → World Call Op Res ε δ S → Prop}
    (hQLeft : ∀ value world now, Evolves sys G world now → QLeft value world → QLeft value now)
    (hQRight : ∀ value world now, Evolves sys G world now → QRight value world →
      QRight value now)
    (hLeft : ∀ value right now, QLeft value now →
      Safe sys G (Evolves sys G) i (Returning QRight) right now →
      Safe sys G (Evolves sys G) i (Returning Q) (onLeft value right) now)
    (hRight : ∀ value left now, QRight value now →
      Safe sys G (Evolves sys G) i (Returning QLeft) left now →
      Safe sys G (Evolves sys G) i (Returning Q) (onRight value left) now)
    (left : Program Op Res ε α) :
    ∀ (right : Program Op Res ε β) (world : World Call Op Res ε δ S),
      Safe sys G (Evolves sys G) i (Returning QLeft) left world →
      Safe sys G (Evolves sys G) i (Returning QRight) right world →
      Safe sys G (Evolves sys G) i (Returning Q)
        (Program.race flip leftFirst onLeft onRight left right) world := by
  induction left with
  | done value => exact fun right world hleft hright => hLeft value right world (hleft _ rfl) hright
  | raise error => exact fun right world _ _ => Safe.raise
  | perform op next ihLeft =>
    intro right
    induction right with
    | done value => exact fun world hleft hright => hRight value _ world (hright _ rfl) hleft
    | raise error => exact fun world _ _ => Safe.raise
    | perform op' next' ihRight =>
      intro world hleft hright now hnow oracle
      have hflipped : Evolves sys G world _ :=
        hnow.trans (Keeps.evolves ⟨_, step_effect i oracle flip now, hflip _ _⟩)
      refine ⟨hflip _ _, ?_⟩
      simp only
      split
      · intro now' hnow' oracle'
        obtain ⟨hG, hnext⟩ := hleft now' (hflipped.trans hnow') oracle'
        have hstep := Keeps.evolves ⟨_, step_effect i oracle' op now', hG⟩
        exact ⟨hG, ihLeft _ _ _ hnext (hright.after hQRight ((hflipped.trans hnow').trans hstep))⟩
      · intro now' hnow' oracle'
        obtain ⟨hG, hnext⟩ := hright now' (hflipped.trans hnow') oracle'
        have hstep := Keeps.evolves ⟨_, step_effect i oracle' op' now', hG⟩
        exact ⟨hG, ihRight _ _ (hleft.after hQLeft ((hflipped.trans hnow').trans hstep)) hnext⟩

open Program

/-- All members of the crew are safe, whatever all calls do. -/
def CrewSafe (sys : System Call Op Res ε δ S Ω) (G : Guarantee Call Op Res ε δ S) (i : Nat) :
    (n : Nat) → Crew Op Res ε α n → World Call Op Res ε δ S → Prop
  | 0, _, _ => True
  | n + 1, crew, world => Safe sys G (Evolves sys G) i
    (α := Except ε α × Crew Op Res ε α n)
    (Returning fun first now => CrewSafe sys G i n first.2 now) crew world

theorem CrewSafe.after {n : Nat} {crew : Crew Op Res ε α n} {world now : World Call Op Res ε δ S}
    (h : CrewSafe sys G i n crew world) (hnow : Evolves sys G world now) :
    CrewSafe sys G i n crew now := by
  induction n generalizing world now with
  | zero => trivial
  | succ n ih =>
    exact Safe.after (α := Except ε α × Crew Op Res ε α n)
      (Q := fun first now => CrewSafe sys G i n first.2 now)
      (fun first _ _ hevolves hfirst => ih hfirst hevolves) h hnow

theorem CrewSafe.add {flip : Op} {leftFirst : Res flip → Bool}
    (hflip : ∀ answer world, G i (.effect flip answer) world) {n : Nat}
    {crew : Crew Op Res ε α n} {member : Program Op Res ε (Except ε α)}
    {world : World Call Op Res ε δ S} (h : CrewSafe sys G i n crew world)
    (hmember : Safe sys G (Evolves sys G) i (Returning fun _ _ => True) member world) :
    CrewSafe sys G i (n + 1) (Crew.add flip leftFirst n member crew) world := by
  induction n generalizing member world with
  | zero => exact Safe.andThen (fun _ _ h => h) hmember fun _ _ _ _ => Safe.done trivial
  | succ n ih =>
    refine Safe.race hflip (fun _ _ _ _ _ => trivial) (fun _ _ _ hevolves h => h.after hevolves)
      ?_ ?_ member crew world hmember h
    · exact fun outcome rest now _ hrest => Safe.done hrest
    · exact fun first member now hfirst hmember => Safe.done (ih hfirst hmember)

theorem CrewSafe.finish {n : Nat} {crew : Crew Op Res ε α n} {world : World Call Op Res ε δ S}
    (h : CrewSafe sys G i n crew world) :
    Safe sys G (Evolves sys G) i (Returning fun _ _ => True) (Crew.finish n crew) world := by
  induction n generalizing world with
  | zero => exact Safe.done trivial
  | succ n ih =>
    exact Safe.andThen (fun _ _ h => h) h fun first now _ hfirst =>
      Safe.andThen (fun _ _ h => h) (ih hfirst) fun _ _ _ _ => Safe.done trivial

/-- Crews are safe with what they do next. -/
def Serves (sys : System Call Op Res ε δ S Ω) (G : Guarantee Call Op Res ε δ S) (i : Nat)
    (next : (n : Nat) → Crew Op Res ε α n → Program Op Res ε (List (Except ε α)))
    (world : World Call Op Res ε δ S) : Prop :=
  ∀ now, Evolves sys G world now → ∀ n crew, CrewSafe sys G i n crew now →
    Safe sys G (Evolves sys G) i (Returning fun _ _ => True) (next n crew) now

theorem Serves.handOver {flip : Op} {leftFirst : Res flip → Bool}
    (hflip : ∀ answer world, G i (.effect flip answer) world) {task : Program Op Res ε α}
    {next : (n : Nat) → Crew Op Res ε α n → Program Op Res ε (List (Except ε α))}
    {world : World Call Op Res ε δ S} (h : Serves sys G i next world)
    (htask : ∀ now, Evolves sys G world now →
      Safe sys G (Evolves sys G) i (Returning fun _ _ => True) task now) :
    Serves sys G i (Crew.handOver flip leftFirst task next) world := by
  intro now hnow n
  induction n generalizing now with
  | zero => exact fun _ _ => Safe.done trivial
  | succ n ih =>
    intro crew hcrew
    refine Safe.andThen (fun _ _ h => h) hcrew fun first later hlater hfirst => ?_
    have hhere := hnow.trans hlater
    have hgoOn : Safe sys G (Evolves sys G) i (Returning fun _ _ => True)
        (match first.1 with
          | .ok _ => next (n + 1) (Crew.add flip leftFirst n task.attempt first.2)
          | .error _ => Crew.handOver flip leftFirst task next n first.2) later := by
      split
      · exact h later hhere _ _ (hfirst.add hflip
          ((htask later hhere).caught.mono fun _ _ _ _ _ => trivial))
      · exact ih later hhere _ hfirst
    exact Safe.andThen (fun _ _ h => h) hgoOn fun _ _ _ _ => Safe.done trivial

theorem Serves.workOff {flip : Op} {leftFirst : Res flip → Bool}
    (hflip : ∀ answer world, G i (.effect flip answer) world) {body : τ → Program Op Res ε α}
    {queue : List τ} {world : World Call Op Res ε δ S}
    (h : ∀ task ∈ queue, ∀ now, Evolves sys G world now →
      Safe sys G (Evolves sys G) i (Returning fun _ _ => True) (body task) now) :
    Serves sys G i (Crew.workOff flip leftFirst body queue) world := by
  induction queue with
  | nil => exact fun now _ n crew hcrew => hcrew.finish
  | cons task queue ih =>
    rw [List.forall_mem_cons] at h
    exact (ih h.2).handOver hflip h.1

theorem Serves.start {flip : Op} {leftFirst : Res flip → Bool}
    (hflip : ∀ answer world, G i (.effect flip answer) world) {body : τ → Program Op Res ε α}
    {count : Nat} {queue : List τ} {world : World Call Op Res ε δ S}
    (h : ∀ task ∈ queue, ∀ now, Evolves sys G world now →
      Safe sys G (Evolves sys G) i (Returning fun _ _ => True) (body task) now) :
    Serves sys G i (Crew.start flip leftFirst body count queue) world := by
  induction count generalizing queue with
  | zero => cases queue <;> exact Serves.workOff hflip h
  | succ count ih =>
    cases queue with
    | nil => exact Serves.workOff hflip h
    | cons task queue =>
      rw [List.forall_mem_cons] at h
      intro now hnow n crew hcrew
      exact ih h.2 now hnow _ _ (hcrew.add hflip
        ((h.1 now hnow).caught.mono fun _ _ _ _ _ => trivial))

/-- The rule of a crew: it is safe if every task of the queue is, whatever all calls do. -/
theorem Safe.serve {flip : Op} {leftFirst : Res flip → Bool}
    (hflip : ∀ answer world, G i (.effect flip answer) world) {body : τ → Program Op Res ε α}
    {count : Nat} {queue : List τ} {world : World Call Op Res ε δ S}
    (h : ∀ task ∈ queue, ∀ now, Evolves sys G world now →
      Safe sys G (Evolves sys G) i (Returning fun _ _ => True) (body task) now) :
    Safe sys G (Evolves sys G) i (Returning fun _ _ => True)
      (Program.serve flip leftFirst body count queue) world :=
  Serves.start hflip h world .refl 0 () trivial

end Safety

end Interleaving
