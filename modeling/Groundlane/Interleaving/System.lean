import Mathlib.Data.List.Induction
import Groundlane.Interleaving.Program

/-!
# Interleaved runs of calls

A `System` says which program each call runs and what each operation does to the shared
state. A `Config` is the shared world together with every call made so far, and a run is a
list of actions: make a call, or let one call take its next step. Nothing forces a call to
be advanced, so a run in which a process crashed between two operations is a run in which
that call is never advanced again.

The world keeps its history: every call, operation and response, newest first, with the
number of the call it belongs to. Whatever happened "at most once" or "afterwards" is said
about this history.
-/

namespace Interleaving

/-- What one call does at one moment: it is made, it performs an operation, or it responds. -/
inductive Event (Call Op : Type) (Res : Op → Type) (ε α : Type) : Type where
  | invoke (call : Call)
  | effect (op : Op) (answer : Res op)
  | response (outcome : Except ε α)

/-- The shared state and everything that happened so far, newest first. -/
structure World (Call Op : Type) (Res : Op → Type) (ε α S : Type) where
  state : S
  history : List (Nat × Event Call Op Res ε α)

/-- A call together with what is left of its program; `none` once it has responded. -/
structure Thread (Call Op : Type) (Res : Op → Type) (ε α : Type) where
  call : Call
  program : Option (Program Op Res ε α)

/-- The shared world and all calls made so far, numbered by their position. -/
structure Config (Call Op : Type) (Res : Op → Type) (ε α S : Type) extends
    World Call Op Res ε α S where
  threads : List (Thread Call Op Res ε α)

/-- The next move of a run: a new call, or one step of a call in progress. The oracle fixes
what the operation leaves open, such as the answer of an outside party. -/
inductive Action (Call Ω : Type) : Type where
  | invoke (call : Call)
  | advance (thread : Nat) (oracle : Ω)

/-- The program of each call and the effect of each operation on the shared state. -/
structure System (Call Op : Type) (Res : Op → Type) (ε α S Ω : Type) where
  main : Call → Program Op Res ε α
  exec : Ω → (op : Op) → S → S × Res op

variable {Call Op : Type} {Res : Op → Type} {ε α S Ω : Type}

/-- The world after call `i` did `event`, with the shared state it leaves. -/
def World.log (world : World Call Op Res ε α S) (i : Nat) (event : Event Call Op Res ε α)
    (state : S) : World Call Op Res ε α S :=
  ⟨state, (i, event) :: world.history⟩

@[simp] theorem World.log_state (world : World Call Op Res ε α S) (i : Nat)
    (event : Event Call Op Res ε α) (state : S) : (world.log i event state).state = state := rfl

@[simp] theorem World.log_history (world : World Call Op Res ε α S) (i : Nat)
    (event : Event Call Op Res ε α) (state : S) :
    (world.log i event state).history = (i, event) :: world.history := rfl

/-- A configuration in which no call has been made. -/
def Config.initial (state : S) : Config Call Op Res ε α S :=
  ⟨⟨state, []⟩, []⟩

/-- The effects of call `i` so far, oldest first. -/
def effectsOf (i : Nat) (history : List (Nat × Event Call Op Res ε α)) : List (Σ op, Res op) :=
  (history.filterMap fun
    | (j, .effect op answer) => if j = i then some ⟨op, answer⟩ else none
    | _ => none).reverse

namespace System

variable (sys : System Call Op Res ε α S Ω)

/-- One action. Advancing a call that is not there or has responded does nothing. -/
def act (config : Config Call Op Res ε α S) :
    Action Call Ω → Config Call Op Res ε α S
  | .invoke call =>
    { toWorld := config.toWorld.log config.threads.length (.invoke call) config.state
      threads := config.threads ++ [⟨call, some (sys.main call)⟩] }
  | .advance i oracle =>
    match config.threads[i]? with
    | some ⟨call, some (.perform op next)⟩ =>
      let (state, answer) := sys.exec oracle op config.state
      { toWorld := config.toWorld.log i (.effect op answer) state
        threads := config.threads.set i ⟨call, some (next answer)⟩ }
    | some ⟨call, some (.done value)⟩ =>
      { toWorld := config.toWorld.log i (.response (.ok value)) config.state
        threads := config.threads.set i ⟨call, none⟩ }
    | some ⟨call, some (.raise error)⟩ =>
      { toWorld := config.toWorld.log i (.response (.error error)) config.state
        threads := config.threads.set i ⟨call, none⟩ }
    | _ => config

/-- A run: the actions one after another. -/
def run (config : Config Call Op Res ε α S) (actions : List (Action Call Ω)) :
    Config Call Op Res ε α S :=
  actions.foldl sys.act config

@[simp] theorem run_nil (config : Config Call Op Res ε α S) : sys.run config [] = config := rfl

@[simp] theorem run_cons (config : Config Call Op Res ε α S) (action : Action Call Ω)
    (actions : List (Action Call Ω)) :
    sys.run config (action :: actions) = sys.run (sys.act config action) actions := rfl

theorem run_append (config : Config Call Op Res ε α S) (first second : List (Action Call Ω)) :
    sys.run config (first ++ second) = sys.run (sys.run config first) second :=
  List.foldl_append

/-- Call `i` can do `event` in `world` and leaves `after`. -/
structure Step (i : Nat) (event : Event Call Op Res ε α)
    (world after : World Call Op Res ε α S) : Prop where
  history : after.history = (i, event) :: world.history
  fresh : ∀ call, event = .invoke call → ∀ other, (i, other) ∉ world.history
  effect : ∀ op answer, event = .effect op answer →
    ∃ oracle, sys.exec oracle op world.state = (after.state, answer)
  still : (∀ op answer, event ≠ .effect op answer) → after.state = world.state

variable {sys} {history : List (Nat × Event Call Op Res ε α)}
  {world after : World Call Op Res ε α S} {i : Nat} {config : Config Call Op Res ε α S}
  {event : Event Call Op Res ε α}
  {first second : Nat → Event Call Op Res ε α → World Call Op Res ε α S → Prop} {call : Call}
  {actions : List (Action Call Ω)} {op : Op} {answer : Res op}
  {newer older : List (Nat × Event Call Op Res ε α)} {outcome : Except ε α}
  {test : Nat × Event Call Op Res ε α → Bool} {kind : Op → Bool}

/-- A step adds one event to the history. -/
theorem Step.mem_history (h : sys.Step i event world after) {entry : Nat × Event Call Op Res ε α} :
    entry ∈ after.history ↔ entry = (i, event) ∨ entry ∈ world.history := by
  rw [h.history, List.mem_cons]

/-- What was in the history stays there. -/
theorem Step.history_mono (h : sys.Step i event world after) {entry : Nat × Event Call Op Res ε α}
    (hentry : entry ∈ world.history) : entry ∈ after.history :=
  h.mem_history.2 (.inr hentry)

/-- A call that has done something is not made again. -/
theorem Step.mem_of_invoke {i j : Nat} {event mine : Event Call Op Res ε α}
    (h : sys.Step j event world after) (hmine : (i, mine) ∈ world.history)
    (hinvoke : (i, .invoke call) ∈ after.history) : (i, .invoke call) ∈ world.history := by
  rcases h.mem_history.1 hinvoke with heq | hinvoke
  · obtain ⟨rfl, rfl⟩ := Prod.mk.inj heq
    exact absurd hmine (h.fresh call rfl mine)
  · exact hinvoke

/-- Nothing that a call does comes before the call is made. -/
def InvokedFirst (history : List (Nat × Event Call Op Res ε α)) : Prop :=
  ∀ newer i call older, history = newer ++ (i, .invoke call) :: older →
    ∀ event, (i, event) ∉ older

theorem Step.invokedFirst (h : sys.Step i event world after) (hfirst : InvokedFirst world.history) :
    InvokedFirst after.history := by
  intro newer j call older heq
  rw [h.history] at heq
  cases newer with
  | nil =>
    obtain ⟨hentry, rfl⟩ := List.cons.inj heq
    obtain ⟨rfl, rfl⟩ := Prod.mk.inj hentry
    exact h.fresh call rfl
  | cons entry newer => exact hfirst newer j call older (List.cons.inj heq).2

/-- The state after an operation is the one the operation computes. -/
theorem Step.exec_eq (h : sys.Step i (.effect op answer) world after) :
    ∃ oracle, sys.exec oracle op world.state = (after.state, answer) :=
  h.effect op answer rfl

/-- Making a call leaves the state alone. -/
theorem Step.invoke_state (h : sys.Step i (.invoke call) world after) : after.state = world.state :=
  h.still (by simp)

/-- Responding leaves the state alone. -/
theorem Step.response_state (h : sys.Step i (.response outcome) world after) :
    after.state = world.state :=
  h.still (by simp)

/-- What call `i` has done last. -/
def Latest (i : Nat) (event : Event Call Op Res ε α)
    (history : List (Nat × Event Call Op Res ε α)) : Prop :=
  ∃ newer older, history = newer ++ (i, event) :: older ∧ ∀ other, (i, other) ∉ newer

theorem Latest.mem (h : Latest i event history) : (i, event) ∈ history := by
  obtain ⟨_, _, rfl, -⟩ := h
  simp

/-- What a call does is what it has done last. -/
theorem Step.latest (h : sys.Step i event world after) : Latest i event after.history :=
  ⟨[], world.history, h.history, by simp⟩

/-- The steps of other calls do not change what a call has done last. -/
theorem Step.latest_iff {i j : Nat} {event mine : Event Call Op Res ε α}
    (h : sys.Step j event world after) (hj : j ≠ i) :
    Latest i mine after.history ↔ Latest i mine world.history := by
  rw [h.history]
  constructor
  · rintro ⟨newer, older, heq, hnewer⟩
    cases newer with
    | nil => exact absurd (congrArg Prod.fst (List.cons.inj heq).1) hj
    | cons entry newer =>
      exact ⟨newer, older, (List.cons.inj heq).2, fun other hother =>
        hnewer other (List.mem_cons_of_mem _ hother)⟩
  · rintro ⟨newer, older, heq, hnewer⟩
    refine ⟨(j, event) :: newer, older, by rw [heq, List.cons_append], fun other hother => ?_⟩
    rcases List.mem_cons.1 hother with heq | hother
    · exact hj (Prod.mk.inj heq).1.symm
    · exact hnewer other hother

/-- After its own step a call has done last what that step was. -/
theorem Step.latest_eq {event mine : Event Call Op Res ε α} (h : sys.Step i event world after)
    (hlatest : Latest i mine after.history) : mine = event := by
  obtain ⟨newer, _, heq, hnewer⟩ := hlatest
  rw [h.history] at heq
  cases newer with
  | nil => exact (Prod.mk.inj (List.cons.inj heq).1).2.symm
  | cons entry newer =>
    have hentry := (List.cons.inj heq).1
    subst hentry
    exact absurd (List.mem_cons_self ..) (hnewer event)

/-! ## Every event and its past -/

/-- `P` holds of every event of the history and of what had happened before it. -/
def Throughout (P : Nat → Event Call Op Res ε α → List (Nat × Event Call Op Res ε α) → Prop) :
    List (Nat × Event Call Op Res ε α) → Prop
  | [] => True
  | (i, event) :: older => P i event older ∧ Throughout P older

variable {P : Nat → Event Call Op Res ε α → List (Nat × Event Call Op Res ε α) → Prop}

/-- What holds throughout a history holds throughout its past. -/
theorem Throughout.past (h : Throughout P (newer ++ older)) : Throughout P older := by
  induction newer with
  | nil => exact h
  | cons entry newer ih => exact ih h.2

theorem Throughout.entry (h : Throughout P (newer ++ (i, event) :: older)) : P i event older :=
  h.past.1

/-- A step has to account for its own event. -/
theorem Throughout.step (h : Throughout P world.history) (hstep : sys.Step i event world after)
    (hevent : P i event world.history) : Throughout P after.history := by
  rw [hstep.history]
  exact ⟨hevent, h⟩

/-! ## Threads and history agree -/

/-- The call numbered `i` was made as the history says, its effects are a path of its program,
and it has responded exactly if nothing is left of the program. -/
structure Tracks (sys : System Call Op Res ε α S Ω)
    (history : List (Nat × Event Call Op Res ε α)) (i : Nat)
    (thread : Thread Call Op Res ε α) : Prop where
  invoked : (i, .invoke thread.call) ∈ history
  called : ∀ call, (i, .invoke call) ∈ history → call = thread.call
  running : ∀ program, thread.program = some program →
    Program.Path (sys.main thread.call) (effectsOf i history) program ∧
      ∀ outcome, (i, .response outcome) ∉ history
  finished : thread.program = none → ∃ outcome, (i, .response outcome) ∈ history
  responded : ∀ outcome, (i, .response outcome) ∈ history →
    Program.Path (sys.main thread.call) (effectsOf i history) (Program.ofExcept outcome)

/-- Every call of the configuration is tracked by the history, and the history mentions no
other call. -/
structure Consistent (sys : System Call Op Res ε α S Ω) (config : Config Call Op Res ε α S) :
    Prop where
  tracks : ∀ i thread, config.threads[i]? = some thread →
    sys.Tracks config.history i thread
  numbered : ∀ i event, (i, event) ∈ config.history → i < config.threads.length

theorem consistent_initial (state : S) :
    sys.Consistent (Config.initial state : Config Call Op Res ε α S) where
  tracks := by simp [Config.initial]
  numbered := by simp [Config.initial]

theorem effectsOf_cons_other {i j : Nat} (hij : j ≠ i) (event : Event Call Op Res ε α)
    (history : List (Nat × Event Call Op Res ε α)) :
    effectsOf i ((j, event) :: history) = effectsOf i history := by
  cases event <;> simp [effectsOf, hij]

@[simp] theorem effectsOf_cons_effect (i : Nat) (op : Op) (answer : Res op)
    (history : List (Nat × Event Call Op Res ε α)) :
    effectsOf i ((i, .effect op answer) :: history) =
      effectsOf i history ++ [⟨op, answer⟩] := by
  simp [effectsOf]

@[simp] theorem effectsOf_cons_response (i : Nat) (outcome : Except ε α)
    (history : List (Nat × Event Call Op Res ε α)) :
    effectsOf i ((i, .response outcome) :: history) = effectsOf i history := by
  simp [effectsOf]

/-- The last effect of a call stands in the history behind the others. -/
theorem split_of_effectsOf {first : List (Σ op, Res op)}
    (h : effectsOf i history = first ++ [⟨op, answer⟩]) :
    ∃ newer older, history = newer ++ (i, .effect op answer) :: older ∧
      effectsOf i older = first := by
  induction history with
  | nil => simp [effectsOf] at h
  | cons entry history ih =>
    obtain ⟨j, event⟩ := entry
    have hlater (hsame : effectsOf i ((j, event) :: history) = effectsOf i history) :
        ∃ newer older, (j, event) :: history = newer ++ (i, .effect op answer) :: older ∧
          effectsOf i older = first := by
      obtain ⟨newer, older, rfl, holder⟩ := ih (hsame.symm.trans h)
      exact ⟨(j, event) :: newer, older, rfl, holder⟩
    by_cases hj : j = i
    · subst hj
      cases event with
      | invoke call => exact hlater (by simp [effectsOf])
      | response outcome => exact hlater (by simp)
      | effect op' answer' =>
        rw [effectsOf_cons_effect] at h
        obtain ⟨hfirst, hlast⟩ := List.append_inj' h rfl
        obtain ⟨rfl, hanswer⟩ := Sigma.mk.inj (List.singleton_inj.1 hlast)
        exact ⟨[], history, by rw [eq_of_heq hanswer, List.nil_append], hfirst⟩
    · exact hlater (effectsOf_cons_other hj event history)

/-- Every effect of a call stands in the history behind those before it. -/
theorem split_at_effect {first rest : List (Σ op, Res op)}
    (h : effectsOf i history = first ++ ⟨op, answer⟩ :: rest) :
    ∃ newer older, history = newer ++ (i, .effect op answer) :: older ∧
      effectsOf i older = first := by
  induction rest using List.reverseRecOn generalizing history with
  | nil => exact split_of_effectsOf h
  | append_singleton rest last ih =>
    obtain ⟨newer, _, rfl, holder⟩ := split_of_effectsOf (h.trans
      (List.append_assoc first (⟨op, answer⟩ :: rest) [last]).symm)
    obtain ⟨newer', older', rfl, holder'⟩ := ih holder
    exact ⟨newer ++ (i, .effect last.1 last.2) :: newer', older', by simp, holder'⟩

/-- The steps of another call do not touch what the history says about call `i`. -/
theorem Tracks.other {i j : Nat} {thread : Thread Call Op Res ε α} (h : sys.Tracks history i thread)
    (hij : j ≠ i) (event : Event Call Op Res ε α) :
    sys.Tracks ((j, event) :: history) i thread := by
  have hmem : ∀ e : Event Call Op Res ε α, (i, e) ∈ (j, event) :: history ↔ (i, e) ∈ history := by
    intro e
    simp [Ne.symm hij]
  have heffects := effectsOf_cons_other hij event history
  constructor
  · exact (hmem _).2 h.invoked
  · exact fun call hcall => h.called call ((hmem _).1 hcall)
  · intro program hprogram
    obtain ⟨hpath, hresponse⟩ := h.running program hprogram
    exact ⟨heffects ▸ hpath, fun outcome h => hresponse outcome ((hmem _).1 h)⟩
  · intro hnone
    obtain ⟨outcome, hmem'⟩ := h.finished hnone
    exact ⟨outcome, (hmem _).2 hmem'⟩
  · exact fun outcome houtcome => heffects ▸ h.responded outcome ((hmem _).1 houtcome)

/-- A new call is tracked from its invocation on. -/
theorem tracks_invoke (call : Call) (hfresh : ∀ event, (i, event) ∉ history) :
    sys.Tracks ((i, .invoke call) :: history) i ⟨call, some (sys.main call)⟩ := by
  have heffects : effectsOf i ((i, .invoke call) :: history) = ([] : List (Σ op, Res op)) := by
    simp only [effectsOf, List.filterMap_cons, List.reverse_eq_nil_iff, List.filterMap_eq_nil_iff]
    rintro ⟨j, event⟩ hmem
    cases event with
    | effect op answer =>
      have : j ≠ i := fun hji => hfresh _ (hji ▸ hmem)
      simp [this]
    | invoke call => rfl
    | response outcome => rfl
  constructor
  · simp
  · intro other hother
    simpa [hfresh] using hother
  · rintro program ⟨⟩
    exact ⟨heffects ▸ .here _, by simp [hfresh]⟩
  · simp
  · simp [hfresh]

/-- An operation moves the tracked program on. -/
theorem Tracks.perform {next : Res op → Program Op Res ε α}
    (h : sys.Tracks history i ⟨call, some (.perform op next)⟩) (answer : Res op) :
    sys.Tracks ((i, .effect op answer) :: history) i ⟨call, some (next answer)⟩ := by
  obtain ⟨hpath, hresponse⟩ := h.running _ rfl
  constructor
  · exact List.mem_cons_of_mem _ h.invoked
  · exact fun other hother => h.called other (by simpa using hother)
  · rintro program ⟨⟩
    exact ⟨by simpa using hpath.snoc answer, by simpa using hresponse⟩
  · simp
  · intro outcome houtcome
    exact absurd (by simpa using houtcome) (hresponse outcome)

/-- A call whose program has come to its end responds with the outcome. -/
theorem Tracks.respond (h : sys.Tracks history i ⟨call, some (.ofExcept outcome)⟩) :
    sys.Tracks ((i, .response outcome) :: history) i ⟨call, none⟩ := by
  obtain ⟨hpath, hresponse⟩ := h.running _ rfl
  constructor
  · exact List.mem_cons_of_mem _ h.invoked
  · exact fun other hother => h.called other (by simpa using hother)
  · simp
  · exact fun _ => ⟨outcome, by simp⟩
  · intro other hother
    have : other = outcome := by simpa [hresponse] using hother
    subst this
    simpa using hpath

/-! ## What an action can do -/

/-- The ways in which one action changes a configuration. -/
inductive Acts (sys : System Call Op Res ε α S Ω) (config : Config Call Op Res ε α S) :
    Config Call Op Res ε α S → Prop where
  | idle : Acts sys config config
  | invoke (call : Call) :
    Acts sys config
      { toWorld := config.toWorld.log config.threads.length (.invoke call) config.state
        threads := config.threads ++ [⟨call, some (sys.main call)⟩] }
  | effect (i : Nat) (call : Call) (op : Op) (next : Res op → Program Op Res ε α) (oracle : Ω) :
    config.threads[i]? = some ⟨call, some (.perform op next)⟩ →
    Acts sys config
      { toWorld := config.toWorld.log i (.effect op (sys.exec oracle op config.state).2)
          (sys.exec oracle op config.state).1
        threads := config.threads.set i
          ⟨call, some (next (sys.exec oracle op config.state).2)⟩ }
  | response (i : Nat) (call : Call) (outcome : Except ε α) :
    config.threads[i]? = some ⟨call, some (.ofExcept outcome)⟩ →
    Acts sys config
      { toWorld := config.toWorld.log i (.response outcome) config.state
        threads := config.threads.set i ⟨call, none⟩ }

/-- Every action is one of these. -/
theorem acts_act (config : Config Call Op Res ε α S) (action : Action Call Ω) :
    sys.Acts config (sys.act config action) := by
  cases action with
  | invoke call => exact .invoke call
  | advance i oracle =>
    rw [act]
    split
    · rename_i call op next hthread
      exact .effect i call op next oracle hthread
    · rename_i call value hthread
      exact .response i call (.ok value) hthread
    · rename_i call error hthread
      exact .response i call (.error error) hthread
    · exact .idle

/-- Threads and history still agree after an action. -/
theorem Consistent.acts {config after : Config Call Op Res ε α S} (h : sys.Consistent config)
    (hacts : sys.Acts config after) : sys.Consistent after := by
  have hnew : ∀ event, (config.threads.length, event) ∉ config.history :=
    fun event hmem => Nat.lt_irrefl _ (h.numbered _ event hmem)
  have hlt {i : Nat} {thread} (hthread : config.threads[i]? = some thread) :
      i < config.threads.length := (List.getElem?_eq_some_iff.1 hthread).1
  cases hacts with
  | idle => exact h
  | invoke call =>
    constructor
    · intro i thread hthread
      rcases Nat.lt_trichotomy i config.threads.length with hi | rfl | hi
      · rw [List.getElem?_append_left hi] at hthread
        exact (h.tracks i thread hthread).other (by omega) _
      · obtain rfl : thread = ⟨call, some (sys.main call)⟩ := by
          simpa using hthread.symm
        exact tracks_invoke call hnew
      · rw [List.getElem?_append_right (by omega)] at hthread
        simp [show i - config.threads.length ≠ 0 by omega] at hthread
    · intro i event hmem
      rcases List.mem_cons.1 hmem with heq | hmem
      · simp [(Prod.mk.inj heq).1]
      · have := h.numbered i event hmem
        simp
        omega
  | effect j call op next oracle hthread =>
    constructor
    · intro i thread hi
      rw [List.getElem?_set] at hi
      split at hi
      · subst i
        obtain rfl : _ = thread := by simpa [hlt hthread] using hi
        exact (h.tracks j _ hthread).perform _
      · exact (h.tracks i thread hi).other ‹_› _
    · intro i event hmem
      rcases List.mem_cons.1 hmem with heq | hmem
      · simpa [(Prod.mk.inj heq).1] using hlt hthread
      · simpa using h.numbered i event hmem
  | response j call outcome hthread =>
    constructor
    · intro i thread hi
      rw [List.getElem?_set] at hi
      split at hi
      · subst i
        obtain rfl : _ = thread := by simpa [hlt hthread] using hi
        exact (h.tracks j _ hthread).respond
      · exact (h.tracks i thread hi).other ‹_› _
    · intro i event hmem
      rcases List.mem_cons.1 hmem with heq | hmem
      · simpa [(Prod.mk.inj heq).1] using hlt hthread
      · simpa using h.numbered i event hmem

/-- Threads and history agree after every run. -/
theorem Consistent.run (h : sys.Consistent config) (actions : List (Action Call Ω)) :
    sys.Consistent (sys.run config actions) := by
  induction actions generalizing config with
  | nil => exact h
  | cons action actions ih => exact ih (h.acts (acts_act config action))

/-- The effects of each call in the world's history are a path of the program that it runs. -/
def Accounted (sys : System Call Op Res ε α S Ω) (world : World Call Op Res ε α S) : Prop :=
  ∃ config, sys.Consistent config ∧ config.toWorld = world

/-- What happened in a call is in its effects. -/
theorem mem_effectsOf :
    (⟨op, answer⟩ : Σ op, Res op) ∈ effectsOf i history ↔ (i, .effect op answer) ∈ history := by
  simp only [effectsOf, List.mem_reverse, List.mem_filterMap]
  constructor
  · rintro ⟨⟨j, event⟩, hmem, heffect⟩
    cases event with
    | effect op' answer' =>
      simp only [Option.ite_none_right_eq_some, Option.some.injEq] at heffect
      obtain ⟨rfl, heq⟩ := heffect
      cases heq
      exact hmem
    | invoke call => cases heffect
    | response outcome => cases heffect
  · intro hmem
    exact ⟨_, hmem, by simp⟩

/-- A number belongs to one call. -/
theorem Accounted.invoke_unique {world : World Call Op Res ε α S} (h : sys.Accounted world)
    {call call' : Call} (hcall : (i, .invoke call) ∈ world.history)
    (hcall' : (i, .invoke call') ∈ world.history) : call = call' := by
  obtain ⟨_, hconsistent, rfl⟩ := h
  have htracks := hconsistent.tracks i _
    (List.getElem?_eq_getElem (hconsistent.numbered i _ hcall))
  exact (htracks.called call hcall).trans (htracks.called call' hcall').symm

/-- The effects of a call that has responded are a path through its program to its outcome. -/
theorem Consistent.responded (h : sys.Consistent config)
    (hcall : (i, .invoke call) ∈ config.history)
    (hresponse : (i, .response outcome) ∈ config.history) :
    Program.Path (sys.main call) (effectsOf i config.history) (.ofExcept outcome) := by
  have htracks := h.tracks i _ (List.getElem?_eq_getElem (h.numbered i _ hcall))
  rw [htracks.called call hcall]
  exact htracks.responded outcome hresponse

/-- The effects of a call that has returned are a path through its program to its value. -/
theorem Consistent.returned (h : sys.Consistent config) {value : α}
    (hcall : (i, .invoke call) ∈ config.history)
    (hreturn : (i, .response (.ok value)) ∈ config.history) :
    Program.Path (sys.main call) (effectsOf i config.history) (.done value) :=
  h.responded hcall hreturn

/-- A call does not exceed the static bound of its program. -/
theorem Accounted.countP_le {world : World Call Op Res ε α S} (h : sys.Accounted world)
    {bound i : Nat} (hmain : ∀ call, (i, .invoke call) ∈ world.history →
      Program.AtMost kind bound (sys.main call)) :
    (effectsOf i world.history).countP (fun effect => kind effect.1) ≤ bound := by
  obtain ⟨config, hconsistent, rfl⟩ := h
  cases hthread : config.threads[i]? with
  | none =>
    have hnone : effectsOf i config.history = [] := by
      refine List.eq_nil_iff_forall_not_mem.2 ?_
      rintro ⟨op, answer⟩ hmem
      have hlt := hconsistent.numbered i _ (mem_effectsOf.1 hmem)
      have := List.getElem?_eq_none_iff.1 hthread
      omega
    simp [hnone]
  | some thread =>
    have htracks := hconsistent.tracks i thread hthread
    have hbound := hmain _ htracks.invoked
    cases hprogram : thread.program with
    | some program => exact hbound.countP_le (htracks.running program hprogram).1
    | none =>
      obtain ⟨outcome, houtcome⟩ := htracks.finished hprogram
      exact hbound.countP_le (htracks.responded outcome houtcome)

/-- Entries of the history that are operations of one kind of one call are counted by its
effects. -/
theorem countP_history_le (htest : ∀ entry ∈ history, test entry = true →
      ∃ op answer, entry = (i, .effect op answer) ∧ kind op = true) :
    history.countP test ≤ (effectsOf i history).countP fun effect => kind effect.1 := by
  induction history with
  | nil => simp
  | cons entry history ih =>
    have hrest := ih fun entry hentry => htest entry (List.mem_cons_of_mem _ hentry)
    cases hentry : test entry with
    | false =>
      rw [List.countP_cons_of_neg (by simp [hentry])]
      refine Nat.le_trans hrest ?_
      obtain ⟨j, event⟩ := entry
      by_cases hj : j = i
      · subst hj
        cases event with
        | effect op answer => simp [List.countP_append]
        | invoke call => simp [effectsOf]
        | response outcome => simp
      · exact Nat.le_of_eq (by rw [effectsOf_cons_other hj])
    | true =>
      obtain ⟨_, _, rfl, hkind⟩ := htest entry (List.mem_cons_self ..) hentry
      rw [List.countP_cons_of_pos hentry, effectsOf_cons_effect, List.countP_append]
      simpa [hkind] using hrest

/-- Two effects of a call whose kind may occur only once are the same. -/
theorem Accounted.once {world : World Call Op Res ε α S} (h : sys.Accounted world)
    (hmain : ∀ call, (i, .invoke call) ∈ world.history → Program.AtMost kind 1 (sys.main call))
    {op op' : Op} {answer : Res op} {answer' : Res op'} (hop : kind op = true)
    (hop' : kind op' = true) (hmem : (i, .effect op answer) ∈ world.history)
    (hmem' : (i, .effect op' answer') ∈ world.history) :
    (⟨op, answer⟩ : Σ op, Res op) = ⟨op', answer'⟩ := by
  have hcount := h.countP_le hmain
  rw [List.countP_eq_length_filter] at hcount
  have hleft : (⟨op, answer⟩ : Σ op, Res op) ∈
      (effectsOf i world.history).filter fun effect => kind effect.1 :=
    List.mem_filter.2 ⟨mem_effectsOf.2 hmem, hop⟩
  have hright : (⟨op', answer'⟩ : Σ op, Res op) ∈
      (effectsOf i world.history).filter fun effect => kind effect.1 :=
    List.mem_filter.2 ⟨mem_effectsOf.2 hmem', hop'⟩
  obtain ⟨_, honly⟩ := List.length_eq_one_iff.1
    (Nat.le_antisymm hcount (List.length_pos_of_mem hleft))
  rw [honly, List.mem_singleton] at hleft hright
  exact hleft.trans hright.symm

/-- Operations of a once-only kind that all belong to one call happen at most once. -/
theorem Accounted.countP_le_one {world : World Call Op Res ε α S} (h : sys.Accounted world)
    (kind : Op → Bool) (htest : ∀ i event, (i, event) ∈ world.history → test (i, event) = true →
      ∃ op answer, event = .effect op answer ∧ kind op = true ∧
        ∀ call, (i, .invoke call) ∈ world.history → Program.AtMost kind 1 (sys.main call))
    (hunique : ∀ i event j event', (i, event) ∈ world.history → test (i, event) = true →
      (j, event') ∈ world.history → test (j, event') = true → i = j) :
    world.history.countP test ≤ 1 := by
  by_cases hsome : ∃ entry ∈ world.history, test entry = true
  · obtain ⟨⟨i, event⟩, hmem, hentry⟩ := hsome
    obtain ⟨_, _, _, _, hmain⟩ := htest i event hmem hentry
    refine Nat.le_trans (countP_history_le fun entry hmem' hentry' => ?_) (h.countP_le hmain)
    obtain ⟨j, event'⟩ := entry
    obtain ⟨op, answer, rfl, hkind, -⟩ := htest j event' hmem' hentry'
    obtain rfl := hunique _ _ _ _ hmem hentry hmem' hentry'
    exact ⟨op, answer, rfl, hkind⟩
  · rw [List.countP_eq_zero.2 fun entry hmem hentry => hsome ⟨entry, hmem, hentry⟩]
    exact Nat.zero_le 1

/-- Every event of every action of the run meets `condition` in the world it happens in. -/
def Meets (sys : System Call Op Res ε α S Ω)
    (condition : Nat → Event Call Op Res ε α → World Call Op Res ε α S → Prop)
    (config : Config Call Op Res ε α S) : List (Action Call Ω) → Prop
  | [] => True
  | action :: actions =>
    (∀ i event, (sys.act config action).history = (i, event) :: config.history →
      condition i event config.toWorld) ∧
    Meets sys condition (sys.act config action) actions

/-- Every run meets a condition that always holds. -/
theorem meets_true (config : Config Call Op Res ε α S) (actions : List (Action Call Ω)) :
    sys.Meets (fun _ _ _ => True) config actions := by
  induction actions generalizing config with
  | nil => trivial
  | cons action actions ih => exact ⟨fun _ _ _ => trivial, ih _⟩

/-- A run that meets a condition meets every weaker one. -/
theorem Meets.mono (hsub : ∀ i event world, first i event world → second i event world)
    (h : sys.Meets first config actions) : sys.Meets second config actions := by
  induction actions generalizing config with
  | nil => trivial
  | cons action actions ih =>
    exact ⟨fun i event hevent => hsub i event _ (h.1 i event hevent), ih h.2⟩

/-- A run that meets two conditions meets both at once. -/
theorem Meets.and (h : sys.Meets first config actions) (h' : sys.Meets second config actions) :
    sys.Meets (fun i event world => first i event world ∧ second i event world) config
      actions := by
  induction actions generalizing config with
  | nil => trivial
  | cons action actions ih =>
    exact ⟨fun i event hevent => ⟨h.1 i event hevent, h'.1 i event hevent⟩, ih h.2 h'.2⟩

/-- A run meets a condition if both of its parts do. -/
theorem meets_append {condition : Nat → Event Call Op Res ε α → World Call Op Res ε α S → Prop}
    {first second : List (Action Call Ω)} : sys.Meets condition config (first ++ second) ↔
      sys.Meets condition config first ∧
        sys.Meets condition (sys.run config first) second := by
  induction first generalizing config with
  | nil => simp [Meets]
  | cons action first ih => simp only [List.cons_append, Meets, ih, run_cons, and_assoc]

/-- Run the actions and test each event in the world it happens in. -/
def checks (sys : System Call Op Res ε α S Ω)
    (condition : Nat → Event Call Op Res ε α → World Call Op Res ε α S → Bool)
    (config : Config Call Op Res ε α S) : List (Action Call Ω) → Bool
  | [] => true
  | action :: actions =>
    ((sys.act config action).history.head?.all fun entry =>
      condition entry.1 entry.2 config.toWorld) &&
    checks sys condition (sys.act config action) actions

/-- A run that passes the tests meets the condition. -/
theorem meets_of_checks {condition : Nat → Event Call Op Res ε α → World Call Op Res ε α S → Bool}
    (h : sys.checks condition config actions = true) :
    sys.Meets (fun i event world => condition i event world = true) config actions := by
  induction actions generalizing config with
  | nil => trivial
  | cons action actions ih =>
    rw [checks, Bool.and_eq_true] at h
    refine ⟨fun i event hhistory => ?_, ih h.2⟩
    simpa [hhistory] using h.1

/-- Whether call `i` is `call`. -/
def called [DecidableEq Call] (i : Nat) (call : Call)
    (history : List (Nat × Event Call Op Res ε α)) : Bool :=
  history.any fun
    | (j, .invoke other) => j == i && decide (other = call)
    | _ => false

/-- Whether call `i` has returned `value`. -/
def returned [DecidableEq α] (i : Nat) (value : α)
    (history : List (Nat × Event Call Op Res ε α)) : Bool :=
  history.any fun
    | (j, .response (.ok other)) => j == i && decide (other = value)
    | _ => false

theorem mem_of_called [DecidableEq Call] (h : called i call history = true) :
    (i, .invoke call) ∈ history := by
  obtain ⟨⟨j, event⟩, hmem, htest⟩ := List.any_eq_true.1 h
  cases event with
  | invoke other =>
    obtain ⟨rfl, rfl⟩ : j = i ∧ other = call := by simpa using htest
    exact hmem
  | effect op answer => cases htest
  | response outcome => cases htest

theorem mem_of_returned [DecidableEq α] {value : α} (h : returned i value history = true) :
    (i, .response (.ok value)) ∈ history := by
  obtain ⟨⟨j, event⟩, hmem, htest⟩ := List.any_eq_true.1 h
  cases event with
  | invoke other => cases htest
  | effect op answer => cases htest
  | response outcome =>
    cases outcome with
    | ok other =>
      obtain ⟨rfl, rfl⟩ : j = i ∧ other = value := by simpa using htest
      exact hmem
    | error error => cases htest

end System

end Interleaving
