import Mathlib.Data.List.Nodup
import Mathlib.Tactic.Common

/-!
# Runs of a sequential component

A component that takes one call after another, each of which changes its state. `Each` says that
every step of a run satisfies a condition; `Each.keeps` and `Each.gives` are the rules by which an
invariant is carried along such a run, and `run_iff_each` is the rule for a condition that is exact.
`nodup_collect` is the rule for what is handed out at most once.
-/

namespace Sequential

variable {S C R : Type} (step : S → C → S)

/-- The state after some calls. -/
def run (state : S) (calls : List C) : S := calls.foldl step state

/-- Every step of the run satisfies the condition, on the state before it and its call. -/
def Each (P : S → C → Prop) : S → List C → Prop
  | _, [] => True
  | state, call :: calls => P state call ∧ Each P (step state call) calls

/-- What the steps of a run hand out, in order. -/
def collect (out : S → C → List R) : S → List C → List R
  | _, [] => []
  | state, call :: calls => out state call ++ collect out (step state call) calls

instance Each.decidable (P : S → C → Prop) [∀ state call, Decidable (P state call)] :
    ∀ (state : S) (calls : List C), Decidable (Each step P state calls)
  | _, [] => isTrue trivial
  | state, call :: calls =>
    have := Each.decidable P (step state call) calls
    inferInstanceAs (Decidable (P state call ∧ Each step P (step state call) calls))

variable {step} {P Q : S → C → Prop} {Inv : S → Prop} {state : S} {first second calls : List C}

@[simp] theorem run_nil : run step state [] = state := rfl

@[simp] theorem run_cons (call : C) :
    run step state (call :: calls) = run step (step state call) calls := rfl

theorem run_append : run step state (first ++ second) = run step (run step state first) second :=
  List.foldl_append

variable (Inv) in
/-- An invariant that every call keeps holds after the run. -/
theorem run_keeps (hstep : ∀ state call, Inv state → Inv (step state call)) (hinv : Inv state) :
    Inv (run step state calls) := by
  induction calls generalizing state with
  | nil => exact hinv
  | cons call calls ih => exact ih (hstep state call hinv)

theorem Each.append (h : Each step P state (first ++ second)) :
    Each step P state first ∧ Each step P (run step state first) second := by
  induction first generalizing state with
  | nil => exact ⟨trivial, h⟩
  | cons call first ih =>
    obtain ⟨hcall, hrest⟩ := h
    obtain ⟨hfirst, hsecond⟩ := ih hrest
    exact ⟨⟨hcall, hfirst⟩, hsecond⟩

/-- An invariant that every step keeps holds after the run. -/
theorem Each.keeps (hstep : ∀ state call, Inv state → P state call → Inv (step state call))
    (h : Each step P state calls) (hinv : Inv state) : Inv (run step state calls) := by
  induction calls generalizing state with
  | nil => exact hinv
  | cons call calls ih => exact ih h.2 (hstep state call hinv h.1)

/-- What an invariant and the condition give for one step holds of every step. -/
theorem Each.gives (hstep : ∀ state call, Inv state → P state call → Inv (step state call))
    (hgives : ∀ state call, Inv state → P state call → Q state call)
    (h : Each step P state calls) (hinv : Inv state) : Each step Q state calls := by
  induction calls generalizing state with
  | nil => trivial
  | cons call calls ih => exact ⟨hgives state call hinv h.1, ih h.2 (hstep state call hinv h.1)⟩

/-- A condition on every call, at the state that the calls before it leave. -/
theorem Each.of_splits
    (h : ∀ before call later, calls = before ++ call :: later → P (run step state before) call) :
    Each step P state calls := by
  induction calls generalizing state with
  | nil => trivial
  | cons call calls ih =>
    refine ⟨h [] call calls rfl, ih fun before other later heq => ?_⟩
    exact h (call :: before) other later (congrArg (call :: ·) heq)

theorem Each.imp (himp : ∀ state call, P state call → Q state call)
    (h : Each step P state calls) : Each step Q state calls := by
  induction calls generalizing state with
  | nil => trivial
  | cons call calls ih => exact ⟨himp state call h.1, ih h.2⟩

/-- A property that a step keeps exactly when it satisfies the condition holds after the run exactly
when it holds before and every step satisfies the condition. -/
theorem run_iff_each (Good : S → Prop)
    (hstep : ∀ state call, Inv state → Inv (step state call))
    (hgood : ∀ state call, Inv state → (Good (step state call) ↔ Good state ∧ P state call))
    (hinv : Inv state) :
    Good (run step state calls) ↔ Good state ∧ Each step P state calls := by
  induction calls generalizing state with
  | nil => exact (and_iff_left trivial).symm
  | cons call calls ih =>
    have hrest := ih (hstep state call hinv)
    rw [run_cons, hrest, hgood state call hinv]
    exact and_assoc

/-- What is spent by the step that hands it out, and stays spent, is handed out at most once. -/
theorem nodup_collect {out : S → C → List R} (Inv : S → Prop) (Spent : S → R → Prop)
    (hstep : ∀ state call, Inv state → P state call → Inv (step state call))
    (hstays : ∀ state call r, Inv state → P state call → Spent state r →
      Spent (step state call) r)
    (hnodup : ∀ state call, Inv state → P state call → (out state call).Nodup)
    (hspent : ∀ state call r, Inv state → P state call → r ∈ out state call →
      ¬ Spent state r ∧ Spent (step state call) r)
    (h : Each step P state calls) (hinv : Inv state) :
    (collect step out state calls).Nodup ∧ ∀ r ∈ collect step out state calls, ¬ Spent state r := by
  induction calls generalizing state with
  | nil => exact ⟨List.nodup_nil, fun r hr => absurd hr List.not_mem_nil⟩
  | cons call calls ih =>
    obtain ⟨hcall, hrest⟩ := h
    obtain ⟨hlater, hunspent⟩ := ih hrest (hstep state call hinv hcall)
    constructor
    · refine List.nodup_append.2 ⟨hnodup state call hinv hcall, hlater, ?_⟩
      -- What this step hands out is spent afterwards, so no later step hands it out.
      rintro r hr _ hr' rfl
      exact hunspent r hr' (hspent state call r hinv hcall hr).2
    · intro r hr
      rcases List.mem_append.1 hr with hr | hr
      · exact (hspent state call r hinv hcall hr).1
      · exact fun hspentr => hunspent r hr (hstays state call r hinv hcall hspentr)

theorem map_collect {R' : Type} (out : S → C → List R) (f : R → R') (state : S) (calls : List C) :
    (collect step out state calls).map f =
      collect step (fun state call => (out state call).map f) state calls := by
  induction calls generalizing state with
  | nil => rfl
  | cons call calls ih =>
    unfold collect
    rw [List.map_append, ih]

/-- What holds of a thing when it is handed out, and is kept, holds at the end of the run. -/
theorem collect_holds {out : S → C → List R} (Inv : S → Prop) (Good : S → R → Prop)
    (hstep : ∀ state call, Inv state → P state call → Inv (step state call))
    (hstays : ∀ state call r, Inv state → P state call → Good state r → Good (step state call) r)
    (hout : ∀ state call r, Inv state → P state call → r ∈ out state call →
      Good (step state call) r)
    (h : Each step P state calls) (hinv : Inv state) :
    ∀ r ∈ collect step out state calls, Good (run step state calls) r := by
  induction calls generalizing state with
  | nil => exact fun r hr => absurd hr List.not_mem_nil
  | cons call calls ih =>
    obtain ⟨hcall, hrest⟩ := h
    have hnext := hstep state call hinv hcall
    intro r hr
    rcases List.mem_append.1 hr with hr | hr
    · have hkept : ∀ state call, Inv state ∧ Good state r → P state call →
          Inv (step state call) ∧ Good (step state call) r := fun state call hboth hcall =>
        ⟨hstep state call hboth.1 hcall, hstays state call r hboth.1 hcall hboth.2⟩
      exact (hrest.keeps hkept ⟨hnext, hout state call r hinv hcall hr⟩).2
    · exact ih hrest hnext r hr

end Sequential
