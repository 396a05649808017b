import Mathlib.Data.List.Forall2
import Mathlib.Tactic.Common

/-!
# Sequences of checks

A function that checks its input throws at the first check that fails. What it has checked when it
succeeds is read off with `bind_eq_ok` and `throwIf_eq_ok`, one check after another.
-/

namespace Sequential

variable {ε α β : Type} {condition : Prop} [Decidable condition] {fault : ε}

/-- Throw if the condition holds. -/
def throwIf (condition : Prop) [Decidable condition] (fault : ε) : Except ε Unit :=
  if condition then .error fault else .ok ()

/-- A check that does not throw. -/
@[simp] theorem throwIf_eq_ok : throwIf condition fault = .ok () ↔ ¬ condition := by
  unfold throwIf
  by_cases h : condition
  · rw [if_pos h]
    exact ⟨nofun, fun hnot => absurd h hnot⟩
  · rw [if_neg h]
    exact ⟨fun _ => h, fun _ => rfl⟩

/-- A sequence that succeeds is two steps that do. -/
theorem bind_eq_ok {first : Except ε α} {second : α → Except ε β} {result : β} :
    (first >>= second) = .ok result ↔ ∃ middle, first = .ok middle ∧ second middle = .ok result := by
  cases first with
  | error fault => exact ⟨nofun, nofun⟩
  | ok middle => exact ⟨fun h => ⟨middle, rfl, h⟩, fun ⟨_, heq, h⟩ => Except.ok.inj heq ▸ h⟩

/-- A sequence that begins with a check. -/
@[simp] theorem check_bind_eq_ok {first : Except ε Unit} {next : Unit → Except ε β} {result : β} :
    (first >>= next) = .ok result ↔ first = .ok () ∧ next () = .ok result := by
  rw [bind_eq_ok]
  exact ⟨fun ⟨(), hcheck, hnext⟩ => ⟨hcheck, hnext⟩, fun ⟨hcheck, hnext⟩ => ⟨(), hcheck, hnext⟩⟩

/-- A sequence that begins with a check throws its fault or what the rest throws. -/
theorem throwIf_bind_eq_error {next : Unit → Except ε β} {fault' : ε} :
    (throwIf condition fault >>= next) = .error fault' ↔
      (condition ∧ fault = fault') ∨ (¬ condition ∧ next () = .error fault') := by
  unfold throwIf
  by_cases h : condition
  · rw [if_pos h]
    exact ⟨fun herror => .inl ⟨h, Except.error.inj herror⟩, fun hcases => by
      rcases hcases with ⟨-, rfl⟩ | ⟨hnot, -⟩
      · rfl
      · exact absurd h hnot⟩
  · rw [if_neg h]
    exact ⟨fun herror => .inr ⟨h, herror⟩, fun hcases => by
      rcases hcases with ⟨hholds, -⟩ | ⟨-, herror⟩
      · exact absurd hholds h
      · exact herror⟩

variable {f : α → Except ε β} {results : List β} {list : List α}

/-- A function that may throw succeeds on a list if it does on every member. -/
theorem mapM_eq_ok :
    list.mapM f = .ok results ↔ List.Forall₂ (fun a b => f a = .ok b) list results := by
  induction list generalizing results with
  | nil =>
    rw [List.mapM_nil, List.forall₂_nil_left_iff]
    exact ⟨fun h => (Except.ok.inj h).symm, fun h => h ▸ rfl⟩
  | cons a rest ih =>
    rw [List.mapM_cons, bind_eq_ok, List.forall₂_cons_left_iff]
    constructor
    · rintro ⟨b, hfirst, h⟩
      obtain ⟨others, hrest, hresults⟩ := bind_eq_ok.1 h
      exact ⟨b, others, hfirst, ih.1 hrest, (Except.ok.inj hresults).symm⟩
    · rintro ⟨b, others, hfirst, hrest, rfl⟩
      exact ⟨b, hfirst, bind_eq_ok.2 ⟨others, ih.2 hrest, rfl⟩⟩

theorem ok_of_mem_mapM (h : list.mapM f = .ok results) {a : α} (hmem : a ∈ list) :
    ∃ b, f a = .ok b := by
  have hresults := mapM_eq_ok.1 h
  clear h
  induction hresults with
  | nil => exact absurd hmem List.not_mem_nil
  | cons hfirst _ ih =>
    rcases List.mem_cons.1 hmem with rfl | hmem
    · exact ⟨_, hfirst⟩
    · exact ih hmem

/-- What holds of each result holds of all results. -/
theorem forall_of_mapM {good : β → Prop} (h : list.mapM f = .ok results)
    (hf : ∀ a b, f a = .ok b → good b) : ∀ b ∈ results, good b := by
  have hresults := mapM_eq_ok.1 h
  clear h
  induction hresults with
  | nil => exact fun _ hmem => absurd hmem List.not_mem_nil
  | cons hfirst _ ih => exact List.forall_mem_cons.2 ⟨hf _ _ hfirst, ih⟩

end Sequential
