import Groundlane.Limits.Limiter
import Mathlib.Data.List.Perm.Basic

/-!
# Permits are conserved

`Balanced` is what every event keeps, and `Continues` what it leaves of the past.
`permits_conserved` says that for every order of the events the counter of the limiter is the
number of permits in use, that every call is settled exactly once, and that the queue is served
in order.
-/

namespace Groundlane.Limits

open Sequential

/-! ## The invariant -/

section

variable {capacity : Capacity} {state : Limiter} {entry : QueueEntry} {error : GroundlaneError}

/-- What every event keeps. -/
structure Balanced (capacity : Capacity) (state : Limiter) : Prop where
  active : state.activeCount = state.released.count false
  active_le : state.activeCount ≤ capacity.limit
  queued_le : state.queue.length ≤ capacity.maxQueue
  full : state.queue ≠ [] → state.activeCount = capacity.limit
  calls : (state.settled.map Prod.fst ++ state.queue.map QueueEntry.id).Perm
    (List.range state.acquires)
  permits : state.grants.map Prod.snd = List.range state.released.length
  order : (state.grants.map Prod.fst ++ state.queue.map QueueEntry.id).Pairwise (· < ·)
  flags : ∀ permit < state.released.length,
    state.released[permit]? = some (decide (permit ∈ state.called))
  called_lt : ∀ permit ∈ state.called, permit < state.released.length
  timers : state.timers = state.queue

/-- The listener of every queued entry is registered, and its signal is not aborted. -/
def Listening (state : Limiter) : Prop :=
  ∀ entry ∈ state.queue, ∀ signal, entry.signal = some signal →
    entry ∈ state.listeners ∧ signal ∉ state.aborted

theorem balanced_initial : Balanced capacity initial where
  active := rfl
  active_le := Int.natCast_nonneg _
  queued_le := Nat.zero_le _
  full := fun h => absurd rfl h
  calls := List.Perm.refl _
  permits := rfl
  order := List.Pairwise.nil
  flags := fun _ h => absurd h (Nat.not_lt_zero _)
  called_lt := fun _ h => absurd h List.not_mem_nil
  timers := rfl

theorem listening_initial : Listening initial := fun _ h => absurd h List.not_mem_nil

@[simp] theorem grants_rejected (id : Nat) :
    (state.settle id (.rejected error)).grants = state.grants := by
  unfold Limiter.grants Limiter.settle
  rw [List.filterMap_append]
  exact List.append_nil _

@[simp] theorem grants_granted (id permit : Nat) :
    (state.settle id (.granted permit)).grants = state.grants ++ [(id, permit)] := by
  unfold Limiter.grants Limiter.settle
  rw [List.filterMap_append]
  rfl

theorem mem_grants {id permit : Nat} :
    (id, permit) ∈ state.grants ↔ (id, Settlement.granted permit) ∈ state.settled := by
  unfold Limiter.grants
  rw [List.mem_filterMap]
  constructor
  · rintro ⟨⟨_, settlement⟩, hmem, heq⟩
    cases settlement with
    | granted permit' =>
      obtain ⟨rfl, rfl⟩ := Prod.mk.inj (Option.some.inj heq)
      exact hmem
    | rejected error => cases heq
  · exact fun hmem => ⟨_, hmem, rfl⟩

variable {entries : List QueueEntry} {other : QueueEntry} {permit : Nat} {id : Nat}

/-- The calls that are settled or queued were made. -/
theorem Balanced.made (h : Balanced capacity state)
    (hid : id ∈ state.settled.map Prod.fst ++ state.queue.map QueueEntry.id) :
    id < state.acquires := List.mem_range.1 (h.calls.mem_iff.1 hid)

theorem Balanced.granted_made (h : Balanced capacity state) (hid : id ∈ state.grants.map Prod.fst) :
    id < state.acquires := by
  obtain ⟨⟨_, _⟩, hmem, rfl⟩ := List.mem_map.1 hid
  exact h.made (List.mem_append_left _ (List.mem_map_of_mem (f := Prod.fst) (mem_grants.1 hmem)))

theorem Balanced.queued_made (h : Balanced capacity state) (hentry : entry ∈ state.queue) :
    entry.id < state.acquires :=
  h.made (List.mem_append_right _ (List.mem_map_of_mem hentry))

theorem Balanced.nodup_queue (h : Balanced capacity state) : state.queue.Nodup :=
  List.Nodup.of_map QueueEntry.id
    ((List.pairwise_append.1 h.order).2.1.imp fun hlt => Nat.ne_of_lt hlt)

/-- Two queued entries of one call are the same entry. -/
theorem Balanced.eq_of_id (h : Balanced capacity state) (hentry : entry ∈ state.queue)
    (hother : other ∈ state.queue) (heq : entry.id = other.id) : entry = other :=
  List.inj_on_of_nodup_map
    ((List.pairwise_append.1 h.order).2.1.imp fun hlt => Nat.ne_of_lt hlt) hentry hother heq

/-- The call that follows the ones made so far. -/
theorem perm_next {settled queued : List Nat} {count : Nat}
    (h : (settled ++ queued).Perm (List.range count)) :
    (settled ++ [count] ++ queued).Perm (List.range (count + 1)) := by
  rw [List.range_succ, List.append_assoc]
  have hswap : (settled ++ ([count] ++ queued)).Perm (settled ++ (queued ++ [count])) :=
    List.Perm.append_left settled List.perm_append_comm
  rw [← List.append_assoc settled queued] at hswap
  exact hswap.trans (h.append_right [count])

/-! ## One event -/

/-- A call that is rejected at once. -/
theorem Balanced.reject (h : Balanced capacity state) :
    Balanced capacity ({ state with acquires := state.acquires + 1 }.settle state.acquires
      (.rejected error)) where
  active := h.active
  active_le := h.active_le
  queued_le := h.queued_le
  full := h.full
  calls := by
    show (List.map Prod.fst (state.settled ++ _) ++ _).Perm (List.range (state.acquires + 1))
    rw [List.map_append]
    exact perm_next h.calls
  permits := by rw [grants_rejected]; exact h.permits
  order := by rw [grants_rejected]; exact h.order
  flags := h.flags
  called_lt := h.called_lt
  timers := h.timers

/-- A new permit: its release function has not been called. -/
theorem flags_append (hflags : ∀ permit < state.released.length,
      state.released[permit]? = some (decide (permit ∈ state.called)))
    (hcalled : ∀ permit ∈ state.called, permit < state.released.length) :
    ∀ permit < (state.released ++ [false]).length,
      (state.released ++ [false])[permit]? = some (decide (permit ∈ state.called)) := by
  intro permit hpermit
  rw [List.length_append, List.length_singleton] at hpermit
  by_cases hlt : permit < state.released.length
  · rw [List.getElem?_append_left hlt]
    exact hflags permit hlt
  · have heq : permit = state.released.length := by omega
    have hnot : permit ∉ state.called := fun hmem => hlt (hcalled permit hmem)
    rw [heq, List.getElem?_concat_length, ← heq, decide_eq_false hnot]

/-- A call that takes a free permit; nothing is queued then. -/
theorem Balanced.take (h : Balanced capacity state)
    (hfree : state.activeCount < (capacity.limit : Int)) :
    Balanced capacity ({ state with
      acquires := state.acquires + 1
      activeCount := state.activeCount + 1 }.grant state.acquires) := by
  have hempty : state.queue = [] := by
    by_contra hne
    have := h.full hne
    omega
  refine ⟨?_, ?_, h.queued_le, fun hne => absurd hempty hne, ?_, ?_, ?_,
    flags_append h.flags h.called_lt, fun permit hmem => ?_, h.timers⟩
  · show state.activeCount + 1 = ((state.released ++ [false]).count false : Int)
    rw [List.count_append, h.active]
    simp
  · show state.activeCount + 1 ≤ (capacity.limit : Int)
    omega
  · show (List.map Prod.fst (state.settled ++ _) ++ _).Perm (List.range (state.acquires + 1))
    rw [List.map_append]
    exact perm_next h.calls
  · show List.map Prod.snd (Limiter.grants (Limiter.settle _ _ _)) =
      List.range (state.released ++ [false]).length
    rw [grants_granted, List.map_append, List.length_append, List.length_singleton, List.range_succ]
    exact congrArg (· ++ _) h.permits
  · show (List.map Prod.fst (Limiter.grants (Limiter.settle _ _ _)) ++
      state.queue.map QueueEntry.id).Pairwise (· < ·)
    rw [grants_granted, List.map_append, hempty, List.map_nil, List.append_nil]
    refine List.pairwise_append.2 ⟨(List.pairwise_append.1 h.order).1,
      List.pairwise_singleton _ _, fun id hid other hother => ?_⟩
    rw [List.mem_singleton.1 hother]
    exact h.granted_made hid
  · show permit < (state.released ++ [false]).length
    rw [List.length_append]
    exact Nat.lt_add_right _ (h.called_lt permit hmem)

/-- A call that is queued. -/
theorem Balanced.queue (h : Balanced capacity state) (signal : Option Nat)
    (hbusy : ¬ state.activeCount < (capacity.limit : Int))
    (hroom : state.queue.length < capacity.maxQueue) :
    Balanced capacity (Limiter.enqueue { state with acquires := state.acquires + 1 }
      ⟨state.acquires, signal⟩) where
  active := h.active
  active_le := h.active_le
  queued_le := by
    show (state.queue ++ [_]).length ≤ capacity.maxQueue
    rw [List.length_append, List.length_singleton]
    exact hroom
  full := fun _ => Int.le_antisymm h.active_le (Int.not_lt.1 hbusy)
  calls := by
    show (_ ++ List.map QueueEntry.id (state.queue ++ [⟨state.acquires, signal⟩])).Perm
      (List.range (state.acquires + 1))
    rw [List.map_append, ← List.append_assoc, List.range_succ]
    exact h.calls.append_right [state.acquires]
  permits := h.permits
  order := by
    show (state.grants.map Prod.fst ++
      List.map QueueEntry.id (state.queue ++ [⟨state.acquires, signal⟩])).Pairwise (· < ·)
    rw [List.map_append, ← List.append_assoc]
    refine List.pairwise_append.2 ⟨h.order, List.pairwise_singleton _ _, ?_⟩
    intro id hid other hother
    rw [List.mem_singleton.1 hother]
    rcases List.mem_append.1 hid with hid | hid
    · exact h.granted_made hid
    · exact h.made (List.mem_append_right _ hid)
  flags := h.flags
  called_lt := h.called_lt
  timers := congrArg (· ++ _) h.timers

variable {record : Nat × Settlement} {P : Limiter → Prop}

/-- What `acquire` can do: reject the call, take a free permit, or queue the call. -/
theorem acquire_cases {remaining : Int} {signal : Option Nat}
    (reject : ∀ error, P ({ state with acquires := state.acquires + 1 }.settle state.acquires
      (.rejected error))) (take : state.activeCount < (capacity.limit : Int) → P ({ state with
      acquires := state.acquires + 1
      activeCount := state.activeCount + 1 }.grant state.acquires))
    (queue : ¬ signal.any (· ∈ state.aborted) = true →
      ¬ state.activeCount < (capacity.limit : Int) → state.queue.length < capacity.maxQueue →
      P (Limiter.enqueue { state with acquires := state.acquires + 1 } ⟨state.acquires, signal⟩)) :
    P (state.acquire capacity remaining signal) := by
  unfold Limiter.acquire
  by_cases haborted : signal.any (· ∈ state.aborted) = true
  · rw [if_pos haborted]
    exact reject cancelled
  rw [if_neg haborted]
  by_cases hfree : state.activeCount < (capacity.limit : Int)
  · rw [if_pos hfree]
    exact take hfree
  rw [if_neg hfree]
  by_cases hroom : state.queue.length ≥ capacity.maxQueue
  · rw [if_pos hroom]
    exact reject queueFull
  rw [if_neg hroom]
  by_cases hover : remaining ≤ 0
  · rw [if_pos hover]
    exact reject deadlineExceeded
  · rw [if_neg hover]
    exact queue haborted hfree (Nat.lt_of_not_ge hroom)

/-- `acquire`. -/
theorem Balanced.acquire (h : Balanced capacity state) (remaining : Int) (signal : Option Nat) :
    Balanced capacity (state.acquire capacity remaining signal) :=
  acquire_cases (fun _ => h.reject) h.take fun _ => h.queue signal

/-- An entry that leaves the queue without a permit. -/
theorem Balanced.remove (h : Balanced capacity state) :
    Balanced capacity (state.remove entry error) := by
  unfold Limiter.remove
  by_cases hmem : entry ∈ state.queue
  · rw [if_pos hmem]
    have hsublist : (state.queue.erase entry).Sublist state.queue := List.erase_sublist
    refine ⟨h.active, h.active_le, Nat.le_trans hsublist.length_le h.queued_le,
      fun hne => h.full ?_, ?_, ?_, ?_, h.flags, h.called_lt,
      congrArg (List.erase · entry) h.timers⟩
    · exact List.ne_nil_of_mem hmem
    · show (List.map Prod.fst (state.settled ++ [(entry.id, _)]) ++
        (state.queue.erase entry).map QueueEntry.id).Perm (List.range state.acquires)
      rw [List.map_append, List.append_assoc]
      have hperm : (state.queue.map QueueEntry.id).Perm
          (entry.id :: (state.queue.erase entry).map QueueEntry.id) :=
        (List.perm_cons_erase hmem).map QueueEntry.id
      exact (List.Perm.append_left _ hperm.symm).trans h.calls
    · rw [grants_rejected]
      exact h.permits
    · rw [grants_rejected]
      exact h.order.sublist ((List.Sublist.refl _).append (hsublist.map _))
  · rw [if_neg hmem]
    exact h

/-- A release function that is called once more. -/
theorem Balanced.recall (h : Balanced capacity state) (hflag : state.released[permit]? = some true) :
    Balanced capacity { state with called := state.called ++ [permit] } := by
  have hlt : permit < state.released.length := (List.getElem?_eq_some_iff.1 hflag).1
  have hmem : permit ∈ state.called := by
    have := (h.flags permit hlt).symm.trans hflag
    exact of_decide_eq_true (Option.some.inj this)
  refine ⟨h.active, h.active_le, h.queued_le, h.full, h.calls, h.permits, h.order, ?_, ?_, h.timers⟩
  · intro other hother
    rw [h.flags other hother]
    refine congrArg some (decide_eq_decide.2 ⟨List.mem_append_left _, fun hin => ?_⟩)
    rcases List.mem_append.1 hin with hin | hin
    · exact hin
    · exact List.mem_singleton.1 hin ▸ hmem
  · intro other hother
    rcases List.mem_append.1 hother with hother | hother
    · exact h.called_lt other hother
    · exact List.mem_singleton.1 hother ▸ hlt

/-- What `release` can do: nothing, free the permit, or hand it to the first entry. -/
theorem release_cases (unknown : P state) (again : state.released[permit]? = some true →
      P { state with called := state.called ++ [permit] })
    (free : state.released[permit]? = some false → state.queue = [] →
      P { state.mark permit with activeCount := state.activeCount - 1 })
    (pass : ∀ next queue, state.released[permit]? = some false → state.queue = next :: queue →
      P (Limiter.grant { state.mark permit with
        queue := queue
        timers := state.timers.erase next
        listeners := state.listeners.erase next } next.id)) : P (state.release permit) := by
  unfold Limiter.release
  split
  · exact unknown
  · next hflag => exact again hflag
  · next hflag =>
      unfold Limiter.handOver
      split
      · next hqueue => exact free hflag hqueue
      · next next queue hqueue => exact pass next queue hflag hqueue

/-- The flags after the first call of a release function. -/
theorem Balanced.mark (h : Balanced capacity state) (hflag : state.released[permit]? = some false) :
    ((state.mark permit).released.length = state.released.length ∧
      (state.mark permit).released.count false + 1 = state.released.count false) ∧
    (∀ other < (state.mark permit).released.length,
      (state.mark permit).released[other]? =
        some (decide (other ∈ (state.mark permit).called))) ∧
    ∀ other ∈ (state.mark permit).called, other < (state.mark permit).released.length := by
  obtain ⟨hlt, hfalse⟩ := List.getElem?_eq_some_iff.1 hflag
  have hlength : (state.released.set permit true).length = state.released.length :=
    List.length_set
  have hcount : (state.released.set permit true).count false + 1 = state.released.count false := by
    have hpos : 0 < state.released.count false :=
      List.count_pos_iff.2 (hfalse ▸ List.getElem_mem hlt)
    rw [List.count_set hlt, hfalse]
    simp only [BEq.rfl, if_true]
    simp
    omega
  have hflags : ∀ other < (state.released.set permit true).length,
      (state.released.set permit true)[other]? =
        some (decide (other ∈ state.called ++ [permit])) := by
    intro other hother
    by_cases heq : permit = other
    · subst heq
      rw [List.getElem?_set_self hlt, decide_eq_true (List.mem_append_right _ (by simp))]
    · rw [List.getElem?_set_ne heq, h.flags other (hlength ▸ hother)]
      refine congrArg some (decide_eq_decide.2 ⟨List.mem_append_left _, fun hin => ?_⟩)
      rcases List.mem_append.1 hin with hin | hin
      · exact hin
      · exact absurd (List.mem_singleton.1 hin).symm heq
  have hcalled : ∀ other ∈ state.called ++ [permit],
      other < (state.released.set permit true).length := by
    intro other hother
    rw [hlength]
    rcases List.mem_append.1 hother with hother | hother
    · exact h.called_lt other hother
    · exact List.mem_singleton.1 hother ▸ hlt
  exact ⟨⟨hlength, hcount⟩, hflags, hcalled⟩

/-- A permit that is released while nothing is queued. -/
theorem Balanced.free (h : Balanced capacity state) (hflag : state.released[permit]? = some false)
    (hqueue : state.queue = []) :
    Balanced capacity { state.mark permit with activeCount := state.activeCount - 1 } := by
  obtain ⟨⟨hlength, _⟩, hflags, hcalled⟩ := h.mark hflag
  refine ⟨?_, ?_, h.queued_le, fun hne => absurd hqueue hne, h.calls, ?_, h.order, hflags,
    hcalled, h.timers⟩
  · show state.activeCount - 1 = ((state.mark permit).released.count false : Int)
    have := h.active
    omega
  · show state.activeCount - 1 ≤ (capacity.limit : Int)
    have := h.active_le
    omega
  · show state.grants.map Prod.snd = List.range (state.mark permit).released.length
    rw [hlength]
    exact h.permits

/-- A permit that is handed to the first entry of the queue. -/
theorem Balanced.pass (h : Balanced capacity state) {next : QueueEntry} {queue : List QueueEntry}
    (hflag : state.released[permit]? = some false) (hqueue : state.queue = next :: queue) :
    Balanced capacity (Limiter.grant { state.mark permit with
      queue := queue
      timers := state.timers.erase next
      listeners := state.listeners.erase next } next.id) := by
  obtain ⟨⟨hlength, hcount⟩, hflags, hcalled⟩ := h.mark hflag
  have hfull : state.activeCount = capacity.limit := h.full (by rw [hqueue]; nofun)
  refine ⟨?_, h.active_le, ?_, fun _ => hfull, ?_, ?_, ?_,
    @flags_append (state.mark permit) hflags hcalled, ?_, ?_⟩
  · show state.activeCount = (((state.mark permit).released ++ [false]).count false : Int)
    rw [List.count_append, h.active, ← hcount]
    simp
  · have := h.queued_le
    rw [hqueue, List.length_cons] at this
    exact Nat.le_of_succ_le this
  · show (List.map Prod.fst (state.settled ++ [(next.id, _)]) ++
      queue.map QueueEntry.id).Perm (List.range state.acquires)
    have := h.calls
    rw [hqueue] at this
    rw [List.map_append, List.append_assoc]
    exact this
  · show List.map Prod.snd (Limiter.grants (Limiter.settle _ _ _)) =
      List.range ((state.mark permit).released ++ [false]).length
    rw [grants_granted, List.map_append, List.length_append, List.length_singleton, List.range_succ]
    exact congrArg₂ (· ++ ·) (hlength ▸ h.permits) rfl
  · show (List.map Prod.fst (Limiter.grants (Limiter.settle _ _ _)) ++
      queue.map QueueEntry.id).Pairwise (· < ·)
    have := h.order
    rw [hqueue] at this
    rw [grants_granted, List.map_append, List.append_assoc]
    exact this
  · intro other hother
    show other < ((state.mark permit).released ++ [false]).length
    rw [List.length_append]
    exact Nat.lt_add_right _ (hcalled other hother)
  · show state.timers.erase next = queue
    rw [h.timers, hqueue, List.erase_cons_head]

/-- `release`. -/
theorem Balanced.release (h : Balanced capacity state) (permit : Nat) :
    Balanced capacity (state.release permit) :=
  release_cases h h.recall h.free fun _ _ => h.pass

/-- A timer that fires is pending no longer; the entry leaves the queue with it. -/
theorem timeout_eq (h : Balanced capacity state) (hentry : entry ∈ state.queue) :
    state.timeout entry = state.remove entry timedOut := by
  have hnodup : state.timers.Nodup := h.timers ▸ h.nodup_queue
  unfold Limiter.timeout Limiter.remove
  rw [if_pos (h.timers ▸ hentry), if_pos (show entry ∈ Limiter.queue _ from hentry), if_pos hentry]
  show Limiter.settle { state with
      queue := state.queue.erase entry
      timers := (state.timers.erase entry).erase entry
      listeners := state.listeners.erase entry } entry.id (.rejected timedOut) = _
  rw [List.erase_of_not_mem (a := entry) (l := state.timers.erase entry) hnodup.not_mem_erase]

theorem timeout_of_not_queued (h : Balanced capacity state) (hentry : entry ∉ state.queue) :
    state.timeout entry = state := by
  unfold Limiter.timeout
  exact if_neg (h.timers ▸ hentry)

/-- Entries that leave the queue one after the other. -/
abbrev removeAll (state : Limiter) (entries : List QueueEntry) (error : GroundlaneError) :
    Limiter :=
  entries.foldl (fun state entry => state.remove entry error) state

theorem Balanced.removeAll (h : Balanced capacity state) (entries : List QueueEntry) :
    Balanced capacity (removeAll state entries error) := by
  induction entries generalizing state with
  | nil => exact h
  | cons entry entries ih => exact ih h.remove

/-- A signal is aborted; its listeners have not run yet. -/
def marked (state : Limiter) (signal : Nat) : Limiter :=
  { state with
    aborted := signal :: state.aborted
    listeners := state.listeners.filter (·.signal ≠ some signal) }

theorem Balanced.marked (h : Balanced capacity state) (signal : Nat) :
    Balanced capacity (marked state signal) :=
  ⟨h.active, h.active_le, h.queued_le, h.full, h.calls, h.permits, h.order, h.flags, h.called_lt,
    h.timers⟩

theorem abort_eq {signal : Nat} (hsignal : signal ∉ state.aborted) :
    state.abort signal = removeAll (marked state signal)
      (state.listeners.filter (·.signal = some signal)) cancelledWhileQueued :=
  if_neg hsignal

/-- Every event keeps the balance. -/
theorem Balanced.step (h : Balanced capacity state) (event : Event) :
    Balanced capacity (step capacity state event) := by
  cases event with
  | acquire remaining signal => exact h.acquire remaining signal
  | release permit => exact h.release permit
  | timeout entry =>
    show Balanced capacity (state.timeout entry)
    by_cases hentry : entry ∈ state.queue
    · rw [timeout_eq h hentry]
      exact h.remove
    · rw [timeout_of_not_queued h hentry]
      exact h
  | abort signal =>
    show Balanced capacity (state.abort signal)
    by_cases hsignal : signal ∈ state.aborted
    · rw [show state.abort signal = state from if_pos hsignal]
      exact h
    · rw [abort_eq hsignal]
      exact (h.marked signal).removeAll _

/-! ## Entries that leave the queue -/

theorem queue_remove : (state.remove entry error).queue = state.queue.erase entry := by
  unfold Limiter.remove
  by_cases hmem : entry ∈ state.queue
  · rw [if_pos hmem]
    rfl
  · rw [if_neg hmem, List.erase_of_not_mem hmem]

theorem mem_queue_removeAll (hnodup : state.queue.Nodup) :
    other ∈ (removeAll state entries error).queue ↔ other ∈ state.queue ∧ other ∉ entries := by
  induction entries generalizing state with
  | nil => exact ⟨fun h => ⟨h, List.not_mem_nil⟩, And.left⟩
  | cons entry entries ih =>
    show other ∈ (removeAll (state.remove entry error) entries error).queue ↔ _
    rw [ih (queue_remove ▸ hnodup.erase entry), queue_remove, hnodup.mem_erase_iff,
      List.mem_cons, not_or]
    constructor
    · exact fun ⟨⟨hne, hmem⟩, hlater⟩ => ⟨hmem, hne, hlater⟩
    · exact fun ⟨hmem, hne, hlater⟩ => ⟨⟨hne, hmem⟩, hlater⟩

/-- The listeners of other entries stay registered. -/
theorem mem_listeners_remove (hmem : other ∈ state.listeners) (hother : other ≠ entry) :
    other ∈ (state.remove entry error).listeners := by
  unfold Limiter.remove
  split
  · exact (List.mem_erase_of_ne hother).2 hmem
  · exact hmem

theorem aborted_remove : (state.remove entry error).aborted = state.aborted := by
  unfold Limiter.remove
  split <;> rfl

theorem mem_listeners_removeAll (hmem : other ∈ state.listeners) (hother : other ∉ entries) :
    other ∈ (removeAll state entries error).listeners := by
  induction entries generalizing state with
  | nil => exact hmem
  | cons entry entries ih =>
    rw [List.mem_cons, not_or] at hother
    exact ih (mem_listeners_remove hmem hother.1) hother.2

theorem aborted_removeAll : (removeAll state entries error).aborted = state.aborted := by
  induction entries generalizing state with
  | nil => rfl
  | cons entry entries ih => exact ih.trans aborted_remove

/-- What is settled stays settled. -/
theorem mem_settled_remove (h : record ∈ state.settled) :
    record ∈ (state.remove entry error).settled := by
  unfold Limiter.remove
  split
  · exact List.mem_append_left _ h
  · exact h

theorem mem_settled_removeAll (h : record ∈ state.settled) :
    record ∈ (removeAll state entries error).settled := by
  induction entries generalizing state with
  | nil => exact h
  | cons entry entries ih => exact ih (mem_settled_remove h)

/-- An entry of the queue that is removed is rejected. -/
theorem removed_settled (hmem : entry ∈ state.queue) :
    (entry.id, .rejected error) ∈ (state.remove entry error).settled := by
  unfold Limiter.remove
  rw [if_pos hmem]
  exact List.mem_append_right _ (List.mem_singleton.2 rfl)

theorem removeAll_settled (hmem : entry ∈ state.queue) (hentry : entry ∈ entries) :
    (entry.id, .rejected error) ∈ (removeAll state entries error).settled := by
  induction entries generalizing state with
  | nil => exact absurd hentry List.not_mem_nil
  | cons other entries ih =>
    show _ ∈ (removeAll (state.remove other error) entries error).settled
    by_cases heq : entry = other
    · exact heq ▸ mem_settled_removeAll (removed_settled hmem)
    · refine ih ?_ ((List.mem_cons.1 hentry).resolve_left heq)
      rw [queue_remove]
      exact (List.mem_erase_of_ne heq).2 hmem

/-- Every event keeps the listeners registered that queued entries need. -/
theorem listening_step (h : Balanced capacity state) (hlistening : Listening state)
    (event : Event) : Listening (step capacity state event) := by
  -- An entry that leaves the queue takes only its own listener with it.
  have hremove : ∀ entry error, Listening (state.remove entry error) := by
    intro entry error other hother signal hsignal
    rw [queue_remove, h.nodup_queue.mem_erase_iff] at hother
    obtain ⟨hregistered, hnot⟩ := hlistening other hother.2 signal hsignal
    exact ⟨mem_listeners_remove hregistered hother.1, aborted_remove.symm ▸ hnot⟩
  cases event with
  | acquire remaining signal =>
    refine acquire_cases (fun _ => hlistening) (fun _ => hlistening) fun haborted _ _ => ?_
    intro other hother wanted hsignal
    rcases List.mem_append.1 hother with hother | hother
    · obtain ⟨hregistered, hnot⟩ := hlistening other hother wanted hsignal
      refine ⟨?_, hnot⟩
      unfold Limiter.enqueue
      split
      · exact List.mem_append_left _ hregistered
      · exact hregistered
    · cases List.mem_singleton.1 hother
      cases hsignal
      exact ⟨List.mem_append_right _ (List.mem_singleton.2 rfl),
        fun hmem => haborted (decide_eq_true hmem)⟩
  | release permit =>
    refine release_cases hlistening (fun _ => hlistening) (fun _ _ => hlistening)
      fun next queue _ hqueue => ?_
    intro other hother signal hsignal
    have hnodup : (next :: queue).Nodup := hqueue ▸ h.nodup_queue
    have hne : other ≠ next := fun heq =>
      (List.nodup_cons.1 hnodup).1 (heq ▸ (show other ∈ queue from hother))
    obtain ⟨hregistered, hnot⟩ :=
      hlistening other (hqueue ▸ List.mem_cons_of_mem _ hother) signal hsignal
    exact ⟨(List.mem_erase_of_ne hne).2 hregistered, hnot⟩
  | timeout entry =>
    show Listening (state.timeout entry)
    by_cases hentry : entry ∈ state.queue
    · rw [timeout_eq h hentry]
      exact hremove entry timedOut
    · rw [timeout_of_not_queued h hentry]
      exact hlistening
  | abort signal =>
    show Listening (state.abort signal)
    by_cases haborted : signal ∈ state.aborted
    · rw [show state.abort signal = state from if_pos haborted]
      exact hlistening
    · rw [abort_eq haborted]
      intro other hother wanted hsignal
      obtain ⟨hqueued, hnot⟩ := (mem_queue_removeAll (h.marked signal).nodup_queue).1 hother
      obtain ⟨hregistered, hnotaborted⟩ := hlistening other hqueued wanted hsignal
      -- The entry's own signal is another one, or its listener would have run.
      have hne : wanted ≠ signal := fun heq =>
        hnot (List.mem_filter.2 ⟨hregistered, decide_eq_true (heq ▸ hsignal)⟩)
      refine ⟨mem_listeners_removeAll ?_ hnot, ?_⟩
      · refine List.mem_filter.2 ⟨hregistered, decide_eq_true ?_⟩
        rw [hsignal]
        exact fun heq => hne (Option.some.inj heq)
      · rw [aborted_removeAll]
        exact fun hmem => (List.mem_cons.1 hmem).elim hne hnotaborted

/-- What one event leaves of the past: settlements stay, and no old call is queued again. -/
structure Continues (state next : Limiter) : Prop where
  settled : ∀ record ∈ state.settled, record ∈ next.settled
  acquires : state.acquires ≤ next.acquires
  queue : ∀ entry ∈ next.queue, entry.id < state.acquires → entry ∈ state.queue

theorem Continues.refl (state : Limiter) : Continues state state :=
  ⟨fun _ h => h, Nat.le_refl _, fun _ h _ => h⟩

theorem Continues.trans {first second third : Limiter} (h : Continues first second)
    (h' : Continues second third) : Continues first third where
  settled := fun record hrecord => h'.settled record (h.settled record hrecord)
  acquires := Nat.le_trans h.acquires h'.acquires
  queue := fun entry hentry hlt =>
    h.queue entry (h'.queue entry hentry (Nat.lt_of_lt_of_le hlt h.acquires)) hlt

theorem continues_remove : Continues state (state.remove entry error) where
  settled := fun _ => mem_settled_remove
  acquires := by
    unfold Limiter.remove
    split <;> exact Nat.le_refl _
  queue := fun other hother _ => List.mem_of_mem_erase (queue_remove ▸ hother)

theorem continues_removeAll (entries : List QueueEntry) :
    Continues state (removeAll state entries error) := by
  induction entries generalizing state with
  | nil => exact Continues.refl state
  | cons entry entries ih => exact continues_remove.trans ih

theorem continues_step (h : Balanced capacity state) (event : Event) :
    Continues state (step capacity state event) := by
  cases event with
  | acquire remaining signal =>
    refine acquire_cases (fun _ => ?_) (fun _ => ?_) fun _ _ _ => ?_
    · exact ⟨fun record => List.mem_append_left _, Nat.le_succ _, fun _ hother _ => hother⟩
    · exact ⟨fun record => List.mem_append_left _, Nat.le_succ _, fun _ hother _ => hother⟩
    · refine ⟨fun record hrecord => hrecord, Nat.le_succ _, fun other hother hlt => ?_⟩
      rcases List.mem_append.1 hother with hother | hother
      · exact hother
      · cases List.mem_singleton.1 hother
        exact absurd hlt (Nat.lt_irrefl _)
  | release permit =>
    refine release_cases (Continues.refl state) (fun _ => ?_) (fun _ _ => ?_)
      fun next queue _ hqueue => ?_
    · exact ⟨fun _ hrecord => hrecord, Nat.le_refl _, fun _ hother _ => hother⟩
    · exact ⟨fun _ hrecord => hrecord, Nat.le_refl _, fun _ hother _ => hother⟩
    · exact ⟨fun record => List.mem_append_left _, Nat.le_refl _,
        fun other hother _ => hqueue ▸ List.mem_cons_of_mem _ hother⟩
  | timeout entry =>
    show Continues state (state.timeout entry)
    by_cases hentry : entry ∈ state.queue
    · rw [timeout_eq h hentry]
      exact continues_remove
    · rw [timeout_of_not_queued h hentry]
      exact Continues.refl state
  | abort signal =>
    show Continues state (state.abort signal)
    by_cases haborted : signal ∈ state.aborted
    · rw [show state.abort signal = state from if_pos haborted]
      exact Continues.refl state
    · rw [abort_eq haborted]
      have hmarked : Continues state (marked state signal) :=
        ⟨fun _ hrecord => hrecord, Nat.le_refl _, fun _ hother _ => hother⟩
      exact hmarked.trans (continues_removeAll _)

/-- The error with which an event takes a queued entry out of the queue. -/
def QueueEntry.interruption (entry : QueueEntry) : Event → Option GroundlaneError
  | .timeout other => if other = entry then some timedOut else none
  | .abort signal => if entry.signal = some signal then some cancelledWhileQueued else none
  | .acquire _ _ => none
  | .release _ => none

/-- A queued entry that times out or is aborted is rejected. -/
theorem interrupted_settled (h : Balanced capacity state) (hlistening : Listening state)
    {event : Event} (hentry : entry ∈ state.queue)
    (hevent : entry.interruption event = some error) :
    (entry.id, .rejected error) ∈ (step capacity state event).settled := by
  cases event with
  | acquire remaining signal => cases hevent
  | release permit => cases hevent
  | timeout other =>
    change (if other = entry then some timedOut else none) = some error at hevent
    split at hevent
    · next heq =>
        subst heq
        cases hevent
        show _ ∈ (state.timeout other).settled
        rw [timeout_eq h hentry]
        exact removed_settled hentry
    · cases hevent
  | abort signal =>
    change (if entry.signal = some signal then some cancelledWhileQueued else none) =
      some error at hevent
    split at hevent
    · next hsignal =>
        cases hevent
        obtain ⟨hregistered, hnot⟩ := hlistening entry hentry signal hsignal
        show _ ∈ (state.abort signal).settled
        rw [abort_eq hnot]
        exact removeAll_settled (show entry ∈ (marked state signal).queue from hentry)
          (List.mem_filter.2 ⟨hregistered, decide_eq_true hsignal⟩)
    · cases hevent

/-! ## Every run -/

theorem balanced_run (h : Balanced capacity state) (events : List Event) :
    Balanced capacity (run (step capacity) state events) :=
  run_keeps (Balanced capacity) (fun _ event h => h.step event) h

theorem listening_after (events : List Event) :
    Balanced capacity (after capacity events) ∧ Listening (after capacity events) :=
  run_keeps (fun state => Balanced capacity state ∧ Listening state)
    (fun _ event h => ⟨h.1.step event, listening_step h.1 h.2 event⟩)
    ⟨balanced_initial, listening_initial⟩

theorem continues_run (h : Balanced capacity state) (events : List Event) :
    Continues state (run (step capacity) state events) := by
  induction events generalizing state with
  | nil => exact Continues.refl state
  | cons event events ih => exact (continues_step h event).trans (ih (h.step event))

/-- Once its timer has fired, an entry is not queued. -/
theorem not_queued_of_timeout (h : Balanced capacity state) {events : List Event}
    (hentry : entry.id < state.acquires) (hevent : Event.timeout entry ∈ events) :
    entry ∉ (run (step capacity) state events).queue := by
  obtain ⟨first, second, rfl⟩ := List.append_of_mem hevent
  have hfirst : Balanced capacity (run (step capacity) state first) := balanced_run h first
  rw [run_append, run_cons]
  intro hqueued
  have hcontinues := continues_run (hfirst.step (.timeout entry)) second
  have hlt : entry.id < (run (step capacity) state first).acquires :=
    Nat.lt_of_lt_of_le hentry (continues_run h first).acquires
  have hstill := hcontinues.queue entry hqueued
    (Nat.lt_of_lt_of_le hlt (continues_step hfirst (.timeout entry)).acquires)
  -- The timer takes the entry out of the queue, if it is still there.
  by_cases hbefore : entry ∈ (run (step capacity) state first).queue
  · have hqueue : entry ∈ (Limiter.timeout _ entry).queue := hstill
    rw [timeout_eq hfirst hbefore, queue_remove] at hqueue
    exact hfirst.nodup_queue.not_mem_erase hqueue
  · exact hbefore ((continues_step hfirst (.timeout entry)).queue entry hstill hlt)

theorem length_settlements (id : Nat) :
    (state.settlements id).length = (state.settled.map Prod.fst).count id := by
  unfold Limiter.settlements
  rw [List.length_map, List.count, List.countP_map, List.countP_eq_length_filter]
  congr 1

/-- A call is settled once, and not while it is queued. -/
theorem Balanced.settled_once (h : Balanced capacity state) (hid : id < state.acquires) :
    (state.settlements id).length = if id ∈ state.queue.map QueueEntry.id then 0 else 1 := by
  have hone : (state.settled.map Prod.fst ++ state.queue.map QueueEntry.id).count id = 1 :=
    (h.calls.count_eq id).trans (List.count_eq_one_of_mem List.nodup_range (List.mem_range.2 hid))
  rw [List.count_append] at hone
  rw [length_settlements]
  split
  · next hmem =>
      have := List.count_pos_iff.2 hmem
      omega
  · next hnot =>
      have := List.count_eq_zero.2 hnot
      omega

theorem Balanced.settlements_eq (h : Balanced capacity state) {settlement : Settlement}
    (hmem : (id, settlement) ∈ state.settled) : state.settlements id = [settlement] := by
  have hid : id < state.acquires :=
    h.made (List.mem_append_left _ (List.mem_map_of_mem (f := Prod.fst) hmem))
  have hin : settlement ∈ state.settlements id :=
    List.mem_map_of_mem (f := Prod.snd) (List.mem_filter.2 ⟨hmem, decide_eq_true rfl⟩)
  have hlength := h.settled_once hid
  have hpos := List.length_pos_of_mem hin
  obtain ⟨_, heq⟩ := List.length_eq_one_iff.1 (show (state.settlements id).length = 1 by
    split at hlength <;> omega)
  rw [heq] at hin ⊢
  rw [List.mem_singleton.1 hin]

/-- The counter is the number of permits in use. -/
theorem Balanced.active_eq (h : Balanced capacity state) :
    state.active = state.inUse.length := by
  have hflags : state.released =
      (List.range state.released.length).map fun permit => decide (permit ∈ state.called) := by
    refine List.ext_getElem? fun permit => ?_
    by_cases hlt : permit < state.released.length
    · rw [h.flags permit hlt, List.getElem?_map, List.getElem?_range hlt]
      rfl
    · rw [List.getElem?_eq_none (Nat.le_of_not_lt hlt), List.getElem?_eq_none]
      rw [List.length_map, List.length_range]
      exact Nat.le_of_not_lt hlt
  have hcount : state.released.count false = state.inUse.length := by
    unfold Limiter.inUse
    rw [h.permits, ← List.countP_eq_length_filter]
    conv_lhs => rw [hflags]
    rw [List.count, List.countP_map]
    exact List.countP_congr fun permit _ => by simp
  show state.activeCount = _
  rw [h.active, hcount]

/-- What the limiter guarantees in a run. -/
structure PermitsConserved (capacity : Capacity) (events : List Event) : Prop where
  /-- The counter is the number of granted permits whose release function has not been called. -/
  active_eq : (after capacity events).active = (after capacity events).inUse.length
  active_le : (after capacity events).active ≤ capacity.limit
  queued_le : (after capacity events).queued ≤ capacity.maxQueue
  full : (after capacity events).queued ≠ 0 → (after capacity events).active = capacity.limit
  /-- No permit is granted to two calls. -/
  permits_nodup : ((after capacity events).grants.map Prod.snd).Nodup
  /-- A call is not settled while it is queued, and once afterwards. -/
  settled_once : ∀ id < (after capacity events).acquires,
    ((after capacity events).settlements id).length =
      if id ∈ (after capacity events).queue.map QueueEntry.id then 0 else 1
  /-- The timer of a queued entry is pending. -/
  pending : (after capacity events).timers = (after capacity events).queue
  /-- A queued call is settled at the latest when its timer fires. -/
  settled_in_time : ∀ before later entry, events = before ++ later →
    entry ∈ (after capacity before).queue → Event.timeout entry ∈ later →
      ((after capacity events).settlements entry.id).length = 1
  /-- Permits are granted in the order of the calls, and the ones still queued come last. -/
  in_order : ((after capacity events).grants.map Prod.fst ++
    (after capacity events).queue.map QueueEntry.id).Pairwise (· < ·)
  /-- A queued call that is aborted or times out is rejected, and settled in no other way. -/
  interrupted : ∀ before event later (entry : QueueEntry) error,
    events = before ++ event :: later → entry ∈ (after capacity before).queue →
    entry.interruption event = some error →
      (after capacity events).settlements entry.id = [.rejected error]

end

/-- For every order of calls, releases, timeouts and aborts, permits are conserved. -/
theorem permits_conserved (capacity : Capacity) (events : List Event) :
    PermitsConserved capacity events := by
  have h : Balanced capacity (after capacity events) := balanced_run balanced_initial events
  refine ⟨h.active_eq, h.active_le, h.queued_le, fun hne => h.full fun hnil => ?_, ?_,
    fun id hid => h.settled_once hid, h.timers, ?_, h.order, ?_⟩
  · exact hne (congrArg List.length hnil)
  · rw [h.permits]
    exact List.nodup_range
  · intro before later entry heq hentry hevent
    have hbefore : Balanced capacity (after capacity before) :=
      balanced_run balanced_initial before
    have hlt := hbefore.queued_made hentry
    have hrun : after capacity events = run (step capacity) (after capacity before) later := by
      rw [heq]
      exact run_append
    have hnot : entry ∉ (after capacity events).queue := by
      rw [hrun]
      exact not_queued_of_timeout hbefore hlt hevent
    have hmade : entry.id < (after capacity events).acquires := by
      rw [hrun]
      exact Nat.lt_of_lt_of_le hlt (continues_run hbefore later).acquires
    rw [h.settled_once hmade, if_neg]
    intro hmem
    obtain ⟨other, hother, hid⟩ := List.mem_map.1 hmem
    -- The entry of that number that is queued now was queued before, and is the same.
    have hothers : other ∈ (after capacity before).queue := by
      rw [hrun] at hother
      exact (continues_run hbefore later).queue other hother (hid ▸ hlt)
    exact hnot (hbefore.eq_of_id hothers hentry hid ▸ hother)
  · intro before event later entry error heq hentry hevent
    obtain ⟨hbefore, hlistening⟩ := @listening_after capacity before
    have hsettled := interrupted_settled hbefore hlistening hentry hevent
    have hrun : after capacity events =
        run (step capacity) (step capacity (after capacity before) event) later := by
      rw [heq]
      exact run_append
    refine h.settlements_eq ?_
    rw [hrun]
    exact (continues_run (hbefore.step event) later).settled _ hsettled

/-- Three calls for one permit: the second times out, the third gets the permit of the first. -/
example :
    let state := after ⟨1, 2, Nat.le_refl 1⟩ [.acquire 5 none, .acquire 5 none, .acquire 5 (some 0),
      .timeout ⟨1, none⟩, .release 0, .abort 0, .release 0]
    state.active = 1 ∧ state.queued = 0 ∧
      state.settled = [(0, .granted 0), (1, .rejected timedOut), (2, .granted 1)] := by
  decide

end Groundlane.Limits
