import Groundlane.Sequential.Runs
import Mathlib.Tactic.Common

/-!
# The concurrency limiter

`ConcurrencyLimiter` of `core/limits.ts`, together with what it uses of the platform: the pending
timers, and the listeners of the abort signals. A release function hands its permit to the first
entry of the queue without touching the counter, and timers and signals take entries out of the
queue. `step` is one of these events; the logs `settled` and `called` are what the callers see.
-/

namespace Groundlane.Limits

open Sequential

/-! ## The limiter -/

/-- `GroundlaneError`. -/
structure GroundlaneError where
  code : String
  stage : String
  message : String
  retryable : Bool
deriving DecidableEq

/-- The two limits of a `ConcurrencyLimiter`. -/
structure Capacity where
  limit : Nat
  maxQueue : Nat
  one_le_limit : 1 ≤ limit

/-- The constructor's check. -/
def Capacity.new (limit maxQueue : Int) : Except GroundlaneError Capacity :=
  if h : limit < 1 ∨ maxQueue < 0 then
    .error ⟨"INVALID_INPUT", "concurrency", "Concurrency limits must be non-negative integers",
      false⟩
  else .ok ⟨limit.toNat, maxQueue.toNat, by omega⟩

/-- A `QueueEntry`, named by the number of its call of `acquire`. -/
structure QueueEntry where
  id : Nat
  signal : Option Nat
deriving DecidableEq

/-- How the promise of a call is settled: with a release function, or with an error. -/
inductive Settlement where
  | granted (permit : Nat)
  | rejected (error : GroundlaneError)
deriving DecidableEq

/-- The permit of a settlement. -/
def Settlement.permit? : Settlement → Option Nat
  | granted permit => some permit
  | rejected _ => none

/-- The limiter, the platform's timers and signals, and what the callers have seen. -/
structure Limiter where
  activeCount : Int
  queue : List QueueEntry
  /-- The variable `released` of each release function, in the order in which they were made. -/
  released : List Bool
  /-- The entries whose timer is pending. -/
  timers : List QueueEntry
  /-- The entries whose listener is registered on their signal. -/
  listeners : List QueueEntry
  /-- The signals that are aborted. -/
  aborted : List Nat
  /-- The number of calls of `acquire` so far. -/
  acquires : Nat
  /-- Every call of a promise's `resolve` or `reject`, by the call of `acquire`. -/
  settled : List (Nat × Settlement)
  /-- The calls of release functions. -/
  called : List Nat

/-- A new limiter. -/
def initial : Limiter where
  activeCount := 0
  queue := []
  released := []
  timers := []
  listeners := []
  aborted := []
  acquires := 0
  settled := []
  called := []

/-- The error of a call whose signal is aborted already. -/
def cancelled : GroundlaneError := ⟨"CANCELLED", "queue", "The request was cancelled", false⟩

/-- The error of a call that finds the queue full. -/
def queueFull : GroundlaneError := ⟨"CONCURRENCY_LIMIT", "queue", "The request queue is full", true⟩

/-- The error of `remainingMs` when the deadline is over before the entry is queued. -/
def deadlineExceeded : GroundlaneError :=
  ⟨"DEADLINE_EXCEEDED", "queue", "The request deadline was exceeded", true⟩

/-- The error of an entry whose timer fires. -/
def timedOut : GroundlaneError :=
  ⟨"DEADLINE_EXCEEDED", "queue", "The request deadline was exceeded while queued", true⟩

/-- The error of an entry whose signal is aborted. -/
def cancelledWhileQueued : GroundlaneError :=
  ⟨"CANCELLED", "queue", "The request was cancelled while queued", false⟩

namespace Limiter

variable (state : Limiter)

/-- Settle a promise. -/
def settle (id : Nat) (settlement : Settlement) : Limiter :=
  { state with settled := state.settled ++ [(id, settlement)] }

/-- `resolve(this.releaseFactory())`. -/
def grant (id : Nat) : Limiter :=
  { state with released := state.released ++ [false] }.settle id (.granted state.released.length)

/-- `remove`. -/
def remove (entry : QueueEntry) (error : GroundlaneError) : Limiter :=
  if entry ∈ state.queue then
    { state with
      queue := state.queue.erase entry
      timers := state.timers.erase entry
      listeners := state.listeners.erase entry }.settle entry.id (.rejected error)
  else state

/-- The promise executor of `acquire`, when `remainingMs` returns. -/
def enqueue (entry : QueueEntry) : Limiter :=
  { state with
    queue := state.queue ++ [entry]
    timers := state.timers ++ [entry]
    listeners := if entry.signal.isSome then state.listeners ++ [entry] else state.listeners }

/-- `acquire`, with what is left of the deadline, rounded up. -/
def acquire (capacity : Capacity) (remaining : Int) (signal : Option Nat) : Limiter :=
  let id := state.acquires
  let state := { state with acquires := id + 1 }
  if signal.any (· ∈ state.aborted) then state.settle id (.rejected cancelled)
  else if state.activeCount < (capacity.limit : Int) then
    { state with activeCount := state.activeCount + 1 }.grant id
  else if state.queue.length ≥ capacity.maxQueue then state.settle id (.rejected queueFull)
  else if remaining ≤ 0 then state.settle id (.rejected deadlineExceeded)
  else state.enqueue ⟨id, signal⟩

/-- A release function after its flag is set: the permit goes to the first entry of the queue. -/
def handOver : Limiter :=
  match state.queue with
  | [] => { state with activeCount := state.activeCount - 1 }
  | next :: queue =>
    { state with
      queue := queue
      timers := state.timers.erase next
      listeners := state.listeners.erase next }.grant next.id

/-- `released = true`. -/
def mark (permit : Nat) : Limiter :=
  { state with
    released := state.released.set permit true
    called := state.called ++ [permit] }

/-- A call of a release function, if there is one with that number. -/
def release (permit : Nat) : Limiter :=
  match state.released[permit]? with
  | none => state
  | some true => { state with called := state.called ++ [permit] }
  | some false => (state.mark permit).handOver

/-- The timer of an entry fires. -/
def timeout (entry : QueueEntry) : Limiter :=
  if entry ∈ state.timers then
    { state with timers := state.timers.erase entry }.remove entry timedOut
  else state

/-- A signal is aborted: its listeners run in the order in which they were registered, once. -/
def abort (signal : Nat) : Limiter :=
  if signal ∈ state.aborted then state
  else
    (state.listeners.filter (·.signal = some signal)).foldl
      (fun state entry => state.remove entry cancelledWhileQueued)
      { state with
        aborted := signal :: state.aborted
        listeners := state.listeners.filter (·.signal ≠ some signal) }

end Limiter

/-- What can happen to a limiter. -/
inductive Event where
  | acquire (remaining : Int) (signal : Option Nat)
  | release (permit : Nat)
  | timeout (entry : QueueEntry)
  | abort (signal : Nat)
deriving DecidableEq

/-- One event. -/
def step (capacity : Capacity) (state : Limiter) : Event → Limiter
  | .acquire remaining signal => state.acquire capacity remaining signal
  | .release permit => state.release permit
  | .timeout entry => state.timeout entry
  | .abort signal => state.abort signal

/-- The state after some events. -/
abbrev after (capacity : Capacity) (events : List Event) : Limiter :=
  run (step capacity) initial events

namespace Limiter

variable (state : Limiter)

/-- `active`. -/
def active : Int := state.activeCount

/-- `queued`. -/
def queued : Nat := state.queue.length

/-- The calls that were granted a permit, with the permit, in the order of the grants. -/
def grants : List (Nat × Nat) :=
  state.settled.filterMap fun (id, settlement) => settlement.permit?.map (id, ·)

/-- The granted permits whose release function has not been called. -/
def inUse : List Nat := (state.grants.map Prod.snd).filter (· ∉ state.called)

/-- How a call was settled, each time. -/
def settlements (id : Nat) : List Settlement :=
  (state.settled.filter (·.1 = id)).map Prod.snd

end Limiter

end Groundlane.Limits
