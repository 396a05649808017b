import Groundlane.Durable.Versions

/-!
# Records that are claimed and values that are backed

A call claims a record by creating it. While nothing is deleted a record has one creator
(`SoleCreators`), so what only the creator does is done by one call. What every event that
writes a value can say in its favour, with the history as evidence, can be said of every value
that is stored and of every value that a call was told of (`Backed`).
-/

namespace Groundlane

open Fenced Interleaving

variable {Call V B P α : Type} {PR : P → Type}

/-- Call `i` created the record under `key`. -/
def Creates (i : Nat) (key : String) (history : List (Nat × DiskEvent PR Call V B α)) : Prop :=
  ∃ value nowMs expiresAt record,
    (i, .effect (.createIfAbsent key value nowMs expiresAt) (.created record)) ∈ history

variable {key : String}

theorem Creates.mono {i : Nat} {history later : List (Nat × DiskEvent PR Call V B α)}
    (hsub : history ⊆ later) (h : Creates i key history) : Creates i key later := by
  obtain ⟨value, nowMs, expiresAt, record, hmem⟩ := h
  exact ⟨value, nowMs, expiresAt, record, hsub hmem⟩

/-- The event is no deletion of a record. -/
def Keeping (event : DiskEvent PR Call V B α) : Prop :=
  match event with
  | .effect (.deleteIfRevision ..) _ => False
  | _ => True

/-- What was created is there, and one call has created it. -/
structure SoleCreators (world : DiskWorld PR Call V B α) : Prop where
  stored : ∀ {i key}, Creates i key world.history →
    ∃ record, world.state.records.get key = some record
  unique : ∀ {i j key}, Creates i key world.history → Creates j key world.history → i = j

/-- The evidence for a value that is written under a key. -/
abbrev Evidence {P : Type} (PR : P → Type) (Call V B α : Type) : Type :=
  String → V → List (Nat × DiskEvent PR Call V B α) → Prop

/-- There is evidence for what the event of call `i` writes. -/
def Writes (evidence : Evidence PR Call V B α) (i : Nat) (event : DiskEvent PR Call V B α)
    (history : List (Nat × DiskEvent PR Call V B α)) : Prop :=
  match event with
  | .effect (.createIfAbsent key value _ _) (.created _) =>
    evidence key value ((i, event) :: history)
  | .effect (.compareAndSwap key _ value _ _) (.updated _) =>
    evidence key value ((i, event) :: history)
  | _ => True

/-- There is evidence for what is stored and for what calls were told of. -/
structure Backed (evidence : Evidence PR Call V B α) (world : DiskWorld PR Call V B α) : Prop where
  stored : ∀ key record, world.state.records.get key = some record →
    evidence key record.value world.history
  told : ∀ i record, Reported i record world.history →
    evidence record.key record.value world.history

theorem soleCreators_initial : SoleCreators (⟨Disk.empty, []⟩ : DiskWorld PR Call V B α) where
  stored := by simp [Creates]
  unique := by simp [Creates]

variable {evidence : Evidence PR Call V B α}

theorem backed_initial : Backed evidence (⟨Disk.empty, []⟩ : DiskWorld PR Call V B α) where
  stored := by simp [Disk.empty]
  told := by simp [Reported]

section Step

variable [ByteString B] {sha256 : Sha256 B} {main : Call → Io PR V B α}
  {i : Nat} {event : DiskEvent PR Call V B α} {before after : DiskWorld PR Call V B α}

/-- A record that is stored stays stored. -/
theorem stored_step (hstep : (system sha256 main).Step i event before after)
    (hkeeping : Keeping event) {record : Record String V}
    (hget : before.state.records.get key = some record) :
    ∃ record, after.state.records.get key = some record := by
  rcases Step.record_cases hstep key with
    hsame | ⟨_, _, _, -, hnone, -⟩ | ⟨_, _, _, _, -, -, hafter⟩ | ⟨_, rfl, -⟩
  · exact ⟨record, hsame.trans hget⟩
  · rw [hnone] at hget
    cases hget
  · exact ⟨_, hafter⟩
  · exact hkeeping.elim

/-- A record is created where none is stored. -/
theorem creates_cases (hstep : (system sha256 main).Step i event before after) {j : Nat}
    (h : Creates j key after.history) : Creates j key before.history ∨
      j = i ∧ before.state.records.get key = none ∧
        ∃ record, after.state.records.get key = some record := by
  obtain ⟨value, nowMs, expiresAt, record, hmem⟩ := h
  rcases hstep.mem_history.1 hmem with heq | hmem
  · obtain ⟨rfl, rfl⟩ := Prod.mk.inj heq
    obtain ⟨hafter, ⟨_, hanswer, -⟩ | ⟨-, hnone⟩⟩ := Step.createIfAbsent_answer hstep
    · cases hanswer
    · exact .inr ⟨rfl, hnone, _, hafter⟩
  · exact .inl ⟨value, nowMs, expiresAt, record, hmem⟩

theorem soleCreators_step (hstep : (system sha256 main).Step i event before after)
    (hkeeping : Keeping event) (h : SoleCreators before) : SoleCreators after where
  stored := by
    intro j key hcreates
    rcases creates_cases hstep hcreates with hbefore | ⟨-, -, hafter⟩
    · obtain ⟨record, hget⟩ := h.stored hbefore
      exact stored_step hstep hkeeping hget
    · exact hafter
  unique := by
    intro j k key hj hk
    -- Whoever has created the record before keeps others from creating it now.
    have hclash : ∀ {l : Nat}, Creates l key before.history →
        before.state.records.get key = none → j = k := by
      intro l hl hnone
      obtain ⟨record, hget⟩ := h.stored hl
      rw [hnone] at hget
      cases hget
    rcases creates_cases hstep hj with hj | ⟨rfl, hnone, -⟩
    · rcases creates_cases hstep hk with hk | ⟨-, hnone, -⟩
      · exact h.unique hj hk
      · exact hclash hj hnone
    · rcases creates_cases hstep hk with hk | ⟨rfl, -, -⟩
      · exact hclash hk hnone
      · rfl

/-- Evidence that later events do not destroy stays for all values. -/
theorem backed_step (hmono : ∀ {key value history} entry, evidence key value history →
      evidence key value (entry :: history))
    (hstep : (system sha256 main).Step i event before after)
    (hwrites : Writes evidence i event before.history) (h : Backed evidence before) :
    Backed evidence after := by
  have hstored : ∀ key record, after.state.records.get key = some record →
      evidence key record.value after.history := by
    intro key record hget
    rw [hstep.history]
    rcases Step.record_cases hstep key with
      hsame | ⟨_, _, _, rfl, -, hafter⟩ | ⟨_, _, _, _, rfl, -, hafter⟩ | ⟨_, -, -, hnone⟩
    · exact hmono _ (h.stored key record (hsame ▸ hget))
    · obtain rfl := Option.some.inj (hafter.symm.trans hget)
      exact hwrites
    · obtain rfl := Option.some.inj (hafter.symm.trans hget)
      exact hwrites
    · rw [hnone] at hget
      cases hget
  refine ⟨hstored, fun j record hreported => ?_⟩
  rcases reported_after hstep hreported with hbefore | ⟨-, hget⟩
  · rw [hstep.history]
    exact hmono _ (h.told j record hbefore)
  · exact hstored _ _ hget

end Step

end Groundlane
