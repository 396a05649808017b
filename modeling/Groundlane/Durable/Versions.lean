import Groundlane.Durable.Rules

/-!
# Records that are never deleted

Many subsystems create records, swap them along fixed transitions from a version that they have
read at the revision they name, and never delete them. A `Lifecycle` says which values a key
starts with and how they may be replaced, and `Revises` that an event keeps to it. Then every
record that a call was ever told of is stored in the same or a later version (`Versions`), and
what the lifecycle preserves holds of every value and between any two versions.
-/

namespace Groundlane

open Fenced Interleaving Relation

/-- The values that a key starts with, and how a value may be replaced. -/
structure Lifecycle (V : Type) where
  initial : String → V → Prop
  next : V → V → Prop

/-- The value can be stored under the key. -/
def Lifecycle.Reached {V : Type} (cycle : Lifecycle V) (key : String) (value : V) : Prop :=
  ∃ first, cycle.initial key first ∧ ReflTransGen cycle.next first value

variable {key : String} {revision : Nat}

/-- What holds of the first values and is preserved by every replacement holds of every value. -/
theorem Lifecycle.Reached.holds {V : Type} {cycle : Lifecycle V} {value : V}
    (h : cycle.Reached key value) {P : V → Prop}
    (hinitial : ∀ first, cycle.initial key first → P first)
    (hnext : ∀ value later, cycle.next value later → P value → P later) : P value := by
  obtain ⟨first, hfirst, hpath⟩ := h
  induction hpath with
  | refl => exact hinitial first hfirst
  | tail _ hstep ih => exact hnext _ _ hstep ih

/-- What every replacement preserves is preserved between versions. -/
theorem holds_later {V : Type} {next : V → V → Prop} {value later : V}
    (h : ReflTransGen next value later) {P : V → Prop}
    (hnext : ∀ value later, next value later → P value → P later) (hvalue : P value) : P later := by
  induction h with
  | refl => exact hvalue
  | tail _ hstep ih => exact hnext _ _ hstep ih

/-- The store has `record` or a later version of it. -/
def Follows {V : Type} (cycle : Lifecycle V) (record : Record String V)
    (records : Store String V) : Prop :=
  ∃ current, records.get record.key = some current ∧ record.revision ≤ current.revision ∧
    (current.revision = record.revision → current = record) ∧
    ReflTransGen cycle.next record.value current.value

theorem Follows.of_get {V : Type} {cycle : Lifecycle V} {record : Record String V}
    {records : Store String V} (h : records.get key = some record) : Follows cycle record records :=
  ⟨record, (Store.get_key h) ▸ h, Nat.le_refl _, fun _ => rfl, .refl⟩

/-- If the fence matches, the stored record is the one that was read. -/
theorem Follows.of_swap {V : Type} {cycle : Lifecycle V} {record current : Record String V}
    {records : Store String V} (h : Follows cycle record records)
    (hget : records.get record.key = some current)
    (hrevision : current.revision = record.revision) : current = record := by
  obtain ⟨found, hfound, -, heq, -⟩ := h
  obtain rfl : found = current := Option.some.inj (hfound.symm.trans hget)
  exact heq hrevision

variable {Call V B P α : Type} {PR : P → Type}

/-- The records that an answer tells of. -/
def reported : (op : Op V B P) → op.Res PR → List (Record String V)
  | .get _ => fun answer => answer.toList
  | .createIfAbsent .. => fun answer => [answer.record]
  | .compareAndSwap .. => fun
    | .updated record | .conflict record => [record]
    | .missing => []
  | .scanExpired .. => fun page => page.1
  | _ => fun _ => []

/-- Call `i` was told of `record`. -/
def Reported (i : Nat) (record : Record String V) (history : List (Nat × DiskEvent PR Call V B α)) :
    Prop :=
  ∃ op answer, (i, .effect op answer) ∈ history ∧ record ∈ reported op answer

variable {record : Record String V} {history later : List (Nat × DiskEvent PR Call V B α)}
  {value : V}

theorem Reported.mono {i : Nat} (hsub : history ⊆ later) (h : Reported i record history) :
    Reported i record later := by
  obtain ⟨op, answer, hmem, hrecord⟩ := h
  exact ⟨op, answer, hsub hmem, hrecord⟩

/-- The event of call `i` keeps to the lifecycle: it creates first values, swaps along a
replacement from a version that the call was told of, and deletes nothing. -/
def Revises (cycle : Lifecycle V) (i : Nat) (event : DiskEvent PR Call V B α)
    (history : List (Nat × DiskEvent PR Call V B α)) : Prop :=
  match event with
  | .effect (.createIfAbsent key value _ _) _ => cycle.initial key value
  | .effect (.compareAndSwap key revision value _ _) _ => ∃ record, Reported i record history ∧
    record.key = key ∧ record.revision = revision ∧ cycle.next record.value value
  | .effect (.deleteIfRevision ..) _ => False
  | _ => True

/-- Call `i` was told that `key` holds `value` at `revision`. -/
def Told (i : Nat) (key : String) (value : V) (revision : Nat)
    (history : List (Nat × DiskEvent PR Call V B α)) : Prop :=
  ∃ record, Reported i record history ∧ record.key = key ∧ record.value = value ∧
    record.revision = revision

theorem Told.mono {i : Nat} (hsub : history ⊆ later) (h : Told i key value revision history) :
    Told i key value revision later := by
  obtain ⟨record, hreported, hrest⟩ := h
  exact ⟨record, hreported.mono hsub, hrest⟩

/-- Replacing a version that the call was told of keeps to the lifecycle. -/
theorem Told.revises {cycle : Lifecycle V} {i : Nat} {value later : V}
    {history : List (Nat × DiskEvent PR Call V B α)} (h : Told i key value revision history)
    (hnext : cycle.next value later) (nowMs : Int) (expiresAt : Option Int)
    (answer : CasResult String V) :
    Revises cycle i (.effect (.compareAndSwap key revision later nowMs expiresAt) answer)
      history := by
  obtain ⟨record, hreported, hkey, rfl, hrevision⟩ := h
  exact ⟨record, hreported, hkey, hrevision, hnext⟩

/-- Every stored value keeps to the lifecycle, and every record that a call was told of is
stored in the same or a later version. -/
structure Versions (cycle : Lifecycle V) (world : DiskWorld PR Call V B α) : Prop where
  stored : ∀ key record, world.state.records.get key = some record →
    cycle.Reached key record.value
  told : ∀ i record, Reported i record world.history →
    cycle.Reached record.key record.value ∧ Follows cycle record world.state.records

theorem versions_initial {cycle : Lifecycle V} :
    Versions cycle (⟨Disk.empty, []⟩ : DiskWorld PR Call V B α) where
  stored := by simp [Disk.empty]
  told := by simp [Reported]

section Step

variable [ByteString B] {sha256 : Sha256 B} {main : Call → Io PR V B α} {cycle : Lifecycle V}
  {i : Nat} {event : DiskEvent PR Call V B α} {before after : DiskWorld PR Call V B α}

/-- What a step does to the record under a key: nothing, or it creates a first value, or it
swaps along a replacement. -/
theorem version_cases (hstep : (system sha256 main).Step i event before after)
    (hrevises : Revises cycle i event before.history) (h : Versions cycle before) (key : String) :
    after.state.records.get key = before.state.records.get key ∨
      (∃ value nowMs expiresAt, cycle.initial key value ∧
        event = .effect (.createIfAbsent key value nowMs expiresAt)
          (.created ⟨key, value, 1, nowMs, nowMs, expiresAt⟩) ∧
        before.state.records.get key = none ∧
        after.state.records.get key = some ⟨key, value, 1, nowMs, nowMs, expiresAt⟩) ∨
      ∃ current value nowMs expiresAt, cycle.next current.value value ∧
        Reported i current before.history ∧
        event = .effect (.compareAndSwap key current.revision value nowMs expiresAt)
          (.updated ⟨key, value, current.revision + 1, current.createdAt, nowMs, expiresAt⟩) ∧
        before.state.records.get key = some current ∧
        after.state.records.get key =
          some ⟨key, value, current.revision + 1, current.createdAt, nowMs, expiresAt⟩ := by
  rcases Step.record_cases hstep key with
    hsame | ⟨value, nowMs, expiresAt, rfl, hnone, hafter⟩ |
    ⟨current, value, nowMs, expiresAt, rfl, hbefore, hafter⟩ | ⟨_, rfl, -⟩
  · exact .inl hsame
  · exact .inr (.inl ⟨value, nowMs, expiresAt, hrevises, rfl, hnone, hafter⟩)
  · obtain ⟨record, hreported, hkey, hrevision, hnext⟩ := hrevises
    obtain rfl : current = record :=
      (h.told i record hreported).2.of_swap (hkey ▸ hbefore) hrevision.symm
    exact .inr (.inr ⟨current, value, nowMs, expiresAt, hnext, hreported, rfl, hbefore, hafter⟩)
  · exact hrevises.elim

/-- A record stays in the same or a later version. -/
theorem follows_step (hstep : (system sha256 main).Step i event before after)
    (hrevises : Revises cycle i event before.history) (h : Versions cycle before)
    (hfollows : Follows cycle record before.state.records) :
    Follows cycle record after.state.records := by
  obtain ⟨current, hget, hle, heq, hpath⟩ := hfollows
  rcases version_cases hstep hrevises h record.key with
    hsame | ⟨_, _, _, -, -, hnone, -⟩ | ⟨found, _, _, _, hnext, -, -, hbefore, hafter⟩
  · exact ⟨current, hsame.trans hget, hle, heq, hpath⟩
  · simp [hnone] at hget
  · obtain rfl : found = current := Option.some.inj (hbefore.symm.trans hget)
    exact ⟨_, hafter, Nat.le_succ_of_le hle, fun hrevision => absurd hrevision (by simp; omega),
      hpath.tail hnext⟩

variable {op : Op V B P} {answer : op.Res PR}

/-- What an answer tells of is stored after the step. -/
theorem reported_stored (hstep : (system sha256 main).Step i (.effect op answer) before after)
    (h : record ∈ reported op answer) : after.state.records.get record.key = some record := by
  cases op with
  | get key =>
    obtain ⟨hget, hstate⟩ := Step.get_answer hstep
    obtain rfl : answer = some record := Option.mem_toList.1 h
    rw [hstate, Store.get_key hget.symm, ← hget]
  | createIfAbsent key value nowMs expiresAt =>
    obtain ⟨hafter, -⟩ := Step.createIfAbsent_answer hstep
    obtain rfl : record = answer.record := List.mem_singleton.1 h
    rw [Store.get_key hafter, hafter]
  | compareAndSwap key expectedRevision value nowMs expiresAt =>
    rcases Step.compareAndSwap_answer hstep with
      ⟨rfl, -⟩ | ⟨current, rfl, -, -, hafter⟩ | ⟨current, rfl, -, -, hafter⟩
    · cases h
    · obtain rfl : record = current := List.mem_singleton.1 h
      rw [Store.get_key hafter, hafter]
    · obtain rfl : record = _ := List.mem_singleton.1 h
      exact hafter
  | scanExpired nowMs cursor limit =>
    obtain ⟨_, hexec⟩ := hstep.exec_eq
    obtain ⟨hstate, rfl⟩ := Prod.mk.inj hexec
    rw [← hstate]
    exact (Store.mem_scanExpired h).1
  | _ => cases h

/-- What a call is told of in a step is stored after it, or the call was told of it before. -/
theorem reported_after (hstep : (system sha256 main).Step i event before after) {j : Nat}
    (h : Reported j record after.history) : Reported j record before.history ∨
      j = i ∧ after.state.records.get record.key = some record := by
  obtain ⟨op, answer, hmem, hrecord⟩ := h
  rcases hstep.mem_history.1 hmem with heq | hmem
  · obtain ⟨rfl, rfl⟩ := Prod.mk.inj heq
    exact .inr ⟨rfl, reported_stored hstep hrecord⟩
  · exact .inl ⟨op, answer, hmem, hrecord⟩

theorem versions_step (hstep : (system sha256 main).Step i event before after)
    (hrevises : Revises cycle i event before.history) (h : Versions cycle before) :
    Versions cycle after := by
  have hstored : ∀ key record, after.state.records.get key = some record →
      cycle.Reached key record.value := by
    intro key record hget
    rcases version_cases hstep hrevises h key with
      hsame | ⟨value, _, _, hinitial, -, -, hafter⟩ |
      ⟨current, value, _, _, hnext, -, -, hbefore, hafter⟩
    · exact h.stored key record (hsame ▸ hget)
    · obtain rfl := Option.some.inj (hafter.symm.trans hget)
      exact ⟨value, hinitial, .refl⟩
    · obtain rfl := Option.some.inj (hafter.symm.trans hget)
      obtain ⟨first, hfirst, hpath⟩ := h.stored key current hbefore
      exact ⟨first, hfirst, hpath.tail hnext⟩
  refine ⟨hstored, fun j record hreported => ?_⟩
  rcases reported_after hstep hreported with hreported | ⟨-, hget⟩
  · obtain ⟨hreached, hfollows⟩ := h.told j record hreported
    exact ⟨hreached, follows_step hstep hrevises h hfollows⟩
  · exact ⟨hstored _ _ hget, .of_get hget⟩

/-- What an answer tells of is stored under the key that the operation names. -/
theorem reported_key (hstep : (system sha256 main).Step i (.effect op answer) before after)
    (h : record ∈ reported op answer)
    (hop : op = .get key ∨ (∃ value nowMs expiresAt, op = .createIfAbsent key value nowMs expiresAt) ∨
      ∃ revision value nowMs expiresAt, op = .compareAndSwap key revision value nowMs expiresAt) :
    record.key = key := by
  rcases hop with rfl | ⟨_, _, _, rfl⟩ | ⟨_, _, _, _, rfl⟩
  · obtain rfl : answer = some record := Option.mem_toList.1 h
    exact Store.get_key (Step.get_answer hstep).1.symm
  · obtain rfl : record = answer.record := List.mem_singleton.1 h
    exact Store.get_key (Step.createIfAbsent_answer hstep).1
  · rcases Step.compareAndSwap_answer hstep with
      ⟨rfl, -⟩ | ⟨current, rfl, -, -, hafter⟩ | ⟨current, rfl, -, -, -⟩
    · cases h
    · obtain rfl : record = current := List.mem_singleton.1 h
      exact Store.get_key hafter
    · obtain rfl : record = _ := List.mem_singleton.1 h
      rfl

/-- What a program is told of by an operation of its own. -/
theorem Performed.reported {G : Guarantee Call (Op V B P) (Op.Res PR) Fault α (Disk V B)}
    {R : DiskWorld PR Call V B α → DiskWorld PR Call V B α → Prop}
    (h : Performed (system sha256 main) G R i before op answer after)
    (hrecord : record ∈ Groundlane.reported op answer) : Reported i record after.history := by
  obtain ⟨_, -, hstep, -⟩ := h
  exact ⟨op, answer, hstep.mem_history.2 (.inl rfl), hrecord⟩

/-! ### The order of versions -/

/-- Of a key, calls are told of versions in the order of their revisions. -/
def ToldInOrder (history : List (Nat × DiskEvent PR Call V B α)) : Prop :=
  ∀ newer i op answer older, history = newer ++ (i, .effect op answer) :: older →
    ∀ later ∈ reported op answer, ∀ j record, Reported j record older →
      record.key = later.key → record.revision ≤ later.revision

theorem toldInOrder_step (hstep : (system sha256 main).Step i event before after)
    (hrevises : Revises cycle i event before.history) (h : Versions cycle before)
    (horder : ToldInOrder before.history) : ToldInOrder after.history := by
  intro newer j op answer older heq later hlater k record hreported hkey
  rw [hstep.history] at heq
  cases newer with
  | nil =>
    obtain ⟨hentry, rfl⟩ := List.cons.inj heq
    obtain ⟨rfl, rfl⟩ := Prod.mk.inj hentry
    obtain ⟨_, hget, hle, -⟩ := follows_step hstep hrevises h (h.told k record hreported).2
    have hstored := reported_stored hstep hlater
    rw [← hkey, hget] at hstored
    exact Option.some.inj hstored ▸ hle
  | cons entry newer =>
    exact horder newer j op answer older (List.cons.inj heq).2 later hlater k record hreported hkey

/-- What a swap has written: the new value in the next revision, of which nobody was told
before. -/
structure Written (key : String) (revision : Nat) (value : V) (expiresAt : Option Int)
    (written : Record String V) (older : List (Nat × DiskEvent PR Call V B α)) : Prop where
  content : written.key = key ∧ written.value = value ∧ written.revision = revision + 1 ∧
    written.expiresAt = expiresAt
  fresh : ∀ j record, Reported j record older → record.key = key →
    record.revision < written.revision

/-- All swaps of the history have written what they say. -/
def AllWritten (history : List (Nat × DiskEvent PR Call V B α)) : Prop :=
  ∀ newer i key revision value nowMs expiresAt written older, history =
    newer ++ (i, .effect (.compareAndSwap key revision value nowMs expiresAt)
      (.updated written)) :: older → Written key revision value expiresAt written older

theorem allWritten_step (hstep : (system sha256 main).Step i event before after)
    (h : Versions cycle before) (hwritten : AllWritten before.history) :
    AllWritten after.history := by
  intro newer j key revision value nowMs expiresAt written older heq
  rw [hstep.history] at heq
  cases newer with
  | nil =>
    obtain ⟨hentry, rfl⟩ := List.cons.inj heq
    obtain ⟨rfl, rfl⟩ := Prod.mk.inj hentry
    rcases Step.compareAndSwap_answer hstep with
      ⟨hanswer, -⟩ | ⟨_, hanswer, -⟩ | ⟨_, hanswer, hget, rfl, -⟩
    · cases hanswer
    · cases hanswer
    · obtain rfl := CasResult.updated.inj hanswer
      refine ⟨⟨rfl, rfl, rfl, rfl⟩, fun k record hreported hkey => ?_⟩
      obtain ⟨-, _, hfound, hle, -⟩ := h.told k record hreported
      rw [hkey, hget] at hfound
      obtain rfl := Option.some.inj hfound
      exact Nat.lt_succ_of_le hle
  | cons entry newer => exact hwritten newer j _ _ _ _ _ _ older (List.cons.inj heq).2

omit [ByteString B] in
/-- The version that a swap has written is written by no other event. -/
theorem AllWritten.unique {history newer older : List (Nat × DiskEvent PR Call V B α)}
    (h : AllWritten history) {revision revision' : Nat} {value value' : V} {nowMs nowMs' : Int}
    {expiresAt expiresAt' : Option Int} {written written' : Record String V} {i j : Nat}
    (heq : history = newer ++ (i, .effect (.compareAndSwap key revision value nowMs expiresAt)
      (.updated written)) :: older)
    (hmem : (j, .effect (.compareAndSwap key revision' value' nowMs' expiresAt')
      (.updated written')) ∈ history) (hsame : written'.revision = written.revision) : j = i := by
  have hreports : ∀ (k : Nat) (revision : Nat) (value : V) (nowMs : Int) (expiresAt : Option Int)
      (written : Record String V) (history : List (Nat × DiskEvent PR Call V B α)),
      (k, .effect (.compareAndSwap key revision value nowMs expiresAt) (.updated written)) ∈
        history → Reported k written history := fun k revision value nowMs expiresAt written _ h =>
    ⟨_, _, h, by simp [reported]⟩
  have hwritten := h _ _ _ _ _ _ _ _ _ heq
  subst heq
  rcases List.mem_append.1 hmem with hmem | hmem
  · obtain ⟨newer, _, rfl⟩ := List.append_of_mem hmem
    have hlater := h newer j _ _ _ _ _ _ _ (by rw [List.append_assoc, List.cons_append])
    have hlt := hlater.fresh i written (hreports _ revision value nowMs expiresAt _ _ (by simp))
      hwritten.content.1
    omega
  · rcases List.mem_cons.1 hmem with hentry | hmem
    · exact (Prod.mk.inj hentry).1
    · have hother : written'.key = key := by
        obtain ⟨newer', older', heq'⟩ := List.append_of_mem hmem
        exact (h (newer ++ (i, .effect (.compareAndSwap key revision value nowMs expiresAt)
          (.updated written)) :: newer') j _ _ _ _ _ _ older'
          (by rw [heq', List.append_assoc, List.cons_append])).content.1
      have hlt := hwritten.fresh j written' (hreports _ _ _ _ _ _ _ hmem) hother
      omega

end Step

/-! ## The ports as safe programs -/

section Rules

variable [ByteString B] {sha256 : Sha256 B} {main : Call → Io PR V B α}
  {G : Guarantee Call (Op V B P) (Op.Res PR) Fault α (Disk V B)}
  {R : DiskWorld PR Call V B α → DiskWorld PR Call V B α → Prop} {i : Nat}
  {world : DiskWorld PR Call V B α}

/-- A read tells of the record under its key. -/
theorem Safe.read (h : ∀ now answer, R world now → G i (.effect (.get key) answer) now) :
    Safe (system sha256 main) G R i (Returning fun answer now => ∀ record, answer = some record →
        Reported i record now.history ∧ record.key = key)
      (Groundlane.get key) world := by
  refine Safe.mono ?_ (Safe.get fun now hnow => h now _ hnow)
  rintro outcome now hpost answer rfl record rfl
  have hperformed := hpost _ rfl
  have ⟨_, _, hstep, _⟩ := hperformed
  have hmem : record ∈ @reported V B P PR (.get key : Op V B P) (some record) := by
    simp [reported]
  exact ⟨Performed.reported hperformed hmem, reported_key hstep hmem (.inl rfl)⟩

variable {nowMs : Int}

/-- A creation tells of the record under its key. -/
theorem Safe.create [Stored V] {expiresAt : Option Int} (h : ∀ now answer, R world now →
      G i (.effect (.createIfAbsent key value nowMs expiresAt) answer) now) :
    Safe (system sha256 main) G R i (Returning fun answer now =>
        Reported i answer.record now.history ∧ answer.record.key = key)
      (Groundlane.createIfAbsent key value nowMs expiresAt) world := by
  refine Safe.mono ?_ (Safe.createIfAbsent fun now answer hnow _ => h now answer hnow)
  rintro outcome now hpost answer rfl
  have hperformed := hpost _ rfl
  have ⟨_, _, hstep, _⟩ := hperformed
  have hmem : answer.record ∈ @reported V B P PR
      (.createIfAbsent key value nowMs expiresAt : Op V B P) answer := by
    simp [reported]
  exact ⟨Performed.reported hperformed hmem,
    reported_key hstep hmem (.inr (.inl ⟨value, nowMs, expiresAt, rfl⟩))⟩

/-- A swap tells of the record under its key, which has the new value if the swap was made. -/
theorem Safe.swap [Stored V] {expiresAt : Option Int} (h : ∀ now answer, R world now →
      G i (.effect (.compareAndSwap key revision value nowMs expiresAt) answer) now) :
    Safe (system sha256 main) G R i (Returning fun answer now => ∀ record,
        (answer = .updated record →
          Reported i record now.history ∧ record.key = key ∧ record.value = value) ∧
        (answer = .conflict record → Reported i record now.history ∧ record.key = key))
      (Groundlane.compareAndSwap key revision value nowMs expiresAt) world := by
  refine Safe.mono ?_ (Safe.compareAndSwap fun now answer hnow _ => h now answer hnow)
  rintro outcome now hpost answer rfl record
  have hperformed := hpost _ rfl
  have ⟨_, _, hstep, _⟩ := hperformed
  have htold : record ∈ @reported V B P PR
      (.compareAndSwap key revision value nowMs expiresAt : Op V B P) answer →
      Reported i record now.history ∧ record.key = key := fun hmem =>
    ⟨Performed.reported hperformed hmem,
      reported_key hstep hmem (.inr (.inr ⟨revision, value, nowMs, expiresAt, rfl⟩))⟩
  constructor
  · rintro rfl
    obtain ⟨hreported, hkey⟩ := htold (by simp [reported])
    refine ⟨hreported, hkey, ?_⟩
    rcases Step.compareAndSwap_answer hstep with ⟨heq, -⟩ | ⟨_, heq, -⟩ | ⟨_, heq, -⟩
    · cases heq
    · cases heq
    · cases heq
      rfl
  · rintro rfl
    exact htold (by simp [reported])

/-- A scan tells of all records of its page. -/
theorem Safe.scan {cursor : Option String} {limit : Nat}
    (h : ∀ now answer, R world now → G i (.effect (.scanExpired nowMs cursor limit) answer) now) :
    Safe (system sha256 main) G R i (Returning fun page now =>
        ∀ record ∈ page.1, Reported i record now.history)
      (Groundlane.scanExpired nowMs cursor limit) world := by
  refine Safe.mono ?_ (Safe.scanExpired fun now answer hnow => h now answer hnow)
  rintro outcome now hpost page rfl record hrecord
  exact Performed.reported (hpost _ rfl) hrecord

end Rules

end Groundlane
