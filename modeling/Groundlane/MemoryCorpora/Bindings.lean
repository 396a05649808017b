import Groundlane.MemoryCorpora.Store

/-!
# Cache bindings of withdrawn sources

When a removal of a source or a deletion of its corpus is accepted, no binding that an earlier
enrollment of the source registered can be hit any more (`withdrawn_bindings_unhittable`), provided
that no enrollment of a source that is enrolled leaves out a binding of it that can still be hit.
A store keeps the bindings of the latest enrollment only, so one that is left out is never revoked
(`left_out_binding_hittable`).
-/

namespace Groundlane.MemoryCorpora

open Corpora Sequential

namespace CorpusStore

/-! ## What is claimed -/

/-- A binding that an enrollment of a source registers. -/
structure Registration where
  corpusId : String
  sourceId : String
  binding : String
deriving DecidableEq, Repr

/-- What a call registers. -/
def registered (platform : Platform) (store : CorpusStore) (call : Call × Surroundings) :
    List Registration :=
  match call.1 with
  | .enrollSource corpusId input caller caps =>
    match store.beginEnroll platform corpusId input caller caps call.2 with
    | .ok _ => input.bindings.map fun binding => ⟨corpusId, input.sourceId, binding⟩
    | .error _ => []
  | _ => []

/-- The call is a removal of the source, or a deletion of its corpus, that passes its checks. -/
def Withdraws (store : CorpusStore) (call : Call) (corpusId sourceId : String) : Prop :=
  match call with
  | .removeSource id source caller => id = corpusId ∧ source = sourceId ∧
    ∃ found, store.requireEnrolled id source caller = .ok found
  | .deleteCorpus id caller => id = corpusId ∧
    ∃ record, store.requireWritableRecord id caller true = .ok record
  | _ => False

/-- Behind an accepted withdrawal no binding of an earlier enrollment can be hit. -/
def Unhittable (platform : Platform) (calls : List (Call × Surroundings)) : Prop :=
  ∀ first call later, calls = first ++ call :: later →
    ∀ registration ∈ collect (step platform) (registered platform) empty first,
      Withdraws (run (step platform) empty first) call.1 registration.corpusId
        registration.sourceId →
      (run (step platform) empty calls).isCacheBindingHittable registration.binding = false

/-- An enrollment of a source that is enrolled leaves out no binding that can still be hit. -/
def keepsBindings (platform : Platform) (store : CorpusStore) (call : Call × Surroundings) : Bool :=
  match call.1 with
  | .enrollSource corpusId input caller caps =>
    match store.beginEnroll platform corpusId input caller caps call.2 with
    | .ok enrolling => enrolling.existing.all fun existing => !existing.enrolled ||
      existing.sourceRecord.cacheBindings.all fun binding =>
        input.bindings.contains binding || store.revokedCacheBindings.contains binding
    | .error _ => true
  | _ => true

/-! ## The numbers of corpora -/

/-- The number that hexadecimal digits stand for. -/
def hexNumberOf (digits : List Char) : Nat :=
  digits.foldl (fun value digit => 16 * value + hexValue digit) 0

/-- The digits of a number stand for it. -/
theorem hexNumberOf_toDigits (n : Nat) : hexNumberOf (Nat.toDigits 16 n) = n := by
  induction n using Nat.strongRecOn with
  | ind n ih =>
    have hdigit : ∀ d, d < 16 → hexValue (Nat.digitChar d) = d := by decide
    rw [Nat.toDigits_eq_if (by decide)]
    split
    · next hlt =>
        show 16 * 0 + hexValue (Nat.digitChar n) = n
        rw [hdigit n hlt]
        omega
    · unfold hexNumberOf at ih ⊢
      rw [List.foldl_append, ih (n / 16) (by omega)]
      show 16 * (n / 16) + hexValue (Nat.digitChar (n % 16)) = n
      rw [hdigit _ (by omega)]
      omega

/-- Leading zeros do not count. -/
theorem hexNumberOf_leftpad (digits : List Char) (width : Nat) :
    hexNumberOf (digits.leftpad width '0') = hexNumberOf digits := by
  unfold List.leftpad
  induction width - digits.length with
  | zero => rfl
  | succ count ih =>
    rw [List.replicate_succ, List.cons_append]
    exact ih

variable {m n : Nat}

theorem hexNumber_inj (h : hexNumber m = hexNumber n) : m = n := by
  have hvalue : ∀ k, hexNumberOf (hexNumber k) = k := fun k =>
    (hexNumberOf_leftpad _ 4).trans (hexNumberOf_toDigits k)
  rw [← hvalue m, h, hvalue n]

/-- The ID is made with the number. -/
def Numbered (corpusId : String) (n : Nat) : Prop :=
  ∃ digest : List Char, digest.length = 12 ∧
    corpusId.toList = "gl-corpus-".toList ++ hexNumber n ++ digest

theorem numbered_corpusIdOf (platform : Platform) (input : CreateCorpusInput) (seq : Nat) :
    Numbered (corpusIdOf platform input seq) seq := by
  refine ⟨_, ?_, by unfold corpusIdOf; rw [String.toList_ofList]⟩
  rw [List.length_take, (platform.sha256 _).property]
  rfl

theorem Numbered.unique {corpusId : String} (hm : Numbered corpusId m) (hn : Numbered corpusId n) :
    m = n := by
  obtain ⟨_, hleft, heq⟩ := hm
  obtain ⟨_, hright, heq'⟩ := hn
  have hboth := List.append_inj_left' (heq.symm.trans heq') (hleft.trans hright.symm)
  exact hexNumber_inj (List.append_cancel_left hboth)

/-! ## What a call does -/

section Steps

variable {platform : Platform} {store after : CorpusStore} {corpusId sourceId : String}
  {record : CorpusRecord} {caller : CallerPrincipal}

theorem requireWritableRecord_ok {allowDeleting : Bool} :
    store.requireWritableRecord corpusId caller allowDeleting = .ok record ↔
      store.records.get? corpusId = some record ∧ canWrite record caller = true ∧
        record.state ≠ .deleted ∧ ¬ (record.state = .deleting ∧ allowDeleting = false) := by
  unfold requireWritableRecord
  cases store.records.get? corpusId with
  | none => exact ⟨nofun, nofun⟩
  | some found =>
    dsimp only
    rw [check_bind_eq_ok, check_bind_eq_ok, check_bind_eq_ok, throwIf_eq_ok, throwIf_eq_ok,
      throwIf_eq_ok]
    constructor
    · rintro ⟨hwrite, hdeleted, hdeleting, heq⟩
      cases heq
      exact ⟨rfl, by simpa using hwrite, hdeleted, hdeleting⟩
    · rintro ⟨heq, hwrite, hdeleted, hdeleting⟩
      cases heq
      exact ⟨by simp [hwrite], hdeleted, hdeleting, rfl⟩

theorem requireEnrolled_ok {existing : StoredEnrollment}
    (h : store.requireEnrolled corpusId sourceId caller = .ok (record, existing)) :
    store.requireWritableRecord corpusId caller false = .ok record ∧
      record.enrollments.get? sourceId = some existing ∧ existing.enrolled = true := by
  unfold requireEnrolled at h
  obtain ⟨_, hfound, h⟩ := bind_eq_ok.1 h
  split at h
  · cases h
  · next enrolled hfilter =>
      cases h
      obtain ⟨hget, henrolled⟩ := Option.filter_eq_some_iff.1 hfilter
      exact ⟨hfound, hget, henrolled⟩

/-- The binding can be hit no more, or the source is enrolled with it. -/
def Held (store : CorpusStore) (registration : Registration) : Prop :=
  registration.binding ∈ store.revokedCacheBindings ∨
    ∃ record enrollment, store.records.get? registration.corpusId = some record ∧
      record.enrollments.get? registration.sourceId = some enrollment ∧
      enrollment.enrolled = true ∧ registration.binding ∈ enrollment.sourceRecord.cacheBindings

/-- Nothing is enrolled in the record. -/
def Cleared (record : CorpusRecord) : Prop :=
  ∀ sourceId enrollment, record.enrollments.get? sourceId = some enrollment →
    enrollment.enrolled = false

/-- A call changes the record of one corpus and revokes bindings. -/
structure Replaces (store after : CorpusStore) (corpusId : String)
    (record next : CorpusRecord) : Prop where
  seq : after.seq = store.seq
  before : store.records.get? corpusId = some record
  records : after.records = store.records.set corpusId next
  revoked : store.revokedCacheBindings ⊆ after.revokedCacheBindings
  kept : ∀ sourceId enrollment, record.enrollments.get? sourceId = some enrollment →
    enrollment.enrolled = true → ∀ binding ∈ enrollment.sourceRecord.cacheBindings,
      Held after ⟨corpusId, sourceId, binding⟩
  cleared : next.state = .deleting → Cleared next

/-- A call leaves the records alone. -/
structure Idle (store after : CorpusStore) : Prop where
  seq : store.seq ≤ after.seq
  records : after.records = store.records
  revoked : store.revokedCacheBindings ⊆ after.revokedCacheBindings

/-- A call makes a corpus with the next number. -/
structure Creates (store after : CorpusStore) (corpusId : String) (record : CorpusRecord) :
    Prop where
  seq : after.seq = store.seq + 1
  numbered : Numbered corpusId (store.seq + 1)
  records : after.records = store.records.set corpusId record
  revoked : after.revokedCacheBindings = store.revokedCacheBindings
  cleared : Cleared record

theorem idle_refl (store : CorpusStore) : Idle store store :=
  ⟨le_rfl, rfl, List.Subset.refl _⟩

variable (around : Surroundings) {enrollment : StoredEnrollment} {registration : Registration}
  {caps : Option CorpusRetentionCaps} {call : Call × Surroundings} {input : EnrollSourceInput}
  {next : CorpusRecord} {binding : String}

/-- An entry behind a change of the record. -/
theorem held_setRecord (hget : next.enrollments.get? sourceId = some enrollment)
    (henrolled : enrollment.enrolled = true)
    (hbinding : binding ∈ enrollment.sourceRecord.cacheBindings) :
    Held (store.setRecord corpusId next) ⟨corpusId, sourceId, binding⟩ :=
  .inr ⟨next, enrollment, store.records.get?_set_self corpusId next, hget, henrolled, hbinding⟩

/-- A change of one enrollment that revokes or keeps its bindings. -/
theorem replaces_set {bindings : List String} (hbefore : store.records.get? corpusId = some record)
    (hafter : after = (store.revoke bindings).setRecord corpusId next)
    (hnext : next.enrollments = record.enrollments.set sourceId enrollment)
    (hstate : next.state ≠ .deleting)
    (hkept : ∀ existing, record.enrollments.get? sourceId = some existing →
      existing.enrolled = true → ∀ binding ∈ existing.sourceRecord.cacheBindings,
        binding ∈ store.revokedCacheBindings ++ bindings ∨
          enrollment.enrolled = true ∧ binding ∈ enrollment.sourceRecord.cacheBindings) :
    Replaces store after corpusId record next := by
  subst hafter
  refine ⟨rfl, hbefore, rfl, List.subset_append_left _ _, ?_, fun h => absurd h hstate⟩
  intro other existing hget henrolled binding hbinding
  by_cases hother : other = sourceId
  · subst hother
    rcases hkept existing hget henrolled binding hbinding with hrevoked | ⟨hnew, hmem⟩
    · exact .inl hrevoked
    · refine held_setRecord ?_ hnew hmem
      rw [hnext]
      exact OrderedMap.get?_set_self ..
  · refine held_setRecord ?_ henrolled hbinding
    rw [hnext]
    exact (OrderedMap.get?_set_of_ne _ hother _).trans hget

theorem revoke_nil : store.revoke [] = store := by
  unfold revoke
  rw [List.append_nil]

/-- What a call does: nothing to the records, a new corpus, or a change of one record. -/
def Moves (store after : CorpusStore) : Prop :=
  Idle store after ∨ (∃ corpusId record, Creates store after corpusId record) ∨
    ∃ corpusId record next, Replaces store after corpusId record next

theorem createCorpus_moves (input : CreateCorpusInput) (around : Surroundings) :
    Moves store (store.createCorpus platform input around).2 := by
  have hidle : Idle store { store with seq := store.seq + 1 } :=
    ⟨Nat.le_succ _, rfl, List.Subset.refl _⟩
  unfold createCorpus
  split
  · exact .inl (idle_refl store)
  · dsimp only
    split
    · exact .inl hidle
    · exact .inr (.inl ⟨_, _, rfl, numbered_corpusIdOf .., rfl, rfl, fun _ _ h => nomatch h⟩)

/-- An enrollment that goes through is about a record that is neither deleting nor deleted. -/
theorem beginEnroll_ok {around : Surroundings} {enrolling : Enrolling}
    (h : store.beginEnroll platform corpusId input caller caps around = .ok enrolling) :
    store.requireWritableRecord corpusId caller false = .ok enrolling.record ∧
      enrolling.existing = enrolling.record.enrollments.get? input.sourceId := by
  unfold beginEnroll at h
  obtain ⟨_, hfound, h⟩ := bind_eq_ok.1 h
  rw [check_bind_eq_ok, check_bind_eq_ok, check_bind_eq_ok] at h
  obtain ⟨-, -, -, h⟩ := h
  obtain ⟨_, -, h⟩ := bind_eq_ok.1 h
  rw [check_bind_eq_ok, check_bind_eq_ok, check_bind_eq_ok] at h
  cases h.2.2.2
  exact ⟨hfound, rfl⟩

/-- The state of a corpus is not settled to one of a deletion. -/
theorem settledState_ok {state settled : CorpusState} {around : Surroundings}
    (h : settledState state around = .ok settled) (hstate : state ≠ .deleting) :
    settled ≠ .deleting := by
  unfold settledState at h
  split at h
  · obtain ⟨_, -, h⟩ := bind_eq_ok.1 h
    obtain ⟨_, -, h⟩ := bind_eq_ok.1 h
    cases h
    unfold mapBackendFailureToState
    split <;> exact nofun
  · cases h
    exact hstate

theorem writable_not_deleting
    (h : store.requireWritableRecord corpusId caller false = .ok record) :
    store.records.get? corpusId = some record ∧ record.state ≠ .deleting := by
  obtain ⟨hget, -, -, hdeleting⟩ := requireWritableRecord_ok.1 h
  exact ⟨hget, fun hstate => hdeleting ⟨hstate, rfl⟩⟩

variable (platform store corpusId caller) in
/-- An enrollment leaves the store as it is, or it stores the enrollment, also when the backend
fails to tell its health. -/
theorem enrollSource_cases (input : EnrollSourceInput) (caps : Option CorpusRetentionCaps)
    (around : Surroundings) :
    (∃ fault, store.beginEnroll platform corpusId input caller caps around = .error fault ∧
        (store.enrollSource platform corpusId input caller caps around).2 = store) ∨
      ∃ enrolling next, store.beginEnroll platform corpusId input caller caps around =
          .ok enrolling ∧
        (store.enrollSource platform corpusId input caller caps around).2 =
          store.setRecord corpusId next ∧
        next.enrollments = enrolling.record.enrollments.set input.sourceId
          (enrollmentOf corpusId input enrolling around) ∧
        next.state ≠ .deleting := by
  unfold enrollSource
  cases hbegin : store.beginEnroll platform corpusId input caller caps around with
  | error fault => exact .inl ⟨fault, rfl, rfl⟩
  | ok enrolling =>
    have hstate := (writable_not_deleting (beginEnroll_ok hbegin).1).2
    dsimp only
    split
    · exact .inr ⟨enrolling, _, rfl, rfl, rfl, hstate⟩
    · next settled hsettled =>
        exact .inr ⟨enrolling, _, rfl, rfl, rfl, settledState_ok hsettled hstate⟩

theorem enrollSource_moves {around : Surroundings}
    (hkeeps : keepsBindings platform store (.enrollSource corpusId input caller caps, around)) :
    Moves store (store.enrollSource platform corpusId input caller caps around).2 := by
  rcases enrollSource_cases platform store corpusId caller input caps around with
    ⟨_, -, hsame⟩ | ⟨enrolling, next, hbegin, hafter, hnext, hstate⟩
  · rw [hsame]
    exact .inl (idle_refl store)
  · obtain ⟨hwritable, hexisting⟩ := beginEnroll_ok hbegin
    have hget := (writable_not_deleting hwritable).1
    rw [hafter]
    refine .inr (.inr ⟨corpusId, enrolling.record, next,
      replaces_set hget (congrArg (setRecord · corpusId next) revoke_nil.symm) hnext hstate ?_⟩)
    intro existing hread henrolled binding hbinding
    simp only [keepsBindings, hbegin, hexisting, hread, Option.all_some, henrolled,
      Bool.not_true, Bool.false_or, List.all_eq_true, Bool.or_eq_true, List.contains_iff_mem]
      at hkeeps
    rw [List.append_nil]
    exact (hkeeps binding hbinding).symm.imp_right fun hmem => ⟨rfl, hmem⟩

/-- What an enrollment registers is held behind it. -/
theorem registered_held (h : registration ∈ registered platform store call) :
    Held (step platform store call) registration := by
  obtain ⟨call, around⟩ := call
  cases call with
  | enrollSource corpusId input caller caps =>
    rcases enrollSource_cases platform store corpusId caller input caps around with
      ⟨_, hbegin, -⟩ | ⟨enrolling, next, hbegin, hafter, hnext, -⟩
    · simp only [registered, hbegin] at h
      cases h
    · simp only [registered, hbegin] at h
      obtain ⟨_, hbinding, rfl⟩ := List.mem_map.1 h
      show Held (store.enrollSource platform corpusId input caller caps around).2 _
      have hget : next.enrollments.get? input.sourceId =
          some (enrollmentOf corpusId input enrolling around) := by
        rw [hnext]
        exact OrderedMap.get?_set_self ..
      rw [hafter]
      exact held_setRecord hget rfl hbinding
  | _ => cases h

theorem updateSource_moves (update : UpdateSourceInput) (around : Surroundings) :
    Moves store (store.updateSource corpusId sourceId update caller around).2 := by
  unfold updateSource
  cases hbegin : store.beginUpdate corpusId sourceId update caller around with
  | error fault => exact .inl (idle_refl store)
  | ok found =>
    obtain ⟨record, existing⟩ := found
    have hfound : store.requireEnrolled corpusId sourceId caller = .ok (record, existing) := by
      unfold beginUpdate at hbegin
      obtain ⟨_, hfound, hrest⟩ := bind_eq_ok.1 hbegin
      rw [check_bind_eq_ok, check_bind_eq_ok, check_bind_eq_ok] at hrest
      cases hrest.2.2.2
      exact hfound
    obtain ⟨hwritable, hget, _⟩ := requireEnrolled_ok hfound
    obtain ⟨hrecord, hstate⟩ := writable_not_deleting hwritable
    refine .inr (.inr ⟨corpusId, record, _, replaces_set hrecord
      (congrArg (setRecord · corpusId _) revoke_nil.symm) rfl hstate ?_⟩)
    intro other hread hother binding hbinding
    cases hget.symm.trans hread
    exact .inr ⟨hother, hbinding⟩

theorem removeSource_moves :
    Moves store (store.removeSource corpusId sourceId caller around).2 := by
  unfold removeSource
  cases hfound : store.requireEnrolled corpusId sourceId caller with
  | error fault => exact .inl (idle_refl store)
  | ok found =>
    obtain ⟨record, _⟩ := found
    obtain ⟨hwritable, hget, _⟩ := requireEnrolled_ok hfound
    obtain ⟨hrecord, hstate⟩ := writable_not_deleting hwritable
    dsimp only
    split
    · -- The bindings are revoked before the backend fails.
      exact .inl ⟨le_rfl, rfl, List.subset_append_left _ _⟩
    · refine .inr (.inr ⟨corpusId, record, _, replaces_set hrecord rfl rfl hstate ?_⟩)
      intro other hread hother binding hbinding
      cases hget.symm.trans hread
      exact .inl (List.mem_append_right _ hbinding)

/-- The bindings of an enrolled source are among those of the record. -/
theorem mem_enrolledBindings (hget : record.enrollments.get? sourceId = some enrollment)
    (henrolled : enrollment.enrolled = true)
    (hbinding : binding ∈ enrollment.sourceRecord.cacheBindings) :
    binding ∈ enrolledBindings record := by
  unfold enrolledBindings
  refine List.mem_flatMap.2 ⟨(sourceId, enrollment), record.enrollments.mem_entries_iff.2 hget, ?_⟩
  rw [if_pos henrolled]
  exact hbinding

/-- Revoking the access clears a record and revokes all that was enrolled. -/
theorem revokeAccess_clears (hcleared : record.state = .deleting → Cleared record) :
    Cleared (revokeAccess record).1 ∧
      ∀ sourceId enrollment, record.enrollments.get? sourceId = some enrollment →
        enrollment.enrolled = true → ∀ binding ∈ enrollment.sourceRecord.cacheBindings,
          binding ∈ (revokeAccess record).2 := by
  unfold revokeAccess
  split
  · next hstate =>
      refine ⟨hcleared hstate, fun sourceId enrollment hget henrolled => ?_⟩
      rw [hcleared hstate sourceId enrollment hget] at henrolled
      cases henrolled
  · refine ⟨fun sourceId enrollment hget => ?_,
      fun _ _ hget henrolled _ => mem_enrolledBindings hget henrolled⟩
    rw [OrderedMap.get?_mapValues] at hget
    obtain ⟨_, -, rfl⟩ := Option.map_eq_some_iff.1 hget
    unfold revokeEnrolled
    split
    · rfl
    · next hnot => exact Bool.eq_false_iff.2 hnot

/-- A deletion that passes its checks clears the record and revokes the bindings. -/
theorem deleteCorpus_cases : (store.deleteCorpus corpusId caller around).2 = store ∧
        (∃ fault, store.requireWritableRecord corpusId caller true = .error fault) ∨
      ∃ record next, store.requireWritableRecord corpusId caller true = .ok record ∧
        (store.deleteCorpus corpusId caller around).2 =
          (store.revoke (revokeAccess record).2).setRecord corpusId next ∧
        next.enrollments = (revokeAccess record).1.enrollments := by
  unfold deleteCorpus
  cases hwritable : store.requireWritableRecord corpusId caller true with
  | error fault => exact .inl ⟨rfl, fault, rfl⟩
  | ok record =>
    obtain ⟨-, -, hdeleted, -⟩ := requireWritableRecord_ok.1 hwritable
    dsimp only
    rw [if_neg fun h => hdeleted h.2]
    split
    · exact .inr ⟨record, _, rfl, rfl, rfl⟩
    · exact .inr ⟨record, _, rfl, rfl, rfl⟩

theorem deleteCorpus_moves
    (hcleared : ∀ record, store.records.get? corpusId = some record → record.state = .deleting →
      Cleared record) : Moves store (store.deleteCorpus corpusId caller around).2 := by
  rcases deleteCorpus_cases around with ⟨hsame, -⟩ | ⟨record, next, hwritable, hafter, hnext⟩
  · rw [hsame]
    exact .inl (idle_refl store)
  · obtain ⟨hget, -⟩ := requireWritableRecord_ok.1 hwritable
    obtain ⟨hclears, hrevoked⟩ := revokeAccess_clears (hcleared record hget)
    rw [hafter]
    refine .inr (.inr ⟨corpusId, record, next, rfl, hget, rfl, List.subset_append_left _ _, ?_, ?_⟩)
    · intro sourceId enrollment hread henrolled binding hbinding
      exact .inl (List.mem_append_right _ (hrevoked sourceId enrollment hread henrolled binding
        hbinding))
    · intro _ sourceId enrollment hread
      rw [hnext] at hread
      exact hclears sourceId enrollment hread

/-! ## Runs -/

/-- What holds of a store between two calls. -/
structure Consistent (store : CorpusStore) : Prop where
  numbered : ∀ corpusId record, store.records.get? corpusId = some record →
    ∃ n ≤ store.seq, Numbered corpusId n
  cleared : ∀ corpusId record, store.records.get? corpusId = some record →
    record.state = .deleting → Cleared record

theorem consistent_empty : Consistent empty where
  numbered _ _ h := nomatch h
  cleared _ _ h := nomatch h

/-- Every call that keeps bindings makes one of the moves. -/
theorem step_moves (h : Consistent store) (hkeeps : keepsBindings platform store call) :
    Moves store (step platform store call) := by
  obtain ⟨call, around⟩ := call
  cases call with
  | createCorpus input => exact createCorpus_moves input around
  | enrollSource corpusId input caller caps => exact enrollSource_moves hkeeps
  | updateSource corpusId sourceId update caller => exact updateSource_moves update around
  | removeSource corpusId sourceId caller => exact removeSource_moves around
  | deleteCorpus corpusId caller => exact deleteCorpus_moves around (h.cleared corpusId)

theorem Consistent.of_moves (h : Consistent store) (hmoves : Moves store after) :
    Consistent after := by
  rcases hmoves with hidle | ⟨corpusId, record, hcreates⟩ | ⟨corpusId, record, next, hreplaces⟩
  · refine ⟨fun corpusId record hget => ?_, fun corpusId record hget => ?_⟩
    · rw [hidle.records] at hget
      obtain ⟨n, hle, hnumbered⟩ := h.numbered corpusId record hget
      exact ⟨n, hle.trans hidle.seq, hnumbered⟩
    · rw [hidle.records] at hget
      exact h.cleared corpusId record hget
  · refine ⟨fun other found hget => ?_, fun other found hget => ?_⟩
    · rw [hcreates.records, OrderedMap.get?_set] at hget
      rw [hcreates.seq]
      split at hget
      · next heq => exact ⟨store.seq + 1, le_rfl, heq ▸ hcreates.numbered⟩
      · obtain ⟨n, hle, hnumbered⟩ := h.numbered other found hget
        exact ⟨n, hle.trans (Nat.le_succ _), hnumbered⟩
    · rw [hcreates.records, OrderedMap.get?_set] at hget
      split at hget
      · cases hget
        exact fun _ => hcreates.cleared
      · exact h.cleared other found hget
  · refine ⟨fun other found hget => ?_, fun other found hget => ?_⟩
    · rw [hreplaces.records, OrderedMap.get?_set] at hget
      rw [hreplaces.seq]
      split at hget
      · next heq => exact heq ▸ h.numbered corpusId record hreplaces.before
      · exact h.numbered other found hget
    · rw [hreplaces.records, OrderedMap.get?_set] at hget
      split at hget
      · cases hget
        exact hreplaces.cleared
      · exact h.cleared other found hget

theorem Moves.revoked (hmoves : Moves store after) :
    store.revokedCacheBindings ⊆ after.revokedCacheBindings := by
  rcases hmoves with hidle | ⟨_, _, hcreates⟩ | ⟨_, _, _, hreplaces⟩
  · exact hidle.revoked
  · exact hcreates.revoked ▸ List.Subset.refl _
  · exact hreplaces.revoked

/-- A registered binding stays revoked or enrolled. -/
theorem Held.of_moves (h : Held store registration) (hconsistent : Consistent store)
    (hmoves : Moves store after) : Held after registration := by
  rcases h with hrevoked | ⟨record, enrollment, hget, hread, henrolled, hbinding⟩
  · exact .inl (hmoves.revoked hrevoked)
  · rcases hmoves with hidle | ⟨corpusId, _, hcreates⟩ |
      ⟨corpusId, before, _, hreplaces⟩
    · exact .inr ⟨record, enrollment, hidle.records ▸ hget, hread, henrolled, hbinding⟩
    · -- The new corpus has a number that no other has.
      have hne : registration.corpusId ≠ corpusId := by
        rintro rfl
        obtain ⟨n, _, hnumbered⟩ := hconsistent.numbered _ record hget
        have heq := hnumbered.unique hcreates.numbered
        omega
      refine .inr ⟨record, enrollment, ?_, hread, henrolled, hbinding⟩
      rw [hcreates.records, OrderedMap.get?_set_of_ne _ hne]
      exact hget
    · by_cases heq : registration.corpusId = corpusId
      · obtain ⟨_, sourceId, binding⟩ := registration
        cases heq
        cases hreplaces.before.symm.trans hget
        exact hreplaces.kept sourceId enrollment hread henrolled binding hbinding
      · refine .inr ⟨record, enrollment, ?_, hread, henrolled, hbinding⟩
        rw [hreplaces.records, OrderedMap.get?_set_of_ne _ heq]
        exact hget

variable (platform) in
/-- Behind a withdrawal what was held is revoked. -/
theorem revoked_of_withdraws {call : Call} (hconsistent : Consistent store)
    (hwithdraws : Withdraws store call registration.corpusId registration.sourceId)
    (h : Held store registration) :
    registration.binding ∈ (step platform store (call, around)).revokedCacheBindings := by
  obtain ⟨_, sourceId, binding⟩ := registration
  cases call with
  | removeSource id source caller =>
    obtain ⟨rfl, rfl, ⟨record, existing⟩, hfound⟩ := hwithdraws
    obtain ⟨hwritable, hread, henrolled⟩ := requireEnrolled_ok hfound
    obtain ⟨hget, -⟩ := writable_not_deleting hwritable
    have hrevoked :
        binding ∈ (store.revoke existing.sourceRecord.cacheBindings).revokedCacheBindings := by
      rcases h with h | ⟨record', _, hget', hread', -, hbinding⟩
      · exact List.mem_append_left _ h
      · cases hget.symm.trans hget'
        cases hread.symm.trans hread'
        exact List.mem_append_right _ hbinding
    show binding ∈ (store.removeSource _ _ caller around).2.revokedCacheBindings
    unfold removeSource
    rw [hfound]
    dsimp only
    split <;> exact hrevoked
  | deleteCorpus id caller =>
    obtain ⟨rfl, _, hfound⟩ := hwithdraws
    show binding ∈ (store.deleteCorpus _ caller around).2.revokedCacheBindings
    rcases deleteCorpus_cases around with ⟨-, _, hfault⟩ |
      ⟨record, _, hwritable, hafter, -⟩
    · rw [hfound] at hfault
      cases hfault
    · obtain ⟨hget, -⟩ := requireWritableRecord_ok.1 hwritable
      obtain ⟨-, hrevoked⟩ := revokeAccess_clears (hconsistent.cleared _ record hget)
      rw [hafter]
      rcases h with h | ⟨_, existing, hget', hread, henrolled, hbinding⟩
      · exact List.mem_append_left _ h
      · cases hget.symm.trans hget'
        have hmem := hrevoked sourceId existing hread henrolled binding hbinding
        exact List.mem_append_right _ hmem
  | _ => exact False.elim hwithdraws

end Steps

/-- A store whose enrollments keep bindings lets no binding of a withdrawn source be hit. -/
theorem withdrawn_bindings_unhittable (platform : Platform) (calls : List (Call × Surroundings))
    (h : Each (step platform) (fun store call => keepsBindings platform store call = true) empty
      calls) : Unhittable platform calls := by
  rintro first ⟨call, around⟩ later rfl registration hmem hwithdraws
  have hstep : ∀ store call, Consistent store → keepsBindings platform store call = true →
      Consistent (step platform store call) :=
    fun _ _ hstore hkeeps => hstore.of_moves (step_moves hstore hkeeps)
  obtain ⟨hfirst, hrest⟩ := h.append
  obtain ⟨hcall, hlater⟩ := hrest
  have hstore : Consistent (run (step platform) empty first) :=
    hfirst.keeps hstep consistent_empty
  have hheld : Held (run (step platform) empty first) registration :=
    collect_holds Consistent Held hstep
      (fun _ _ _ hstore hkeeps hheld => hheld.of_moves hstore (step_moves hstore hkeeps))
      (fun _ _ _ _ _ hmem => registered_held hmem) hfirst consistent_empty registration hmem
  have hrevoked := revoked_of_withdraws platform around hstore hwithdraws hheld
  have hkept : ∀ store call,
      Consistent store ∧ registration.binding ∈ store.revokedCacheBindings →
        keepsBindings platform store call = true →
          Consistent (step platform store call) ∧
            registration.binding ∈ (step platform store call).revokedCacheBindings :=
    fun store call hinv hkeeps =>
      ⟨hstep store call hinv.1 hkeeps, (step_moves hinv.1 hkeeps).revoked hinv.2⟩
  have hend := (hlater.keeps hkept ⟨hstep _ _ hstore hcall, hrevoked⟩).2
  rw [run_append]
  show (run (step platform) (step platform _ (call, around)) later).isCacheBindingHittable _ = _
  unfold isCacheBindingHittable
  rw [Bool.not_eq_false', List.contains_iff_mem]
  exact hend

/-! ## Samples -/

/-- The digest of the sample's corpus. -/
def samplePlatform : Platform where
  sha256 text :=
    if text = "t:o:d:1" then
      ⟨"c2cfa35e8bd1c365675bf7ef5dc6b8875a4c4a604ff3a07188ced05ca38fe1fe", by decide +kernel⟩
    else ⟨String.ofList (.replicate 64 '0'), by decide +kernel⟩
  dates := .iso

/-- A backend without failures at the beginning of time. -/
def sampleSurroundings : Surroundings where
  createIndex := .ok "idx-mem-0001"
  enrollDocument := .ok ()
  removeDocument := .ok ()
  deleteIndex := .ok ()
  backendHealthy := .ok true
  indexHealthy := .ok true
  checkedAt := ⟨0, by decide⟩
  writtenAt := ⟨0, by decide⟩

def sampleCorpusId : String := "gl-corpus-0001c2cfa35e8bd1"

/-- An enrollment of the sample's source with some bindings. -/
def sampleEnrollment (cacheBindings : Option (List String)) : EnrollSourceInput where
  sourceId := "s"
  contentHash := "h"
  acl := ["r"]
  deletionPolicy := "p"
  lifecycleProvenance := "l"
  citationProvenance := "c"
  callerExpiresAt := none
  cacheBindings := cacheBindings

def sampleOwner : CallerPrincipal := ⟨"o", []⟩

/-- A source is enrolled with the binding `"b"` and enrolled again with other bindings. -/
def sampleCalls (cacheBindings : Option (List String)) : List (Call × Surroundings) :=
  [.createCorpus ⟨"d", "o", "t", none, none⟩,
    .enrollSource sampleCorpusId (sampleEnrollment (some ["b"])) sampleOwner none,
    .enrollSource sampleCorpusId (sampleEnrollment cacheBindings) sampleOwner none].map
      fun call => (call, sampleSurroundings)

def sampleRemoval : Call := .removeSource sampleCorpusId "s" sampleOwner

theorem withdrawn_bindings_unhittable_sample :
    Unhittable samplePlatform
      (sampleCalls (some ["b", "b'"]) ++ [(sampleRemoval, sampleSurroundings)]) :=
  withdrawn_bindings_unhittable samplePlatform _ (by decide +kernel)

/-- The binding that the second enrollment leaves out can be hit behind the removal. -/
theorem left_out_binding_hittable :
    ¬ Unhittable samplePlatform
      (sampleCalls none ++ [(sampleRemoval, sampleSurroundings)]) := by
  intro h
  have hhittable : (run (step samplePlatform) empty (sampleCalls none ++
      [(sampleRemoval, sampleSurroundings)])).isCacheBindingHittable "b" = true := by
    decide +kernel
  have hregistered : ⟨sampleCorpusId, "s", "b"⟩ ∈
      collect (step samplePlatform) (registered samplePlatform) empty (sampleCalls none) := by
    decide +kernel
  have haccepted : ((run (step samplePlatform) empty (sampleCalls none)).requireEnrolled
      sampleCorpusId "s" sampleOwner).isOk = true := by
    decide +kernel
  cases hfound : (run (step samplePlatform) empty (sampleCalls none)).requireEnrolled
      sampleCorpusId "s" sampleOwner with
  | error fault =>
      rw [hfound] at haccepted
      cases haccepted
  | ok found =>
      have hmissed := h _ (sampleRemoval, sampleSurroundings) [] rfl _ hregistered
        ⟨rfl, rfl, found, hfound⟩
      rw [hhittable] at hmissed
      cases hmissed

end CorpusStore

end Groundlane.MemoryCorpora
