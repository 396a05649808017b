import Groundlane.Durable.Store

/-!
# Reasoning about programs over the durable stores

`Step.record_cases` and `Step.blob_cases` say once what a single event can do to the record
under a key and to a blob; every invariant of a subsystem is derived from these two and from
what its guarantee says about the event. The rules below them give each port as a step of a
safe program: the checks of the adapter come first and may raise, then the operation happens.
-/

namespace Groundlane

open Fenced Interleaving

variable {blobKey ownerId digest : String} {key : String} {expiresAt : Option Int} {nowMs : Int}
  {expectedRevision : Nat} {maxBytes : Int}

section Safety

variable {Call V B P α γ : Type} {PR : P → Type} [ByteString B]

/-- The calls `main` over the durable stores. -/
def system (sha256 : Sha256 B) (main : Call → Io PR V B α) :
    System Call (Op V B P) (Op.Res PR) Fault α (Disk V B) (Oracle PR) where
  main := main
  exec := exec sha256

/-- A world of such calls. -/
abbrev DiskWorld {P : Type} (PR : P → Type) (Call V B α : Type) : Type :=
  World Call (Op V B P) (Op.Res PR) Fault α (Disk V B)

/-- An event of such calls. -/
abbrev DiskEvent {P : Type} (PR : P → Type) (Call V B α : Type) : Type :=
  Event Call (Op V B P) (Op.Res PR) Fault α

variable {sha256 : Sha256 B} {main : Call → Io PR V B α} {value : V} {request : P} {bytes : B}

section Steps

variable {i : Nat} {before after : DiskWorld PR Call V B α} {event : DiskEvent PR Call V B α}

/-- What an event does to the record under `key`: nothing, or it creates, replaces or deletes
it. -/
theorem Step.record_cases (h : (system sha256 main).Step i event before after) (key : String) :
    after.state.records.get key = before.state.records.get key ∨
      (∃ value nowMs expiresAt,
        event = .effect (.createIfAbsent key value nowMs expiresAt)
          (.created ⟨key, value, 1, nowMs, nowMs, expiresAt⟩) ∧
        before.state.records.get key = none ∧
        after.state.records.get key = some ⟨key, value, 1, nowMs, nowMs, expiresAt⟩) ∨
      (∃ current value nowMs expiresAt,
        event = .effect (.compareAndSwap key current.revision value nowMs expiresAt)
          (.updated ⟨key, value, current.revision + 1, current.createdAt, nowMs, expiresAt⟩) ∧
        before.state.records.get key = some current ∧
        after.state.records.get key =
          some ⟨key, value, current.revision + 1, current.createdAt, nowMs, expiresAt⟩) ∨
      ∃ current, event = .effect (.deleteIfRevision key current.revision) .deleted ∧
        before.state.records.get key = some current ∧ after.state.records.get key = none := by
  cases event with
  | invoke call => exact .inl (by rw [h.invoke_state])
  | response outcome => exact .inl (by rw [h.response_state])
  | effect op answer =>
    obtain ⟨_, hexec⟩ := h.exec_eq
    cases op with
    | createIfAbsent key' value nowMs expiresAt =>
      obtain ⟨hstate, rfl⟩ := Prod.mk.inj hexec
      rw [← hstate]
      by_cases hkey : key' = key
      · subst hkey
        rcases Store.createIfAbsent_cases before.state.records key' value nowMs expiresAt with
          ⟨_, _, heq⟩ | ⟨hnone, heq⟩
        · exact .inl (by simp [heq])
        · exact .inr (.inl ⟨value, nowMs, expiresAt, by simp [heq], hnone, by simp [heq]⟩)
      · exact .inl (Store.get_createIfAbsent_of_ne hkey)
    | compareAndSwap key' expectedRevision value nowMs expiresAt =>
      obtain ⟨hstate, rfl⟩ := Prod.mk.inj hexec
      rw [← hstate]
      by_cases hkey : key' = key
      · subst hkey
        rcases Store.compareAndSwap_cases before.state.records key' expectedRevision value
          nowMs expiresAt with ⟨_, heq⟩ | ⟨_, _, _, heq⟩ | ⟨current, hget, rfl, heq⟩
        · exact .inl (by simp [heq])
        · exact .inl (by simp [heq])
        · exact .inr (.inr (.inl ⟨current, value, nowMs, expiresAt, by simp [heq], hget,
            by simp [heq, hget]⟩))
      · exact .inl (Store.get_compareAndSwap_of_ne hkey)
    | deleteIfRevision key' expectedRevision =>
      obtain ⟨hstate, rfl⟩ := Prod.mk.inj hexec
      rw [← hstate]
      by_cases hkey : key' = key
      · subst hkey
        rcases Store.deleteIfRevision_cases before.state.records key' expectedRevision with
          ⟨_, heq⟩ | ⟨_, _, _, heq⟩ | ⟨current, hget, rfl, heq⟩
        · exact .inl (by simp [heq])
        · exact .inl (by simp [heq])
        · exact .inr (.inr (.inr ⟨current, by simp [heq], hget, by simp [heq]⟩))
      · exact .inl (Store.get_deleteIfRevision_of_ne hkey)
    | _ =>
      obtain ⟨hstate, -⟩ := Prod.mk.inj hexec
      exact .inl (by rw [← hstate])

/-- While the record under its key is not deleted, a record that was read is still there, or a
later one is. -/
theorem Step.seen (h : (system sha256 main).Step i event before after) {record : Record String V}
    (hseen : Store.Seen record before.state.records)
    (hkept : ∀ revision, event ≠ .effect (.deleteIfRevision record.key revision) .deleted) :
    Store.Seen record after.state.records := by
  obtain ⟨current, hget, hle, heq⟩ := hseen
  rcases Step.record_cases h record.key with
    hsame | ⟨_, _, _, _, hnone, _⟩ | ⟨found, _, _, _, _, hfound, hafter⟩ | ⟨_, hdelete, _, _⟩
  · exact ⟨current, hsame.trans hget, hle, heq⟩
  · simp [hnone] at hget
  · obtain rfl : found = current := Option.some.inj (hfound.symm.trans hget)
    exact ⟨_, hafter, Nat.le_succ_of_le hle, fun hrevision => absurd hrevision (by simp; omega)⟩
  · exact absurd hdelete (hkept _)

/-- What an event does to the blob under `blobKey`: nothing, or it creates or deletes it. -/
theorem Step.blob_cases (h : (system sha256 main).Step i event before after) (blobKey : String) :
    after.state.blobs blobKey = before.state.blobs blobKey ∨
      (∃ blob : Blob B, event = .effect (.putIfAbsent blobKey blob.ownerId blob.digest blob.bytes)
          (.created (blob.stat blobKey)) ∧
        before.state.blobs blobKey = none ∧ after.state.blobs blobKey = some blob) ∨
      ∃ blob : Blob B, event = .effect (.deleteIfOwner blobKey blob.ownerId) .deleted ∧
        before.state.blobs blobKey = some blob ∧ after.state.blobs blobKey = none := by
  cases event with
  | invoke call => exact .inl (by rw [h.invoke_state])
  | response outcome => exact .inl (by rw [h.response_state])
  | effect op answer =>
    obtain ⟨_, hexec⟩ := h.exec_eq
    cases op with
    | putIfAbsent key' ownerId digest bytes =>
      obtain ⟨hstate, rfl⟩ := Prod.mk.inj hexec
      rw [← hstate]
      cases hblob : before.state.blobs key' with
      | some existing => exact .inl (by simp [putBlob, hblob])
      | none =>
        by_cases hkey : key' = blobKey
        · subst hkey
          exact .inr (.inl ⟨⟨ownerId, digest, bytes⟩, by simp [putBlob, hblob], hblob,
            by simp [putBlob, hblob]⟩)
        · exact .inl (by simp [putBlob, hblob, Function.update_of_ne (Ne.symm hkey)])
    | deleteIfOwner key' ownerId =>
      obtain ⟨hstate, rfl⟩ := Prod.mk.inj hexec
      rw [← hstate]
      cases hblob : before.state.blobs key' with
      | none => exact .inl (by simp [deleteBlob, hblob])
      | some existing =>
        by_cases howner : existing.ownerId = ownerId
        · by_cases hkey : key' = blobKey
          · subst hkey
            exact .inr (.inr ⟨existing, by simp [deleteBlob, hblob, howner], hblob,
              by simp [deleteBlob, hblob, howner]⟩)
          · exact .inl (by
              simp [deleteBlob, hblob, howner, Function.update_of_ne (Ne.symm hkey)])
        · exact .inl (by simp [deleteBlob, hblob, howner])
    | _ =>
      obtain ⟨hstate, -⟩ := Prod.mk.inj hexec
      exact .inl (by rw [← hstate])

/-- A read answers with the stored record and changes nothing. -/
theorem Step.get_answer {answer : Option (Record String V)}
    (h : (system sha256 main).Step i (.effect (.get key) answer) before after) :
    answer = before.state.records.get key ∧ after.state = before.state := by
  obtain ⟨_, hexec⟩ := h.exec_eq
  exact ⟨(Prod.mk.inj hexec).2.symm, (Prod.mk.inj hexec).1.symm⟩

/-- A question to someone else changes nothing. -/
theorem Step.port_state {answer : PR request}
    (h : (system sha256 main).Step i (.effect (.port request) answer) before after) :
    after.state = before.state := by
  obtain ⟨_, hexec⟩ := h.exec_eq
  exact (Prod.mk.inj hexec).1.symm

/-- Whether or not it created it, the record that a creation answers with is stored after it. -/
theorem Step.createIfAbsent_answer {answer : CreateResult String V} (h : (system sha256 main).Step i
      (.effect (.createIfAbsent key value nowMs expiresAt) answer) before after) :
    after.state.records.get key = some answer.record ∧
      ((∃ record, answer = .existing record ∧ before.state.records.get key = some record) ∨
        (answer = .created ⟨key, value, 1, nowMs, nowMs, expiresAt⟩ ∧
          before.state.records.get key = none)) := by
  obtain ⟨_, hexec⟩ := h.exec_eq
  obtain ⟨hstate, rfl⟩ := Prod.mk.inj hexec
  rw [← hstate]
  rcases Store.createIfAbsent_cases before.state.records key value nowMs expiresAt with
    ⟨record, hget, heq⟩ | ⟨hnone, heq⟩
  · simp [heq, hget, CreateResult.record]
  · simp [heq, hnone, CreateResult.record]

/-- What a compare-and-swap answers. -/
theorem Step.compareAndSwap_answer {answer : CasResult String V} (h : (system sha256 main).Step i
      (.effect (.compareAndSwap key expectedRevision value nowMs expiresAt) answer) before after) :
    (answer = .missing ∧ before.state.records.get key = none) ∨
      (∃ current, answer = .conflict current ∧ before.state.records.get key = some current ∧
        current.revision ≠ expectedRevision ∧ after.state.records.get key = some current) ∨
      ∃ current, answer = .updated
          ⟨key, value, current.revision + 1, current.createdAt, nowMs, expiresAt⟩ ∧
        before.state.records.get key = some current ∧ current.revision = expectedRevision ∧
        after.state.records.get key =
          some ⟨key, value, current.revision + 1, current.createdAt, nowMs, expiresAt⟩ := by
  obtain ⟨_, hexec⟩ := h.exec_eq
  obtain ⟨hstate, rfl⟩ := Prod.mk.inj hexec
  rw [← hstate]
  rcases Store.compareAndSwap_cases before.state.records key expectedRevision value nowMs
    expiresAt with ⟨hget, heq⟩ | ⟨_, hget, hne, heq⟩ | ⟨_, hget, hrevision, heq⟩
  · simp [heq, hget]
  · simp [heq, hget, hne]
  · simp [heq, hget, hrevision]

/-- Whether or not it created it, a blob of that description is stored after a put that met no
other blob. -/
theorem Step.putIfAbsent_answer {answer : BlobPutResult} (h : (system sha256 main).Step i
      (.effect (.putIfAbsent blobKey ownerId digest bytes) answer) before after) :
    (∃ stat, answer = .conflict stat) ∨ ∃ blob, after.state.blobs blobKey = some blob ∧
      blob.stat blobKey = (⟨ownerId, digest, bytes⟩ : Blob B).stat blobKey := by
  obtain ⟨_, hexec⟩ := h.exec_eq
  obtain ⟨hstate, rfl⟩ := Prod.mk.inj hexec
  rw [← hstate]
  cases hblob : before.state.blobs blobKey with
  | none => exact .inr ⟨⟨ownerId, digest, bytes⟩, by simp [putBlob, hblob]⟩
  | some existing =>
    by_cases hsame : existing.stat blobKey = (⟨ownerId, digest, bytes⟩ : Blob B).stat blobKey
    · exact .inr ⟨existing, by simp [putBlob, hblob], hsame⟩
    · exact .inl ⟨existing.stat blobKey, by simp [putBlob, hblob, hsame]⟩

/-- After a deletion by its owner no blob is stored. -/
theorem Step.deleteIfOwner_answer {blobKey ownerId : String} {answer : BlobDeleteResult}
    (h : (system sha256 main).Step i (.effect (.deleteIfOwner blobKey ownerId) answer) before
      after) : answer = .ownerMismatch ∨ after.state.blobs blobKey = none := by
  obtain ⟨_, hexec⟩ := h.exec_eq
  obtain ⟨hstate, rfl⟩ := Prod.mk.inj hexec
  rw [← hstate]
  cases hblob : before.state.blobs blobKey with
  | none => exact .inr (by simp [deleteBlob, hblob])
  | some existing =>
    by_cases howner : existing.ownerId = ownerId
    · exact .inr (by simp [deleteBlob, hblob, howner])
    · exact .inl (by simp [deleteBlob, hblob, howner])

end Steps

/-! ## The ports as safe programs -/

section Rules

variable {G : Guarantee Call (Op V B P) (Op.Res PR) Fault α (Disk V B)}
  {R : DiskWorld PR Call V B α → DiskWorld PR Call V B α → Prop} {i : Nat}
  {world : DiskWorld PR Call V B α}

theorem Safe.get (h : ∀ now, R world now →
      G i (.effect (.get key) (now.state.records.get key)) now) : Safe (system sha256 main) G R i
      (Returning (Performed (system sha256 main) G R i world (.get key)))
      (get key) world :=
  Safe.check fun _ _ => Safe.request fun now _ hnow => h now hnow

theorem Safe.createIfAbsent [Stored V]
    (h : ∀ now answer, R world now → validateDurableWrite value nowMs expiresAt = .ok () →
      G i (.effect (.createIfAbsent key value nowMs expiresAt) answer) now) :
    Safe (system sha256 main) G R i
      (Returning (Performed (system sha256 main) G R i world
        (.createIfAbsent key value nowMs expiresAt)))
      (createIfAbsent key value nowMs expiresAt) world :=
  Safe.check fun _ _ => Safe.check fun _ hwrite => Safe.request fun now _ hnow =>
    h now _ hnow hwrite

theorem Safe.compareAndSwap [Stored V]
    (h : ∀ now answer, R world now → validateDurableWrite value nowMs expiresAt = .ok () →
      G i (.effect (.compareAndSwap key expectedRevision value nowMs expiresAt) answer) now) :
    Safe (system sha256 main) G R i
      (Returning (Performed (system sha256 main) G R i world
        (.compareAndSwap key expectedRevision value nowMs expiresAt)))
      (compareAndSwap key expectedRevision value nowMs expiresAt) world :=
  Safe.check fun _ _ => Safe.check fun _ hwrite => Safe.check fun _ _ =>
    Safe.request fun now _ hnow => h now _ hnow hwrite

theorem Safe.deleteIfRevision (h : ∀ now answer, R world now →
      G i (.effect (.deleteIfRevision key expectedRevision) answer) now) :
    Safe (system sha256 main) G R i
      (Returning (Performed (system sha256 main) G R i world
        (.deleteIfRevision key expectedRevision)))
      (deleteIfRevision key expectedRevision) world :=
  Safe.check fun _ _ => Safe.check fun _ _ => Safe.request fun now _ hnow => h now _ hnow

theorem Safe.scanExpired {cursor : Option String} {limit : Nat} (h : ∀ now answer, R world now →
      G i (.effect (.scanExpired nowMs cursor limit) answer) now) : Safe (system sha256 main) G R i
      (Returning (Performed (system sha256 main) G R i world (.scanExpired nowMs cursor limit)))
      (scanExpired nowMs cursor limit) world :=
  Safe.check fun _ _ => Safe.request fun now _ hnow => h now _ hnow

theorem Safe.putIfAbsent (h : ∀ now answer, R world now →
      G i (.effect (.putIfAbsent blobKey ownerId digest bytes) answer) now) :
    Safe (system sha256 main) G R i
      (Returning (Performed (system sha256 main) G R i world
        (.putIfAbsent blobKey ownerId digest bytes)))
      (putIfAbsent sha256 blobKey ownerId digest bytes) world := by
  refine Safe.check fun _ _ => Safe.check fun _ _ => Safe.check fun _ _ => ?_
  split
  · exact Safe.raise
  · exact Safe.request fun now _ hnow => h now _ hnow

theorem Safe.stat {blobKey : String}
    (h : ∀ now answer, R world now → G i (.effect (.stat blobKey) answer) now) :
    Safe (system sha256 main) G R i
      (Returning (Performed (system sha256 main) G R i world (.stat blobKey)))
      (stat sha256 blobKey) world :=
  Safe.check fun _ _ => Safe.request fun now _ hnow => h now _ hnow

/-- The bytes that are returned are those that the read answered with. -/
theorem Safe.getBlob (hR : ∀ world now, R world now → Evolves (system sha256 main) G world now)
    (h : ∀ now answer, R world now →
      G i (.effect (.getBlob blobKey ownerId digest maxBytes) answer) now) :
    Safe (system sha256 main) G R i
      (Returning fun bytes => Performed (system sha256 main) G R i world
        (.getBlob blobKey ownerId digest maxBytes) (.ok bytes))
      (getBlob sha256 blobKey ownerId digest maxBytes) world := by
  refine Safe.check fun _ _ => Safe.check fun _ _ => Safe.check fun _ _ => ?_
  refine Safe.andThen hR (Safe.request fun now _ hnow => h now _ hnow) ?_
  intro answer now _ hperformed
  refine Safe.ofExcept fun bytes hbytes => ?_
  subst hbytes
  exact hperformed

theorem Safe.deleteIfOwner {blobKey ownerId : String}
    (h : ∀ now answer, R world now → G i (.effect (.deleteIfOwner blobKey ownerId) answer) now) :
    Safe (system sha256 main) G R i
      (Returning (Performed (system sha256 main) G R i world (.deleteIfOwner blobKey ownerId)))
      (deleteIfOwner sha256 blobKey ownerId) world :=
  Safe.check fun _ _ => Safe.request fun now _ hnow => h now _ hnow

theorem Safe.ask (h : ∀ now answer, R world now → G i (.effect (.port request) answer) now) :
    Safe (system sha256 main) G R i
      (Returning (Performed (system sha256 main) G R i world (.port request)))
      (ask request) world :=
  Safe.request fun now _ hnow => h now _ hnow

end Rules

end Safety

/-! ## The answers of the ports -/

section Paths

variable {V B P : Type} {PR : P → Type} {effects : List (Σ op : Op V B P, op.Res PR)}

/-- A read that has returned performed one operation and returned its answer. -/
theorem path_get {answer : Option (Record String V)}
    (h : Program.Path (get key : Io PR V B _) effects (.done answer)) :
    effects = [⟨.get key, answer⟩] := by
  obtain ⟨_, -, h⟩ := h.check
  exact Program.path_request_iff.1 h

/-- A read of bytes that has returned performed one operation and returned its answer. -/
theorem path_getBlob {sha256 : Sha256 B} {bytes : Option B}
    (h : Program.Path (getBlob sha256 blobKey ownerId digest maxBytes : Io PR V B _) effects
      (.done bytes)) : effects = [⟨.getBlob blobKey ownerId digest maxBytes, .ok bytes⟩] := by
  obtain ⟨_, -, h⟩ := h.check
  obtain ⟨_, -, h⟩ := h.check
  obtain ⟨_, -, h⟩ := h.check
  obtain ⟨_, _, answer, rfl, hrequest, hrest⟩ := h.bind_done
  obtain rfl := Program.path_request_iff.1 hrequest
  cases answer with
  | ok found =>
    obtain ⟨rfl, heq⟩ := Program.path_done_iff.1 hrest
    cases heq
    rfl
  | error error => exact absurd hrest Program.not_path_raise

end Paths

/-! ## How often an operation can occur -/

section Bounds

variable {V B P : Type} {PR : P → Type}

/-- The questions to a port that pass a test. -/
def asks (test : P → Bool) : Op V B P → Bool
  | .port request => test request
  | _ => false

variable {kind : Op V B P → Bool}

theorem atMost_get (h : kind (.get key) = false) :
    Program.AtMost kind 0 (get key : Io PR V B (Option (Record String V))) :=
  .check fun _ => Program.atMost_request h

variable {sha256 : Sha256 B} {value : V}

theorem atMost_createIfAbsent [Stored V]
    (h : kind (.createIfAbsent key value nowMs expiresAt) = false) : Program.AtMost kind 0
      (createIfAbsent key value nowMs expiresAt : Io PR V B (CreateResult String V)) :=
  .check fun _ => .check fun _ => Program.atMost_request h

theorem atMost_compareAndSwap [Stored V]
    (h : kind (.compareAndSwap key expectedRevision value nowMs expiresAt) = false) :
    Program.AtMost kind 0 (compareAndSwap key expectedRevision value nowMs expiresAt :
      Io PR V B (CasResult String V)) :=
  .check fun _ => .check fun _ => .check fun _ => Program.atMost_request h

theorem atMost_putIfAbsent [ByteString B] {bytes : B}
    (h : kind (.putIfAbsent blobKey ownerId digest bytes) = false) : Program.AtMost kind 0
      (putIfAbsent sha256 blobKey ownerId digest bytes : Io PR V B BlobPutResult) := by
  refine .check fun _ => .check fun _ => .check fun _ => ?_
  split
  · exact Program.atMost_raise ..
  · exact Program.atMost_request h

theorem atMost_getBlob (h : kind (.getBlob blobKey ownerId digest maxBytes) = false) :
    Program.AtMost kind 0 (getBlob sha256 blobKey ownerId digest maxBytes : Io PR V B (Option B)) :=
  .check fun _ => .check fun _ => .check fun _ =>
    (Program.atMost_request h).andThen fun _ => Program.atMost_ofExcept ..

theorem atMost_ask {request : P} (h : kind (.port request) = false) :
    Program.AtMost kind 0 (ask request : Io PR V B (PR request)) :=
  Program.atMost_request h

end Bounds

end Groundlane
