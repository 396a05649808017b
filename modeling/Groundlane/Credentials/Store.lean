import Groundlane.Interleaving.RelyGuarantee
import Groundlane.Credentials.Record

/-!
# The two credential stores

`FakeManagedTokenStore` of `worker/managed-tokens.ts` and `D1ManagedTokenStore` of
`worker/d1-managed-store.ts` over one table of credentials, each operation of which happens at one
moment (`exec`). A statement of the database can fail before it takes effect or after, and the
reads that classify a failure can fail as well.

`Changes` lists what an operation can do to the credentials, whichever store performs it
(`exec_changes`).
-/

namespace Groundlane.Credentials

open Interleaving

/-! ## Credentials and replays -/

/-- The credentials by their public identifier. -/
abbrev Rows : Type := Sql.Table String ManagedCredentialRecord ManagedCredentialRecord.id

/-- What a rotation changes in the predecessor. -/
structure RotateUpdate where
  status : ManagedStoredStatus
  validUntil : Option Int
  rotatedTo : Option String
  updatedAt : Int
deriving DecidableEq, Repr

/-- The answer to `tryRotate`. -/
inductive Transition where
  | ok
  | conflict (reason : String)
deriving DecidableEq, Repr

/-- `RotateIdempotencyStore`: at most 200 keys with the successors they led to, oldest first. -/
abbrev Replays : Type := List (String × String)

def Replays.set (replays : Replays) (key newId : String) : Replays :=
  let kept := if 200 ≤ replays.length then replays.tail else replays
  if kept.any fun entry => entry.1 == key then
    kept.map fun entry => if entry.1 = key then (key, newId) else entry
  else kept ++ [(key, newId)]

/-- The credentials, which all processes share, and the replays of each process. -/
structure Registry where
  rows : Rows
  replays : Nat → Replays

/-! ## Operations -/

/-- An operation of a store, of a process's replays, of its clock or of its source of random
bytes. -/
inductive Query where
  | getById (id : String)
  | insert (record : ManagedCredentialRecord)
  | tryRotate (oldId : String) (oldUpdate : RotateUpdate) (next : ManagedCredentialRecord)
  | revokeById (id : String) (now : Int)
  | expireById (id : String) (now : Int)
  | replay (process : Nat) (key : String)
  | remember (process : Nat) (key newId : String)
  | now
  | random (byteLength : Nat)
deriving DecidableEq

/-- The answer to each operation; an operation of a store can throw. -/
abbrev Query.Res : Query → Type
  | getById _ => Except ManagedTokenError (Option ManagedCredentialRecord)
  | insert _ => Except ManagedTokenError Unit
  | tryRotate .. => Except ManagedTokenError Transition
  | revokeById .. => Except ManagedTokenError (Option ManagedCredentialRecord)
  | expireById .. => Except ManagedTokenError (Option ManagedCredentialRecord)
  | replay .. => Option String
  | remember .. => Unit
  | now => Int
  | random _ => List UInt8

/-- What becomes of a statement: it is served, it fails without an effect, or its answer is lost
after it took effect. -/
inductive Service where
  | served
  | refused
  | lost
deriving DecidableEq, Repr

/-- What the stores do not determine. The second and the third flag let the reads fail that
follow a statement. -/
structure Outside where
  service : Service
  readFails : Bool
  laterReadFails : Bool
  now : Int
  byte : Nat → UInt8

def storageUnavailable : ManagedTokenError :=
  ⟨.storageUnavailable, "auth store unavailable"⟩

def idCollision : ManagedTokenError :=
  ⟨.duplicateId, "credential id collision"⟩

/-- Active and without a successor. -/
def isEligible (row : ManagedCredentialRecord) : Bool :=
  decide (row.status = .active) && row.rotatedTo.isNone

/-- The predecessor as a rotation leaves it. -/
def ManagedCredentialRecord.rotatedBy (row : ManagedCredentialRecord) (oldUpdate : RotateUpdate)
    (status : ManagedStoredStatus) : ManagedCredentialRecord :=
  { row with
    status := status
    validUntil := oldUpdate.validUntil
    rotatedTo := oldUpdate.rotatedTo
    updatedAt := oldUpdate.updatedAt }

variable (row : ManagedCredentialRecord) (outside : Outside) {record : ManagedCredentialRecord}
  (rows : Rows) (now : Int) {change : ManagedCredentialRecord → ManagedCredentialRecord}
  (id : String) {condition : ManagedCredentialRecord → Bool}

theorem ManagedCredentialRecord.rotatedBy_id (oldUpdate : RotateUpdate)
    (status : ManagedStoredStatus) (row : ManagedCredentialRecord) :
    (row.rotatedBy oldUpdate status).id = row.id := rfl

/-! ### The store in memory -/

namespace Memory

def insert (record : ManagedCredentialRecord) (rows : Rows) :
    Rows × Except ManagedTokenError Unit :=
  match rows.insert record with
  | none => (rows, .error idCollision)
  | some (after, _) => (after, .ok ())

def tryRotate (oldId : String) (oldUpdate : RotateUpdate) (next : ManagedCredentialRecord)
    (rows : Rows) : Rows × Transition :=
  match rows.find oldId with
  | none => (rows, .conflict "not_found")
  | some current =>
    if current.status ≠ .active then (rows, .conflict ("status:" ++ current.status.text))
    else if current.rotatedTo ≠ none then (rows, .conflict "already_rotated")
    else match rows.insert next with
      | none => (rows, .conflict "id_collision")
      | some (after, _) =>
        if next.rotatedFrom ≠ some oldId ∨ oldUpdate.rotatedTo ≠ some next.id then
          (rows, .conflict "lineage_mismatch")
        else ((after.update (fun row => decide (row.id = oldId))
          (fun row => row.rotatedBy oldUpdate oldUpdate.status)
          (ManagedCredentialRecord.rotatedBy_id oldUpdate oldUpdate.status)).1, .ok)

/-- The credential after its revocation. -/
def revoked (now : Int) (row : ManagedCredentialRecord) : ManagedCredentialRecord :=
  { row with status := .revoked, revokedAt := some now, updatedAt := now }

theorem revoked_id (row : ManagedCredentialRecord) : (revoked now row).id = row.id :=
  rfl

def revokeById (id : String) (now : Int) (rows : Rows) : Rows × Option ManagedCredentialRecord :=
  match rows.find id with
  | none => (rows, none)
  | some current =>
    if current.status = .revoked then (rows, some current)
    else ((rows.update (fun row => decide (row.id = id)) (revoked now) (revoked_id now)).1,
      some (revoked now current))

/-- The credential after a forced expiry. -/
def expired (now : Int) (row : ManagedCredentialRecord) : ManagedCredentialRecord :=
  { row with expiresAt := min row.expiresAt now, updatedAt := now }

theorem expired_id (row : ManagedCredentialRecord) : (expired now row).id = row.id :=
  rfl

def expireById (id : String) (now : Int) (rows : Rows) : Rows × Option ManagedCredentialRecord :=
  match rows.find id with
  | none => (rows, none)
  | some current =>
    ((rows.update (fun row => decide (row.id = id)) (expired now) (expired_id now)).1,
      some (expired now current))

end Memory

/-! ### The store in the database -/

namespace D1

/-- Rows without an identifier or a verifier are refused. -/
def mapCredentialRow (row : ManagedCredentialRecord) :
    Except ManagedTokenError ManagedCredentialRecord :=
  if row.id = "" ∨ row.verifier = "" then .error storageUnavailable else .ok row

def selectById (fails : Bool) (id : String) (rows : Rows) :
    Except ManagedTokenError (Option ManagedCredentialRecord) :=
  if fails then .error storageUnavailable
  else match rows.find id with
    | none => .ok none
    | some row => (mapCredentialRow row).map some

def insert (outside : Outside) (record : ManagedCredentialRecord) (rows : Rows) :
    Rows × Except ManagedTokenError Unit :=
  let written := if outside.service = .refused then none else rows.insert record
  let after := written.elim rows Prod.fst
  if written.isSome && decide (outside.service = .served) then (after, .ok ())
  else (after, match selectById outside.readFails record.id after with
    | .ok (some _) => .error idCollision
    | _ => .error storageUnavailable)

def conflictReasonFor : Option ManagedCredentialRecord → Transition
  | none => .conflict "not_found"
  | some row =>
    if row.status ≠ .active then .conflict ("status:" ++ row.status.text)
    else if row.rotatedTo ≠ none then .conflict "already_rotated"
    else .conflict "conflict"

/-- The guarded `INSERT` and the guarded `UPDATE` with the rows that each has changed; the batch
is aborted when the identifier of the successor is taken. -/
def rotateBatch (oldId : String) (oldUpdate : RotateUpdate) (next : ManagedCredentialRecord)
    (rows : Rows) : Option (Rows × Nat × Nat) :=
  let guard := fun row : ManagedCredentialRecord => decide (row.id = oldId) && isEligible row
  (if rows.rows.any guard then rows.insert next else some (rows, 0)).map fun inserted =>
    let updated := inserted.1.update guard (fun row => row.rotatedBy oldUpdate .rotating)
      (ManagedCredentialRecord.rotatedBy_id oldUpdate .rotating)
    (updated.1, inserted.2, updated.2)

/-- What an aborted batch is answered with: a taken identifier, a lost race or an outage. -/
def classify (outside : Outside) (oldId nextId : String) (rows : Rows) :
    Except ManagedTokenError Transition :=
  match selectById outside.readFails nextId rows with
  | .error _ => .error storageUnavailable
  | .ok (some _) => .ok (.conflict "id_collision")
  | .ok none =>
    match selectById outside.laterReadFails oldId rows with
    | .error _ => .error storageUnavailable
    | .ok none => .ok (conflictReasonFor none)
    | .ok (some current) =>
      if isEligible current then .error storageUnavailable
      else .ok (conflictReasonFor (some current))

def tryRotate (outside : Outside) (oldId : String) (oldUpdate : RotateUpdate)
    (next : ManagedCredentialRecord) (rows : Rows) : Rows × Except ManagedTokenError Transition :=
  if next.rotatedFrom ≠ some oldId ∨ oldUpdate.rotatedTo ≠ some next.id then
    (rows, .ok (.conflict "lineage_mismatch"))
  else if oldUpdate.validUntil = none ∨ oldUpdate.rotatedTo = none then
    (rows, .ok (.conflict "lineage_mismatch"))
  else
    match if outside.service = .refused then none else rotateBatch oldId oldUpdate next rows with
    | none => (rows, classify outside oldId next.id rows)
    | some (after, inserted, updated) =>
      if outside.service = .lost then (after, classify outside oldId next.id after)
      else if inserted = 1 ∧ updated = 1 then (after, .ok .ok)
      else (after, (selectById outside.readFails oldId after).map conflictReasonFor)

/-- The credential after its revocation; the first time of a revocation stays. -/
def revoked (now : Int) (row : ManagedCredentialRecord) : ManagedCredentialRecord :=
  { row with status := .revoked, revokedAt := row.revokedAt.or (some now), updatedAt := now }

theorem revoked_id (row : ManagedCredentialRecord) : (revoked now row).id = row.id :=
  rfl

/-- The credential after a forced expiry. -/
def expired (now : Int) (row : ManagedCredentialRecord) : ManagedCredentialRecord :=
  { row with expiresAt := if now < row.expiresAt then now else row.expiresAt, updatedAt := now }

theorem expired_id (row : ManagedCredentialRecord) : (expired now row).id = row.id :=
  rfl

/-- Perform an `UPDATE` and read the row back. -/
def updateAndRead (outside : Outside) (id : String) (rows updated : Rows) :
    Rows × Except ManagedTokenError (Option ManagedCredentialRecord) :=
  match outside.service with
  | .served => (updated, selectById outside.readFails id updated)
  | .refused => (rows, .error storageUnavailable)
  | .lost => (updated, .error storageUnavailable)

def revokeById (outside : Outside) (id : String) (now : Int) (rows : Rows) :
    Rows × Except ManagedTokenError (Option ManagedCredentialRecord) :=
  updateAndRead outside id rows
    (rows.update (fun row => decide (row.id = id) && decide (row.status ≠ .revoked)) (revoked now)
      (revoked_id now)).1

def expireById (outside : Outside) (id : String) (now : Int) (rows : Rows) :
    Rows × Except ManagedTokenError (Option ManagedCredentialRecord) :=
  updateAndRead outside id rows
    (rows.update (fun row => decide (row.id = id)) (expired now) (expired_id now)).1

end D1

/-! ### Both stores -/

/-- Which `ManagedTokenStore` holds the credentials. -/
inductive StoreKind where
  | memory
  | d1
deriving DecidableEq, Repr

/-- `assertAvailable` of the store in memory. -/
def available {α : Type} (outside : Outside) (rows : Rows) (result : Rows × α) :
    Rows × Except ManagedTokenError α :=
  if outside.service = .served then (result.1, .ok result.2)
  else (rows, .error storageUnavailable)

/-- What each operation does to the registry, and its answer. -/
def exec (kind : StoreKind) (outside : Outside) (query : Query) (registry : Registry) :
    Registry × query.Res :=
  let onRows {α : Type} (result : Rows × α) : Registry × α :=
    ({ registry with rows := result.1 }, result.2)
  match query with
  | .getById id => onRows <| match kind with
    | .memory => available outside registry.rows (registry.rows, registry.rows.find id)
    | .d1 => (registry.rows, D1.selectById (decide (outside.service ≠ .served)) id registry.rows)
  | .insert record => onRows <| match kind with
    | .memory =>
      if outside.service = .served then Memory.insert record registry.rows
      else (registry.rows, .error storageUnavailable)
    | .d1 => D1.insert outside record registry.rows
  | .tryRotate oldId oldUpdate next => onRows <| match kind with
    | .memory =>
      available outside registry.rows (Memory.tryRotate oldId oldUpdate next registry.rows)
    | .d1 => D1.tryRotate outside oldId oldUpdate next registry.rows
  | .revokeById id now => onRows <| match kind with
    | .memory => available outside registry.rows (Memory.revokeById id now registry.rows)
    | .d1 => D1.revokeById outside id now registry.rows
  | .expireById id now => onRows <| match kind with
    | .memory => available outside registry.rows (Memory.expireById id now registry.rows)
    | .d1 => D1.expireById outside id now registry.rows
  | .replay process key => (registry, (registry.replays process).lookup key)
  | .remember process key newId =>
    ({ registry with replays := fun other =>
        if other = process then (registry.replays process).set key newId
        else registry.replays other }, ())
  | .now => (registry, outside.now)
  | .random byteLength => (registry, (List.range byteLength).map outside.byte)

/-! ## What an operation changes -/

/-- A later version of a credential outside its rotation: the same lineage and scopes, no later
expiry, and a revocation that stays. -/
structure Revises (before after : ManagedCredentialRecord) : Prop where
  id : after.id = before.id
  scopes : after.scopes = before.scopes
  rotatedTo : after.rotatedTo = before.rotatedTo
  rotatedFrom : after.rotatedFrom = before.rotatedFrom
  expiresAt : after.expiresAt ≤ before.expiresAt
  revoked : before.status = .revoked → after.status = .revoked

theorem Revises.refl (record : ManagedCredentialRecord) : Revises record record :=
  ⟨rfl, rfl, rfl, rfl, Int.le_refl _, fun h => h⟩

/-- What an operation can do to the credentials. -/
inductive Changes (query : Query) (before after : Rows) : Prop where
  | still : (∀ k, after.find k = before.find k) → Changes query before after
  | inserted (record : ManagedCredentialRecord) : query = .insert record →
    before.find record.id = none →
    (∀ k, after.find k = if record.id = k then some record else before.find k) →
    Changes query before after
  | rotated (oldId : String) (oldUpdate : RotateUpdate) (next current : ManagedCredentialRecord)
    (status : ManagedStoredStatus) : query = .tryRotate oldId oldUpdate next →
    before.find oldId = some current → isEligible current = true →
    before.find next.id = none → next.rotatedFrom = some oldId →
    oldUpdate.rotatedTo = some next.id →
    (∀ k, after.find k = if oldId = k then some (current.rotatedBy oldUpdate status)
      else if next.id = k then some next else before.find k) →
    Changes query before after
  | revised (id : String) (now : Int) : query = .revokeById id now ∨ query = .expireById id now →
    (∀ k, Option.Rel Revises (before.find k) (after.find k)) → Changes query before after

/-- A change of one row that revises it revises every row. -/
theorem rel_update {rows : Rows} (hid : ∀ row, (change row).id = row.id)
    (hchange : ∀ row, condition row = true → Revises row (change row)) (k : String) :
    Option.Rel Revises (rows.find k) ((rows.update condition change hid).1.find k) := by
  rw [Sql.Table.find_update]
  cases rows.find k with
  | none => exact .none
  | some row =>
    by_cases hcondition : condition row
    · simpa [hcondition] using Option.Rel.some (hchange row hcondition)
    · simpa [hcondition] using Option.Rel.some (Revises.refl row)

variable {oldId : String} {query : Query} {count : Nat}

/-- Once a successor is inserted, the update of the predecessor completes the rotation. -/
theorem find_rotated {rows : Rows} {next current : ManagedCredentialRecord}
    (hid : ∀ row, (change row).id = row.id) (hcurrent : rows.find oldId = some current)
    (hfree : rows.find next.id = none) (hcondition : condition current = true)
    (honly : ∀ row, condition row = true → row.id = oldId) (k : String) :
    ((rows.append next hfree).update condition change hid).1.find k =
      if oldId = k then some (change current) else if next.id = k then some next
      else rows.find k := by
  have hne : next.id ≠ oldId := by
    intro heq
    rw [heq, hcurrent] at hfree
    cases hfree
  have hkeep : ∀ row : ManagedCredentialRecord, row.id ≠ oldId → condition row = false :=
    fun row hrow => Bool.eq_false_iff.2 fun h => hrow (honly row h)
  rw [Sql.Table.find_update, Sql.Table.find_append]
  by_cases hk : oldId = k
  · subst hk
    simp [hne, hcurrent, hcondition]
  · by_cases hnext : next.id = k
    · subst hnext
      simp [hk, hkeep next hne]
    · rw [if_neg hk, if_neg hnext]
      cases hfind : rows.find k with
      | none => simp
      | some row =>
        have hrow := hkeep row fun heq => hk (heq.symm.trans (Sql.Table.find_key hfind))
        simp [hrow]

theorem insert_cases {rows after : Rows} (h : rows.insert record = some (after, count)) :
    ∃ hfree : rows.find record.id = none, after = rows.append record hfree ∧ count = 1 := by
  unfold Sql.Table.insert at h
  split at h
  · rename_i hfree
    obtain ⟨rfl, rfl⟩ := Prod.mk.inj (Option.some.inj h)
    exact ⟨hfree, rfl, rfl⟩
  · cases h

theorem changes_of_insert {rows after : Rows} (h : rows.insert record = some (after, count)) :
    Changes (.insert record) rows after := by
  obtain ⟨hfree, rfl, -⟩ := insert_cases h
  exact .inserted record rfl hfree fun k => Sql.Table.find_append rows record hfree k

theorem eligible_iff {row : ManagedCredentialRecord} :
    isEligible row = true ↔ row.status = .active ∧ row.rotatedTo = none := by
  simp [isEligible]

namespace Memory

theorem insert_changes (record : ManagedCredentialRecord) (rows : Rows) :
    Changes (.insert record) rows (insert record rows).1 := by
  unfold insert
  cases h : rows.insert record with
  | none => exact .still fun _ => rfl
  | some result => exact changes_of_insert h

theorem tryRotate_changes (oldId : String) (oldUpdate : RotateUpdate)
    (next : ManagedCredentialRecord) (rows : Rows) :
    Changes (.tryRotate oldId oldUpdate next) rows (tryRotate oldId oldUpdate next rows).1 := by
  unfold tryRotate
  cases hcurrent : rows.find oldId with
  | none => exact .still fun _ => rfl
  | some current =>
    dsimp only
    by_cases hstatus : current.status = .active
    · by_cases hrotated : current.rotatedTo = none
      · rw [if_neg (not_not.2 hstatus), if_neg (not_not.2 hrotated)]
        cases hinsert : rows.insert next with
        | none => exact .still fun _ => rfl
        | some result =>
          obtain ⟨_, _⟩ := result
          dsimp only
          split_ifs with hlinks
          · exact .still fun _ => rfl
          · obtain ⟨hfree, rfl, -⟩ := insert_cases hinsert
            rw [not_or, not_not, not_not] at hlinks
            exact .rotated oldId oldUpdate next current oldUpdate.status rfl hcurrent
              (eligible_iff.2 ⟨hstatus, hrotated⟩) hfree hlinks.1 hlinks.2
              (find_rotated (ManagedCredentialRecord.rotatedBy_id oldUpdate oldUpdate.status)
                hcurrent hfree (by simp [Sql.Table.find_key hcurrent])
                fun row hrow => of_decide_eq_true hrow)
      · rw [if_neg (not_not.2 hstatus), if_pos hrotated]
        exact .still fun _ => rfl
    · rw [if_pos hstatus]
      exact .still fun _ => rfl

theorem revokeById_changes (now : Int) (rows : Rows) :
    Changes (.revokeById id now) rows (revokeById id now rows).1 := by
  unfold revokeById
  cases rows.find id with
  | none => exact .still fun _ => rfl
  | some current =>
    simp only
    split_ifs
    · exact .still fun _ => rfl
    · exact .revised id now (.inl rfl)
        (rel_update (revoked_id now) fun _ _ =>
          ⟨rfl, rfl, rfl, rfl, Int.le_refl _, fun _ => rfl⟩)

theorem expireById_changes (now : Int) (rows : Rows) :
    Changes (.expireById id now) rows (expireById id now rows).1 := by
  unfold expireById
  cases rows.find id with
  | none => exact .still fun _ => rfl
  | some current =>
    exact .revised id now (.inr rfl)
      (rel_update (expired_id now) fun _ _ =>
        ⟨rfl, rfl, rfl, rfl, Int.min_le_left _ _, fun h => h⟩)

end Memory

namespace D1

theorem insert_changes (record : ManagedCredentialRecord) (rows : Rows) :
    Changes (.insert record) rows (insert outside record rows).1 := by
  have hafter : (insert outside record rows).1 =
      (if outside.service = .refused then none else rows.insert record).elim rows Prod.fst := by
    simp only [insert]
    split_ifs <;> rfl
  rw [hafter]
  split_ifs
  · exact .still fun _ => rfl
  · cases hinsert : rows.insert record with
    | none => exact .still fun _ => rfl
    | some result => exact changes_of_insert hinsert

/-- Both statements of the batch have the same guard: it rotates or changes nothing. -/
theorem rotateBatch_changes {oldUpdate : RotateUpdate} {next : ManagedCredentialRecord}
    {rows after : Rows} {counts : Nat × Nat} (hfrom : next.rotatedFrom = some oldId)
    (hto : oldUpdate.rotatedTo = some next.id)
    (h : rotateBatch oldId oldUpdate next rows = some (after, counts)) :
    Changes (.tryRotate oldId oldUpdate next) rows after := by
  simp only [rotateBatch, Sql.Table.any_of_key] at h
  cases hguard : (rows.find oldId).any isEligible with
  | true =>
    obtain ⟨current, hcurrent, heligible⟩ := (Option.any_eq_true _ _).1 hguard
    rw [hguard, if_pos rfl] at h
    cases hinsert : rows.insert next with
    | none => simp [hinsert] at h
    | some result =>
      obtain ⟨_, _⟩ := result
      obtain ⟨hfree, rfl, -⟩ := insert_cases hinsert
      rw [hinsert] at h
      obtain ⟨rfl, -⟩ := Prod.mk.inj (Option.some.inj h)
      refine .rotated oldId oldUpdate next current .rotating rfl hcurrent heligible hfree hfrom
        hto (find_rotated (ManagedCredentialRecord.rotatedBy_id oldUpdate .rotating) hcurrent
          hfree ?_ ?_)
      · simp [Sql.Table.find_key hcurrent, heligible]
      · intro row hrow
        rw [Bool.and_eq_true, decide_eq_true_eq] at hrow
        exact hrow.1
  | false =>
    rw [hguard] at h
    obtain ⟨rfl, -⟩ := Prod.mk.inj (Option.some.inj h)
    refine .still fun k => ?_
    rw [Sql.Table.find_update]
    cases hfind : rows.find k with
    | none => rfl
    | some row =>
      refine congrArg some (if_neg fun hrow => ?_)
      rw [Bool.and_eq_true, decide_eq_true_eq] at hrow
      obtain rfl := hrow.1.symm.trans (Sql.Table.find_key hfind)
      rw [hfind, Option.any_some, hrow.2] at hguard
      cases hguard

theorem tryRotate_changes (oldId : String) (oldUpdate : RotateUpdate)
    (next : ManagedCredentialRecord) (rows : Rows) : Changes (.tryRotate oldId oldUpdate next) rows
      (tryRotate outside oldId oldUpdate next rows).1 := by
  unfold tryRotate
  by_cases hlinks : next.rotatedFrom ≠ some oldId ∨ oldUpdate.rotatedTo ≠ some next.id
  · rw [if_pos hlinks]
    exact .still fun _ => rfl
  rw [if_neg hlinks]
  rw [not_or, not_not, not_not] at hlinks
  by_cases hmissing : oldUpdate.validUntil = none ∨ oldUpdate.rotatedTo = none
  · rw [if_pos hmissing]
    exact .still fun _ => rfl
  rw [if_neg hmissing]
  cases hbatch : if outside.service = .refused then none
      else rotateBatch oldId oldUpdate next rows with
  | none => exact .still fun _ => rfl
  | some result =>
    have hchanges : Changes (.tryRotate oldId oldUpdate next) rows result.1 := by
      split_ifs at hbatch
      exact rotateBatch_changes hlinks.1 hlinks.2 hbatch
    dsimp only
    split_ifs <;> exact hchanges

theorem updateAndRead_changes {rows updated : Rows} (h : Changes query rows updated) :
    Changes query rows (updateAndRead outside id rows updated).1 := by
  unfold updateAndRead
  cases outside.service with
  | served => exact h
  | refused => exact .still fun _ => rfl
  | lost => exact h

theorem revokeById_changes (now : Int) (rows : Rows) :
    Changes (.revokeById id now) rows (revokeById outside id now rows).1 :=
  updateAndRead_changes outside id (.revised id now (.inl rfl)
    (rel_update (revoked_id now) fun _ _ => ⟨rfl, rfl, rfl, rfl, Int.le_refl _, fun _ => rfl⟩))

theorem expireById_changes (now : Int) (rows : Rows) :
    Changes (.expireById id now) rows (expireById outside id now rows).1 := by
  refine updateAndRead_changes outside id (.revised id now (.inr rfl)
    (rel_update (expired_id now) fun row _ => ⟨rfl, rfl, rfl, rfl, ?_, fun h => h⟩))
  simp only [expired]
  split_ifs <;> omega

end D1

theorem available_changes {α : Type} {rows : Rows} {result : Rows × α}
    (h : Changes query rows result.1) : Changes query rows (available outside rows result).1 := by
  unfold available
  split_ifs
  · exact h
  · exact .still fun _ => rfl

/-- Whichever store performs it, an operation does one of these. -/
theorem exec_changes (kind : StoreKind) (outside : Outside) (query : Query) (registry : Registry) :
    Changes query registry.rows (exec kind outside query registry).1.rows := by
  cases query with
  | getById id =>
    cases kind with
    | memory => exact available_changes outside (.still fun _ => rfl)
    | d1 => exact .still fun _ => rfl
  | insert record =>
    cases kind with
    | memory =>
      simp only [exec]
      split_ifs
      · exact Memory.insert_changes record _
      · exact .still fun _ => rfl
    | d1 => exact D1.insert_changes outside record _
  | tryRotate oldId oldUpdate next =>
    cases kind with
    | memory => exact available_changes outside (Memory.tryRotate_changes ..)
    | d1 => exact D1.tryRotate_changes outside ..
  | revokeById id now =>
    cases kind with
    | memory => exact available_changes outside (Memory.revokeById_changes ..)
    | d1 => exact D1.revokeById_changes outside ..
  | expireById id now =>
    cases kind with
    | memory => exact available_changes outside (Memory.expireById_changes ..)
    | d1 => exact D1.expireById_changes outside ..
  | replay | remember | now | random => exact .still fun _ => rfl

/-- A row that is read is the row that is stored. -/
theorem D1.find_of_selectById {fails : Bool} {id : String} {rows : Rows}
    (h : selectById fails id rows = .ok (some record)) : rows.find id = some record := by
  unfold selectById at h
  split at h
  · cases h
  · split at h
    · cases h
    · rename_i row hfind
      unfold mapCredentialRow at h
      split at h
      · cases h
      · rw [hfind]
        exact Except.ok.inj h

/-- A store that finds a credential has it. -/
theorem exec_getById {kind : StoreKind} {outside : Outside} {id : String} {registry : Registry}
    (h : (exec kind outside (.getById id) registry).2 = .ok (some record)) :
    registry.rows.find id = some record := by
  cases kind with
  | memory =>
    simp only [exec, available] at h
    split at h
    · exact Except.ok.inj h
    · cases h
  | d1 => exact D1.find_of_selectById h

end Groundlane.Credentials
