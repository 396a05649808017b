import Groundlane.Durable.Store
import Groundlane.Sql.Table

/-!
# The durable record store on D1

`D1DurableRecordStore` of `worker/d1-durable-store.ts`. A method that writes runs one statement
on the table `durable_records` and then reads the row in a second one; others may run theirs in
between. `inMemory` is what the same methods of `InMemoryDurableRecordStore` do at once.
-/

namespace Groundlane.D1

open Fenced Interleaving

/-- A row of `durable_records`. -/
structure Row where
  nameSpace : String
  key : String
  value : String
  revision : Nat
  createdAt : Int
  updatedAt : Int
  expiresAt : Option Int
deriving DecidableEq, Repr

def Row.primaryKey (row : Row) : String × String := (row.nameSpace, row.key)

/-- The table `durable_records`. -/
abbrev Records : Type := Sql.Table (String × String) Row Row.primaryKey

/-- The record that a row holds. -/
def Row.record (row : Row) : Record String String :=
  ⟨row.key, row.value, row.revision, row.createdAt, row.updatedAt, row.expiresAt⟩

instance : Stored String := ⟨String.toList⟩

/-! ## Statements -/

/-- The statements of the store. -/
inductive Statement where
  | insert (nameSpace key value : String) (nowMs : Int) (expiresAt : Option Int)
  | update (nameSpace key : String) (expectedRevision : Nat) (value : String) (nowMs : Int)
    (expiresAt : Option Int)
  | delete (nameSpace key : String) (expectedRevision : Nat)
  | select (nameSpace key : String)
deriving DecidableEq, Repr

/-- The namespace that a statement names. -/
def Statement.nameSpace : Statement → String
  | insert nameSpace .. => nameSpace
  | update nameSpace .. => nameSpace
  | delete nameSpace .. => nameSpace
  | select nameSpace _ => nameSpace

/-- A writing statement answers with the number of rows that it has changed. -/
abbrev Statement.Res : Statement → Type
  | insert .. => Nat
  | update .. => Nat
  | delete .. => Nat
  | select .. => Option Row

/-- The row that `INSERT` writes. -/
def newRow (nameSpace key value : String) (nowMs : Int) (expiresAt : Option Int) : Row :=
  ⟨nameSpace, key, value, 1, nowMs, nowMs, expiresAt⟩

/-- `SET value = ?, revision = revision + 1, updated_at = ?, expires_at = ?`. -/
def changeRow (value : String) (nowMs : Int) (expiresAt : Option Int) (row : Row) : Row :=
  { row with value, revision := row.revision + 1, updatedAt := nowMs, expiresAt }

theorem changeRow_primaryKey (value : String) (nowMs : Int) (expiresAt : Option Int) (row : Row) :
    (changeRow value nowMs expiresAt row).primaryKey = row.primaryKey :=
  rfl

/-- `WHERE namespace = ? AND key = ? AND revision = ?`. -/
def atRevision (nameSpace key : String) (expectedRevision : Nat) (row : Row) : Bool :=
  decide (row.primaryKey = (nameSpace, key)) && decide (row.revision = expectedRevision)

/-- What a statement does to the table, and its answer. -/
def exec (statement : Statement) (records : Records) : Records × statement.Res :=
  match statement with
  | .insert nameSpace key value nowMs expiresAt =>
    records.insertOrIgnore (newRow nameSpace key value nowMs expiresAt)
  | .update nameSpace key expectedRevision value nowMs expiresAt =>
    records.update (atRevision nameSpace key expectedRevision)
      (changeRow value nowMs expiresAt) (changeRow_primaryKey value nowMs expiresAt)
  | .delete nameSpace key expectedRevision =>
    records.delete (atRevision nameSpace key expectedRevision)
  | .select nameSpace key => (records, records.find (nameSpace, key))

/-! ## Methods -/

/-- A program of the store. -/
abbrev D1Io : Type → Type := Program Statement Statement.Res Fault

def storageUnavailable : Fault := .error "durable metadata store unavailable"

def decodeRecord (row : Option Row) : Except Fault (Option (Record String String)) :=
  match row with
  | none => .ok none
  | some row =>
    if ¬ (isSafeInteger row.revision ∧ 1 ≤ row.revision ∧ isSafeInteger row.createdAt ∧
        0 ≤ row.createdAt ∧ isSafeInteger row.updatedAt ∧ row.createdAt ≤ row.updatedAt ∧
        row.expiresAt.all fun expiresAt => isSafeInteger expiresAt &&
          decide (row.createdAt < expiresAt)) then
      .error storageUnavailable
    else match validateDurableKey row.key, validateDurableValue row.value with
      | .ok (), .ok () => .ok (some row.record)
      | _, _ => .error storageUnavailable

section Methods

variable (nameSpace : String)

def select (key : String) : D1Io (Option (Record String String)) :=
  (Program.request (Statement.select nameSpace key)).bind fun row =>
    Program.ofExcept (decodeRecord row)

def get (key : String) : D1Io (Option (Record String String)) := do
  validateDurableKey key
  select nameSpace key

def createIfAbsent (key value : String) (nowMs : Int) (expiresAt : Option Int) :
    D1Io (CreateResult String String) := do
  validateDurableKey key
  validateDurableWrite value nowMs expiresAt
  let changes ← Program.request (Statement.insert nameSpace key value nowMs expiresAt)
  let record ← select nameSpace key
  match record with
  | none => Program.raise storageUnavailable
  | some record => pure (if changes = 1 then .created record else .existing record)

def compareAndSwap (key : String) (expectedRevision : Nat) (value : String) (nowMs : Int)
    (expiresAt : Option Int) : D1Io (CasResult String String) := do
  validateDurableKey key
  validateDurableWrite value nowMs expiresAt
  validateExpectedRevision expectedRevision
  let changes ← Program.request
    (Statement.update nameSpace key expectedRevision value nowMs expiresAt)
  let record ← select nameSpace key
  match record with
  | none => if changes = 1 then Program.raise storageUnavailable else pure .missing
  | some record => pure (if changes = 1 then .updated record else .conflict record)

def deleteIfRevision (key : String) (expectedRevision : Nat) : D1Io DeleteResult := do
  validateDurableKey key
  validateExpectedRevision expectedRevision
  let changes ← Program.request (Statement.delete nameSpace key expectedRevision)
  if changes = 1 then pure .deleted
  else do
    let record ← select nameSpace key
    pure (if record.isNone then .missing else .conflict)

end Methods

/-! ## All calls -/

/-- The methods with their arguments. -/
inductive Call where
  | get (key : String)
  | createIfAbsent (key value : String) (nowMs : Int) (expiresAt : Option Int)
  | compareAndSwap (key : String) (expectedRevision : Nat) (value : String) (nowMs : Int)
    (expiresAt : Option Int)
  | deleteIfRevision (key : String) (expectedRevision : Nat)
deriving DecidableEq, Repr

/-- What the methods return. -/
inductive Reply where
  | found (record : Option (Record String String))
  | created (result : CreateResult String String)
  | swapped (result : CasResult String String)
  | deleted (result : DeleteResult)
deriving DecidableEq, Repr

/-- The program of each call. -/
def main (nameSpace : String) : Call → D1Io Reply
  | .get key => (get nameSpace key).bind fun record => pure (.found record)
  | .createIfAbsent key value nowMs expiresAt =>
    (createIfAbsent nameSpace key value nowMs expiresAt).bind fun result =>
      pure (.created result)
  | .compareAndSwap key expectedRevision value nowMs expiresAt =>
    (compareAndSwap nameSpace key expectedRevision value nowMs expiresAt).bind fun result =>
      pure (.swapped result)
  | .deleteIfRevision key expectedRevision =>
    (deleteIfRevision nameSpace key expectedRevision).bind fun result =>
      pure (.deleted result)

/-- All calls of stores with the same namespace over one table. -/
def database (nameSpace : String) :
    System Call Statement Statement.Res Fault Reply Records Unit where
  main := main nameSpace
  exec _ := exec

/-- What `InMemoryDurableRecordStore` does in a call that passes its checks. -/
def inMemory (store : Store String String) : Call → Store String String × Reply
  | .get key => (store, .found (store.get key))
  | .createIfAbsent key value nowMs expiresAt =>
    let result := store.createIfAbsent key value nowMs expiresAt
    (result.1, .created result.2)
  | .compareAndSwap key expectedRevision value nowMs expiresAt =>
    let result := store.compareAndSwap key expectedRevision value nowMs expiresAt
    (result.1, .swapped result.2)
  | .deleteIfRevision key expectedRevision =>
    let result := store.deleteIfRevision key expectedRevision
    (result.1, .deleted result.2)

end Groundlane.D1
