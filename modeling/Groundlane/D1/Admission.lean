import Groundlane.D1.Records
import Groundlane.Interleaving.Outcomes

/-!
# Document admission is all or nothing

`D1DocumentAdmission.commit` publishes the records of a document job in one D1 batch: a marker row
is inserted if the source is active and no destination is taken, each record is inserted if the
marker is there, and the marker is deleted again. Any number of commits run among statements of
record stores under other namespaces (`database`). A commit whose batch is executed returns
`committed` exactly if the source matches and no destination is taken at that moment, it then adds
exactly the given records, and otherwise it changes nothing (`admission_atomic`).
-/

namespace Groundlane.DocumentAdmission

open Fenced Interleaving Interleaving.System D1

/-- `NewDurableRecord`. -/
structure NewRecord where
  key : String
  value : String
  nowMs : Int
  expiresAt : Option Int
deriving DecidableEq, Repr

/-- A record with the namespace that it is written to. -/
structure Write where
  nameSpace : String
  record : NewRecord
deriving DecidableEq, Repr

/-- The source as the caller has read it. -/
structure Source where
  nameSpace : String
  key : String
  revision : Nat
  value : String
deriving DecidableEq, Repr

/-- `DocumentAdmissionInput`. -/
structure AdmissionInput where
  source : Source
  writes : List Write
  nowMs : Int
deriving DecidableEq, Repr

/-- `DocumentAdmissionResult`. -/
inductive AdmissionResult where
  | committed
  | conflict
  | sourceUnavailable
deriving DecidableEq, Repr

def markerNamespace : String := "document-admission-markers-v1"

/-! ## Checks -/

/-- The key of a set that stands for a record under a namespace. -/
def setKey (nameSpace key : String) : String := nameSpace ++ nul ++ key

/-- The loop over the writes, with the set of the keys seen so far. -/
def checkWrites (nowMs : Int) : List String → List Write → Except Fault Unit
  | _, [] => .ok ()
  | keys, write :: writes => do
    validateDurableKey write.nameSpace
    validateDurableKey write.record.key
    validateDurableWrite write.record.value write.record.nowMs write.record.expiresAt
    let key := setKey write.nameSpace write.record.key
    if key ∈ keys ∨ write.nameSpace = markerNamespace ∨ write.record.nowMs ≠ nowMs then
      throw (.error "")
    checkWrites nowMs (key :: keys) writes

/-- What `validateDocumentAdmission` tries. -/
def checkAdmission (input : AdmissionInput) : Except Fault Unit := do
  validateDurableKey input.source.nameSpace
  validateDurableKey input.source.key
  validateDurableValue input.source.value
  if ¬ isSafeInteger input.source.revision ∨ input.source.revision < 1 ∨
      ¬ isSafeInteger input.nowMs ∨ input.nowMs < 0 ∨ input.writes.length < 1 ∨
      8 < input.writes.length then
    throw (.error "")
  checkWrites input.nowMs [setKey input.source.nameSpace input.source.key] input.writes

def validateDocumentAdmission (input : AdmissionInput) : Except Fault Unit :=
  match checkAdmission input with
  | .ok () => .ok ()
  | .error _ => .error (.groundlane .invalidInput "document-admission"
    "Invalid bounded document admission metadata")

/-! ## The batch -/

/-- A value of SQLite as its JSON functions extract it. -/
inductive SqlValue where
  | null
  | integer (value : Int)
  | text (value : String)
  | other
deriving DecidableEq

/-- The JSON functions of SQLite: `none` for a text that is not `json_valid`, and otherwise what
is extracted from each member of the object, with the type of the member. -/
abbrev SqliteJson : Type := String → Option (String → SqlValue)

/-- A statement of the batch. -/
inductive BatchStatement where
  | mark (marker : String) (input : AdmissionInput)
  | write (marker : String) (write : Write)
  | clear (marker : String)
deriving DecidableEq

section Batch

variable (json : SqliteJson)

/-- The JSON part of the source predicate. -/
def isActive (value : String) (nowMs : Int) : Bool :=
  match json value with
  | none => false
  | some member => decide (member "status" = .text "active") &&
    match member "expiresAt" with
    | .integer expiresAt => decide (nowMs < expiresAt)
    | _ => false

/-- The predicate of the source row. -/
def sourcePredicate (source : Source) (nowMs : Int) (row : Row) : Bool :=
  decide (row.nameSpace = source.nameSpace) && decide (row.key = source.key) &&
    decide (row.revision = source.revision) && decide (row.value = source.value) &&
    isActive json row.value nowMs

/-- Whether a row has this namespace and key. -/
def isRow (nameSpace key : String) (row : Row) : Bool :=
  decide (row.nameSpace = nameSpace) && decide (row.key = key)

/-- The row of the marker. -/
def markerRow (marker : String) (nowMs : Int) : Row :=
  newRow markerNamespace marker "1" nowMs none

/-- The row of a written record. -/
def Write.row (write : Write) : Row :=
  newRow write.nameSpace write.record.key write.record.value write.record.nowMs
    write.record.expiresAt

/-- What a statement of the batch does; `none` when it violates the primary key. -/
def runStatement (records : Records) : BatchStatement → Option (Records × Nat)
  | .mark marker input =>
    if records.rows.any (sourcePredicate json input.source input.nowMs) &&
        input.writes.all fun write =>
          !records.rows.any (isRow write.nameSpace write.record.key) then
      records.insert (markerRow marker input.nowMs)
    else some (records, 0)
  | .write marker write =>
    if records.rows.any (isRow markerNamespace marker) then records.insert write.row
    else some (records, 0)
  | .clear marker => some (records.delete (isRow markerNamespace marker))

/-- The statements one after another, with the number of rows that each has changed. -/
def runBatch : List BatchStatement → Records → Option (Records × List Nat)
  | [], records => some (records, [])
  | statement :: statements, records => do
    let (records, changes) ← runStatement json records statement
    let (records, rest) ← runBatch statements records
    return (records, changes :: rest)

end Batch

/-- The statements of a commit. -/
def statements (input : AdmissionInput) (marker : String) : List BatchStatement :=
  .mark marker input :: input.writes.map (.write marker) ++ [.clear marker]

/-! ## Commits among other clients -/

/-- A statement of a record store. Its namespace is not the one that is reserved for markers. -/
structure StoreStatement where
  statement : Statement
  reserved : statement.nameSpace ≠ markerNamespace

/-- What a commit or a record store asks. -/
inductive Query where
  | randomUUID
  | batch (statements : List BatchStatement)
  | source (source : Source) (nowMs : Int)
  | record (statement : StoreStatement)

/-- A batch and a read of a commit can fail. -/
abbrev Query.Res : Query → Type
  | randomUUID => String
  | batch _ => Option (List Nat)
  | source .. => Option (Option String)
  | record statement => statement.statement.Res

/-- What the table does not determine: the next marker, and whether the database fails. -/
structure Outside where
  uuid : String
  fails : Bool

/-- The effect of each query. A batch that fails is rolled back. -/
def exec (json : SqliteJson) (outside : Outside) (query : Query) (records : Records) :
    Records × query.Res :=
  match query with
  | .randomUUID => (records, outside.uuid)
  | .batch batch => if outside.fails then (records, none)
    else match runBatch json batch records with
      | none => (records, none)
      | some (records, changes) => (records, some changes)
  | .source source nowMs => (records, if outside.fails then none
    else some ((records.rows.find? (sourcePredicate json source nowMs)).map Row.key))
  | .record statement => D1.exec statement.statement records

/-- A program of the admission. -/
abbrev AdmissionIo : Type → Type := Program Query Query.Res Fault

def unavailable : Fault :=
  .groundlane .upstreamError "document-admission" "Document admission storage is unavailable"

/-- What `commit` tries once it has a session. -/
def publish (input : AdmissionInput) (marker : String) : AdmissionIo AdmissionResult := do
  let results ← Program.request (Query.batch (statements input marker))
  match results with
  | none => Program.raise .other
  | some changes =>
    if changes.length ≠ (statements input marker).length then Program.raise unavailable
    else if changes.all fun count => decide (count = 1) then pure .committed
    else if changes.any fun count => decide (count ≠ 0) then Program.raise unavailable
    else do
      let active ← Program.request (Query.source input.source input.nowMs)
      match active with
      | none => Program.raise .other
      | some none => pure .sourceUnavailable
      | some (some _) => pure .conflict

def commit (hasSessions : Bool) (input : AdmissionInput) : AdmissionIo AdmissionResult := do
  validateDocumentAdmission input
  if ¬ hasSessions then Program.raise unavailable
  else do
    let marker ← Program.request Query.randomUUID
    (publish input marker).tryCatch fun _ => Program.raise unavailable

/-- A commit, or a statement of another client. -/
inductive Call where
  | commit (input : AdmissionInput)
  | record (statement : StoreStatement)

/-- The result of a commit; a statement of another client is answered to that client. -/
inductive Reply where
  | admission (result : AdmissionResult)
  | recorded

def main (hasSessions : Bool) : Call → AdmissionIo Reply
  | .commit input => (commit hasSessions input).bind fun result => pure (.admission result)
  | .record statement => (Program.request (Query.record statement)).bind fun _ => pure .recorded

/-- All commits and all statements of other clients on one table. -/
def database (json : SqliteJson) (hasSessions : Bool) :
    System Call Query Query.Res Fault Reply Records Outside where
  main := main hasSessions
  exec := exec json

/-! ## All or nothing -/

/-- An event of a commit or of another client. -/
abbrev AdmissionEvent : Type := Event Call Query Query.Res Fault Reply

/-- A world of commits and other clients. -/
abbrev AdmissionWorld : Type := World Call Query Query.Res Fault Reply Records

/-- Everything that happened, newest first. -/
abbrev AdmissionHistory : Type := List (Nat × AdmissionEvent)

/-- Whether the database has failed to answer. -/
def failed : (query : Query) → query.Res → Bool
  | .batch _, none => true
  | _, _ => false

/-- The table after the queries of the history. -/
def replay (json : SqliteJson) : AdmissionHistory → Records
  | [] => .empty
  | (_, .effect query answer) :: older =>
    (exec json ⟨"", failed query answer⟩ query (replay json older)).1
  | _ :: older => replay json older

/-- The source matches and no destination is taken. -/
structure Admissible (json : SqliteJson) (input : AdmissionInput) (records : Records) : Prop where
  source : ∃ row, records.find (input.source.nameSpace, input.source.key) = some row ∧
    row.revision = input.source.revision ∧ row.value = input.source.value
  active : ∃ member expiresAt, json input.source.value = some member ∧
    member "status" = .text "active" ∧ member "expiresAt" = .integer expiresAt ∧
    input.nowMs < expiresAt
  free : ∀ write ∈ input.writes, records.find (write.nameSpace, write.record.key) = none

/-- No marker is in the table. -/
def Unmarked (records : Records) : Prop :=
  ∀ row ∈ records.rows, row.nameSpace ≠ markerNamespace

/-- Commits are all or nothing: each is committed exactly if its batch is executed where the input
is admissible, it adds exactly its records then, and changes nothing otherwise. -/
structure Atomic (json : SqliteJson) (world : AdmissionWorld) : Prop where
  state : world.state = replay json world.history
  unmarked : Unmarked world.state
  batched : ∀ i input, (i, .invoke (.commit input)) ∈ world.history →
    (i, .response (.ok (.admission .committed))) ∈ world.history →
    ∃ batch changes, (i, .effect (.batch batch) (some changes)) ∈ world.history
  committed : ∀ newer i batch answer older input outcome,
    world.history = newer ++ (i, .effect (.batch batch) answer) :: older →
    (i, .invoke (.commit input)) ∈ world.history → (i, .response outcome) ∈ world.history →
    (outcome = .ok (.admission .committed) ↔
      answer.isSome ∧ Admissible json input (replay json older))
  added : ∀ newer i batch answer older input,
    world.history = newer ++ (i, .effect (.batch batch) answer) :: older →
    (i, .invoke (.commit input)) ∈ world.history → answer.isSome →
    Admissible json input (replay json older) →
    (replay json ((i, .effect (.batch batch) answer) :: older)).rows =
      (replay json older).rows ++ input.writes.map Write.row
  untouched : ∀ newer i event older input, world.history = newer ++ (i, event) :: older →
    (i, .invoke (.commit input)) ∈ world.history →
    (∀ batch changes, event = .effect (.batch batch) (some changes) →
      ¬ Admissible json input (replay json older)) →
    replay json ((i, event) :: older) = replay json older

/-! ## The batch -/

theorem checkWrites_ok {nowMs : Int} {keys : List String} {writes : List Write}
    (h : checkWrites nowMs keys writes = .ok ()) :
    (∀ write ∈ writes, setKey write.nameSpace write.record.key ∉ keys ∧
      write.nameSpace ≠ markerNamespace) ∧
    (writes.map fun write => setKey write.nameSpace write.record.key).Nodup := by
  induction writes generalizing keys with
  | nil => simp
  | cons write writes ih =>
    simp only [checkWrites, bind, Except.bind, throw, throwThe, MonadExceptOf.throw] at h
    split at h
    · cases h
    split at h
    · cases h
    split at h
    · cases h
    by_cases htest : setKey write.nameSpace write.record.key ∈ keys ∨
        write.nameSpace = markerNamespace ∨ write.record.nowMs ≠ nowMs
    · rw [if_pos htest] at h
      cases h
    · rw [if_neg htest] at h
      simp only [not_or] at htest
      obtain ⟨hfirst, hnodup⟩ := ih h
      refine ⟨?_, ?_⟩
      · intro other hother
        rcases List.mem_cons.1 hother with rfl | hother
        · exact ⟨htest.1, htest.2.1⟩
        · obtain ⟨hkeys, hmarker⟩ := hfirst other hother
          exact ⟨fun hmem => hkeys (List.mem_cons_of_mem _ hmem), hmarker⟩
      · rw [List.map_cons, List.nodup_cons]
        refine ⟨fun hmem => ?_, hnodup⟩
        obtain ⟨other, hother, heq⟩ := List.mem_map.1 hmem
        exact (hfirst other hother).1 (heq ▸ List.mem_cons_self ..)

/-- What the checks guarantee about the destinations. -/
theorem validateDocumentAdmission_ok {input : AdmissionInput}
    (h : validateDocumentAdmission input = .ok ()) :
    (∀ write ∈ input.writes, write.nameSpace ≠ markerNamespace) ∧
      (input.writes.map fun write => write.row.primaryKey).Nodup := by
  have hcheck : checkWrites input.nowMs [setKey input.source.nameSpace input.source.key]
      input.writes = .ok () := by
    unfold validateDocumentAdmission at h
    split at h
    · rename_i hadmission
      simp only [checkAdmission, bind, Except.bind, throw, throwThe, MonadExceptOf.throw]
        at hadmission
      repeat' split at hadmission
      all_goals first | cases hadmission | exact hadmission
    · cases h
  obtain ⟨hwrites, hnodup⟩ := checkWrites_ok hcheck
  refine ⟨fun write hwrite => (hwrites write hwrite).2, List.Nodup.of_map
    (fun primaryKey => setKey primaryKey.1 primaryKey.2) ?_⟩
  rw [List.map_map]
  exact hnodup

section Batch

variable {json : SqliteJson} {input : AdmissionInput} {marker : String} {records : Records}

theorem isRow_eq (nameSpace key : String) : isRow nameSpace key =
    fun row => decide (row.primaryKey = (nameSpace, key)) && true := by
  funext row
  simp [isRow, Row.primaryKey]

theorem any_isRow (records : Records) (nameSpace key : String) :
    records.rows.any (isRow nameSpace key) = (records.find (nameSpace, key)).isSome := by
  rw [isRow_eq, records.any_of_key (nameSpace, key) fun _ => true]
  cases records.find (nameSpace, key) <;> rfl

theorem count_isRow (records : Records) (nameSpace key : String) :
    records.rows.countP (isRow nameSpace key) =
      if (records.find (nameSpace, key)).isSome then 1 else 0 := by
  rw [isRow_eq, records.count_of_key (nameSpace, key) fun _ => true]
  cases records.find (nameSpace, key) <;> rfl

/-- The condition of the first statement. -/
theorem admit_iff : (records.rows.any (sourcePredicate json input.source input.nowMs) &&
    input.writes.all fun write => !records.rows.any (isRow write.nameSpace write.record.key)) =
      true ↔ Admissible json input records := by
  have hsource : sourcePredicate json input.source input.nowMs = fun row =>
      decide (row.primaryKey = (input.source.nameSpace, input.source.key)) &&
        (decide (row.revision = input.source.revision) &&
          decide (row.value = input.source.value) && isActive json row.value input.nowMs) := by
    funext row
    simp only [sourcePredicate, Row.primaryKey, Prod.mk.injEq, Bool.decide_and, Bool.and_assoc]
  have hactive : isActive json input.source.value input.nowMs = true ↔
      ∃ member expiresAt, json input.source.value = some member ∧
        member "status" = .text "active" ∧ member "expiresAt" = .integer expiresAt ∧
        input.nowMs < expiresAt := by
    unfold isActive
    cases json input.source.value with
    | none => simp
    | some member => cases hexpires : member "expiresAt" <;> simp [hexpires]
  rw [Bool.and_eq_true, hsource, records.any_of_key (input.source.nameSpace, input.source.key),
    Option.any_eq_true, List.all_eq_true]
  constructor
  · rintro ⟨⟨row, hrow, htest⟩, hfree⟩
    simp only [Bool.and_eq_true, decide_eq_true_eq] at htest
    obtain ⟨⟨hrevision, hvalue⟩, htest⟩ := htest
    refine ⟨⟨row, hrow, hrevision, hvalue⟩, hactive.1 (hvalue ▸ htest), fun write hwrite => ?_⟩
    simpa [any_isRow] using hfree write hwrite
  · rintro ⟨⟨row, hrow, hrevision, hvalue⟩, htest, hfree⟩
    refine ⟨⟨row, hrow, ?_⟩, fun write hwrite => ?_⟩
    · simp only [Bool.and_eq_true, decide_eq_true_eq]
      exact ⟨⟨hrevision, hvalue⟩, hvalue ▸ hactive.2 htest⟩
    · simp [any_isRow, hfree write hwrite]

theorem Unmarked.find (h : Unmarked records) (marker : String) :
    records.find (markerNamespace, marker) = none := by
  cases hfind : records.find (markerNamespace, marker) with
  | none => rfl
  | some row =>
    have hkey : row.primaryKey = (markerNamespace, marker) := Sql.Table.find_key hfind
    exact absurd (Prod.mk.inj hkey).1 (h row (Sql.Table.find_mem hfind))

/-- Without a marker, the statements behind the first one change nothing. -/
theorem runBatch_skipped (hmarker : records.find (markerNamespace, marker) = none)
    (writes : List Write) :
    runBatch json (writes.map (.write marker) ++ [.clear marker]) records =
      some (records, .replicate (writes.length + 1) 0) := by
  have hany : records.rows.any (isRow markerNamespace marker) = false := by
    simp [any_isRow, hmarker]
  induction writes with
  | nil =>
    have hnone : ∀ row ∈ records.rows, isRow markerNamespace marker row = false := by
      intro row hrow
      simpa using List.any_eq_false.1 hany row hrow
    have hrows : records.delete (isRow markerNamespace marker) = (records, 0) := by
      refine Prod.ext (Sql.Table.ext ?_) ?_
      · exact List.filter_eq_self.2 fun row hrow => by simp [hnone row hrow]
      · exact List.countP_eq_zero.2 fun row hrow => by simp [hnone row hrow]
    simp [runBatch, runStatement, hrows]
  | cons write writes ih =>
    rw [List.map_cons, List.cons_append, runBatch, runStatement, if_neg (by simp [hany])]
    simp only [Option.bind_eq_bind, Option.bind_some, ih]
    rfl

/-- With a marker, every record is added and the marker is removed. -/
theorem runBatch_admitted (records : Records) (base : List Row) (writes : List Write)
    (hmarker : (records.find (markerNamespace, marker)).isSome = true)
    (hfree : ∀ write ∈ writes, records.find write.row.primaryKey = none)
    (hnodup : (writes.map fun write => write.row.primaryKey).Nodup)
    (hrows : (records.rows.filter fun row => !isRow markerNamespace marker row) = base)
    (hreserved : ∀ write ∈ writes, write.nameSpace ≠ markerNamespace) :
    ∃ after, runBatch json (writes.map (.write marker) ++ [.clear marker]) records =
      some (after, .replicate (writes.length + 1) 1) ∧
        after.rows = base ++ writes.map Write.row := by
  induction writes generalizing records base with
  | nil =>
    have hone : (records.delete (isRow markerNamespace marker)).2 = 1 := by
      refine (count_isRow records markerNamespace marker).trans ?_
      rw [hmarker, if_pos rfl]
    have hrun : runBatch json [.clear marker] records =
        some ((records.delete (isRow markerNamespace marker)).1,
          [(records.delete (isRow markerNamespace marker)).2]) := rfl
    refine ⟨(records.delete (isRow markerNamespace marker)).1, ?_, ?_⟩
    · rw [List.map_nil, List.nil_append, hrun, hone]
      rfl
    · exact hrows.trans (List.append_nil base).symm
  | cons write writes ih =>
    have hfirst := hfree write (List.mem_cons_self ..)
    rw [List.map_cons, List.nodup_cons] at hnodup
    have hfind (k : String × String) : (records.append write.row hfirst).find k =
        if write.row.primaryKey = k then some write.row else records.find k :=
      Sql.Table.find_append records write.row hfirst k
    have hplace : isRow markerNamespace marker write.row = false := by
      simp [isRow, Write.row, newRow, hreserved write (List.mem_cons_self ..)]
    have hmarker' : ((records.append write.row hfirst).find (markerNamespace, marker)).isSome =
        true := by
      rw [hfind]
      split
      · rfl
      · exact hmarker
    have hfree' : ∀ other ∈ writes,
        (records.append write.row hfirst).find other.row.primaryKey = none := by
      intro other hother
      rw [hfind, if_neg, hfree other (List.mem_cons_of_mem _ hother)]
      exact fun heq => hnodup.1 (heq ▸ List.mem_map_of_mem hother)
    have hrows' : ((records.append write.row hfirst).rows.filter fun row =>
        !isRow markerNamespace marker row) = base ++ [write.row] := by
      change (records.rows ++ [write.row]).filter _ = _
      rw [List.filter_append, hrows]
      simp [hplace]
    obtain ⟨after, hafter, hbase⟩ := ih (records.append write.row hfirst) (base ++ [write.row])
      hmarker' hfree' hnodup.2 hrows'
      fun other hother => hreserved other (List.mem_cons_of_mem _ hother)
    refine ⟨after, ?_, by simp [hbase]⟩
    rw [List.map_cons, List.cons_append, runBatch, runStatement,
      if_pos (by rw [any_isRow, hmarker]), Sql.Table.insert_of_free hfirst]
    simp only [Option.bind_eq_bind, Option.bind_some, hafter]
    rfl

/-- The batch of an admissible commit adds the records; any other batch changes nothing. -/
theorem runBatch_statements (hunmarked : Unmarked records)
    (hvalid : validateDocumentAdmission input = .ok ()) :
    (Admissible json input records ∧ ∃ after,
      runBatch json (statements input marker) records =
        some (after, .replicate (input.writes.length + 2) 1) ∧
      after.rows = records.rows ++ input.writes.map Write.row) ∨
    (¬ Admissible json input records ∧ runBatch json (statements input marker) records =
      some (records, .replicate (input.writes.length + 2) 0)) := by
  obtain ⟨hreserved, hnodup⟩ := validateDocumentAdmission_ok hvalid
  have hnone := hunmarked.find marker
  by_cases hadmissible : Admissible json input records
  · refine .inl ⟨hadmissible, ?_⟩
    have hfind (k : String × String) :
        (records.append (markerRow marker input.nowMs) hnone).find k =
          if (markerNamespace, marker) = k then some (markerRow marker input.nowMs)
          else records.find k :=
      Sql.Table.find_append records (markerRow marker input.nowMs) hnone k
    have hmarker : ((records.append (markerRow marker input.nowMs) hnone).find
        (markerNamespace, marker)).isSome = true := by
      rw [hfind, if_pos rfl]
      rfl
    have hfree : ∀ write ∈ input.writes,
        (records.append (markerRow marker input.nowMs) hnone).find write.row.primaryKey = none := by
      intro write hwrite
      rw [hfind, if_neg]
      · exact hadmissible.free write hwrite
      · intro heq
        exact hreserved write hwrite (Prod.mk.inj heq).1.symm
    have hbase : ((records.append (markerRow marker input.nowMs) hnone).rows.filter fun row =>
        !isRow markerNamespace marker row) = records.rows := by
      change (records.rows ++ [markerRow marker input.nowMs]).filter _ = _
      rw [List.filter_append, List.filter_eq_self.2]
      · simp [isRow, markerRow, newRow]
      · intro row hrow
        simp [isRow, hunmarked row hrow]
    obtain ⟨after, hafter, hrows⟩ := @runBatch_admitted json marker _ records.rows input.writes
      hmarker hfree hnodup hbase hreserved
    refine ⟨after, ?_, hrows⟩
    rw [statements, List.cons_append, runBatch, runStatement, if_pos (admit_iff.2 hadmissible),
      Sql.Table.insert_of_free hnone]
    simp only [Option.bind_eq_bind, Option.bind_some, hafter]
    rfl
  · refine .inr ⟨hadmissible, ?_⟩
    rw [statements, List.cons_append, runBatch, runStatement, if_neg (mt admit_iff.1 hadmissible)]
    simp only [Option.bind_eq_bind, Option.bind_some, runBatch_skipped hnone]
    rfl

end Batch

/-! ## The guarantee -/

/-- The circumstances of every event of call `i`. -/
def Guarantee (i : Nat) (event : AdmissionEvent) (world : AdmissionWorld) : Prop :=
  match event with
  | .effect (.batch batch) _ => ∃ input marker, (i, .invoke (.commit input)) ∈ world.history ∧
    validateDocumentAdmission input = .ok () ∧ batch = statements input marker
  | .effect (.record statement) _ => (i, .invoke (.record statement)) ∈ world.history
  | _ => True

section Verified

variable {json : SqliteJson} {hasSessions : Bool} {i : Nat} {world : AdmissionWorld}

/-- The program keeps the guarantee in call `i`. -/
abbrev AdmissionSafe {α : Type} (json : SqliteJson) (hasSessions : Bool) (i : Nat)
    (program : AdmissionIo α) (world : AdmissionWorld) : Prop :=
  Safe (database json hasSessions) Guarantee (Rely (database json hasSessions) Guarantee i) i
    (Returning fun _ _ => True) program world

/-- A query whose circumstances last. -/
theorem request_safe (query : Query) (h : ∀ now answer,
    Rely (database json hasSessions) Guarantee i world now → Guarantee i (.effect query answer) now) :
    AdmissionSafe json hasSessions i (Program.request query) world :=
  Safe.mono (fun _ _ _ _ _ => trivial) (Safe.request fun now _ hnow => h now _ hnow)

variable {input : AdmissionInput}

theorem publish_safe {marker : String} (hcall : (i, .invoke (.commit input)) ∈ world.history)
    (hvalid : validateDocumentAdmission input = .ok ()) :
    AdmissionSafe json hasSessions i (publish input marker) world := by
  refine Safe.andThen (fun _ _ h => h.evolves) (request_safe _ fun now _ hnow =>
    ⟨input, marker, hnow.evolves.suffix.subset hcall, hvalid, rfl⟩) fun results now _ _ => ?_
  cases results with
  | none => exact Safe.raise
  | some changes =>
    dsimp only
    split
    · exact Safe.raise
    split
    · exact Safe.done trivial
    split
    · exact Safe.raise
    · refine Safe.andThen (fun _ _ h => h.evolves) (request_safe _ fun _ _ _ => trivial)
        fun active later _ _ => ?_
      cases active with
      | none => exact Safe.raise
      | some found => cases found <;> exact Safe.done trivial

theorem commit_safe (hcall : (i, .invoke (.commit input)) ∈ world.history) :
    AdmissionSafe json hasSessions i (commit hasSessions input) world := by
  refine Safe.check fun _ (hvalid : validateDocumentAdmission input = .ok ()) => ?_
  split
  · exact Safe.raise
  · refine Safe.andThen (fun _ _ h => h.evolves) (request_safe _ fun _ _ _ => trivial)
      fun marker now hnow _ => ?_
    refine Safe.andThen (fun _ _ h => h.evolves)
      (publish_safe (hnow.suffix.subset hcall) hvalid).caught fun outcome later _ _ => ?_
    cases outcome with
    | ok value => exact Safe.done trivial
    | error error => exact Safe.raise

/-- Every call keeps the guarantee. -/
theorem verified (json : SqliteJson) (hasSessions : Bool) :
    Verified (database json hasSessions) Guarantee fun _ => True where
  inv := fun _ _ _ _ _ _ _ => trivial
  invoke := fun _ _ _ _ => trivial
  main := by
    intro i call world _ hcalls _
    refine Safe.responds (Q := fun _ _ => True) ?_ (fun _ _ _ _ _ => trivial) fun _ _ => trivial
    cases call with
    | commit input =>
      exact Safe.andThen (fun _ _ h => h.evolves) (commit_safe hcalls.1)
        fun _ _ _ _ => Safe.done trivial
    | record statement =>
      exact Safe.andThen (fun _ _ h => h.evolves)
        (request_safe _ fun _ _ hnow => hnow.evolves.suffix.subset hcalls.1)
        fun _ _ _ _ => Safe.done trivial

end Verified

/-! ## One step -/

/-- What a batch of a commit has done. -/
def Batched (json : SqliteJson) (input : AdmissionInput) (answer : Option (List Nat))
    (records after : Records) : Prop :=
  (answer = some (.replicate (input.writes.length + 2) 1) ∧ Admissible json input records ∧
    after.rows = records.rows ++ input.writes.map Write.row) ∨
  ((answer = none ∨ answer = some (.replicate (input.writes.length + 2) 0) ∧
    ¬ Admissible json input records) ∧ after = records)

/-- What the history keeps of an event: what a batch has done, and that a statement of a record
store belongs to no commit. -/
def Recorded (json : SqliteJson) (i : Nat) (event : AdmissionEvent) (older : AdmissionHistory) :
    Prop :=
  match event with
  | .effect (.batch batch) answer => ∃ input, (i, .invoke (.commit input)) ∈ older ∧
    Batched json input answer (replay json older)
      (replay json ((i, .effect (.batch batch) answer) :: older))
  | .effect (.record statement) _ => (i, .invoke (.record statement)) ∈ older
  | _ => True

/-- The invariant of the runs. -/
structure AdmissionInvariant (json : SqliteJson) (world : AdmissionWorld) : Prop where
  state : world.state = replay json world.history
  unmarked : Unmarked world.state
  recorded : Throughout (Recorded json) world.history

variable {outside : Outside}

/-- Whether a query has failed is all that its answer does not tell about the table. -/
theorem exec_failed {json : SqliteJson} {query : Query} {records after : Records}
    {answer : query.Res} (h : exec json outside query records = (after, answer)) :
    (exec json ⟨"", failed query answer⟩ query records).1 = after := by
  cases query with
  | randomUUID => exact congrArg Prod.fst h
  | source source nowMs => exact congrArg Prod.fst h
  | record statement => exact congrArg Prod.fst h
  | batch batch =>
    unfold exec at h
    cases hfails : outside.fails with
    | true =>
      simp only [hfails, if_true] at h
      cases h
      rfl
    | false =>
      simp only [hfails, Bool.false_eq_true, if_false] at h
      cases hbatch : runBatch json batch records with
      | none =>
        simp only [hbatch] at h
        cases h
        rfl
      | some result =>
        simp only [hbatch] at h
        cases h
        simp [exec, failed, hbatch]

/-- A statement of a record store leaves the reserved namespace alone. -/
theorem Unmarked.record {records : Records} (h : Unmarked records) (statement : StoreStatement) :
    Unmarked (D1.exec statement.statement records).1 := by
  obtain ⟨statement, hreserved⟩ := statement
  cases statement with
  | insert nameSpace key value nowMs expiresAt =>
    have hinsert : (D1.exec (.insert nameSpace key value nowMs expiresAt) records).1 =
        (records.insertOrIgnore (newRow nameSpace key value nowMs expiresAt)).1 := rfl
    rw [hinsert, Sql.Table.insertOrIgnore]
    split
    · intro row hrow
      rcases List.mem_append.1 hrow with hold | hnew
      · exact h row hold
      · rw [List.mem_singleton.1 hnew]
        exact hreserved
    · exact h
  | update nameSpace key expectedRevision value nowMs expiresAt =>
    intro row hrow
    obtain ⟨old, hold, rfl⟩ := List.mem_map.1 hrow
    split
    · exact h old hold
    · exact h old hold
  | delete nameSpace key expectedRevision =>
    intro row hrow
    exact h row (List.mem_of_mem_filter hrow)
  | select nameSpace key => exact h

variable {answer : Option (List Nat)}

section Step

variable {json : SqliteJson} {hasSessions : Bool} {i : Nat} {event : AdmissionEvent}
  {before after : AdmissionWorld} {input : AdmissionInput}

/-- What executing a batch of a commit does. -/
theorem batched_of_exec {records after : Records} {marker : String} (hunmarked : Unmarked records)
    (hvalid : validateDocumentAdmission input = .ok ())
    (h : exec json outside (.batch (statements input marker)) records = (after, answer)) :
    Batched json input answer records after := by
  unfold exec at h
  cases hfails : outside.fails with
  | true =>
    simp only [hfails, if_true] at h
    cases h
    exact .inr ⟨.inl rfl, rfl⟩
  | false =>
    simp only [hfails, Bool.false_eq_true, if_false] at h
    rcases @runBatch_statements json input marker records hunmarked hvalid with
      ⟨hadmissible, _, hrun, hrows⟩ | ⟨hadmissible, hrun⟩
    · simp only [hrun] at h
      cases h
      exact .inl ⟨rfl, hadmissible, hrows⟩
    · simp only [hrun] at h
      cases h
      exact .inr ⟨.inr ⟨rfl, hadmissible⟩, rfl⟩

theorem Batched.unmarked {records now : Records} (h : Batched json input answer records now)
    (hvalid : validateDocumentAdmission input = .ok ()) (hunmarked : Unmarked records) :
    Unmarked now := by
  rcases h with ⟨-, -, hrows⟩ | ⟨-, rfl⟩
  · intro row hrow
    rw [hrows] at hrow
    rcases List.mem_append.1 hrow with hold | hnew
    · exact hunmarked row hold
    · obtain ⟨write, hwrite, rfl⟩ := List.mem_map.1 hnew
      exact (validateDocumentAdmission_ok hvalid).1 write hwrite
  · exact hunmarked

theorem admissionInvariant_step (hstep : (database json hasSessions).Step i event before after)
    (hG : Guarantee i event before) (h : AdmissionInvariant json before) :
    AdmissionInvariant json after := by
  cases event with
  | invoke call =>
    refine ⟨?_, hstep.invoke_state ▸ h.unmarked, h.recorded.step hstep trivial⟩
    rw [hstep.history, hstep.invoke_state]
    exact h.state
  | response outcome =>
    refine ⟨?_, hstep.response_state ▸ h.unmarked, h.recorded.step hstep trivial⟩
    rw [hstep.history, hstep.response_state]
    exact h.state
  | effect query answer =>
    obtain ⟨outside, hexec⟩ := hstep.exec_eq
    have hexec' : exec json outside query before.state = (after.state, answer) := hexec
    have hreplay : replay json ((i, .effect query answer) :: before.history) = after.state := by
      rw [replay, ← h.state]
      exact exec_failed hexec'
    have hstate : after.state = replay json after.history := by
      rw [hstep.history, hreplay]
    cases query with
    | batch batch =>
      obtain ⟨input, _, hcall, hvalid, rfl⟩ := hG
      have hbatched := batched_of_exec h.unmarked hvalid hexec'
      refine ⟨hstate, hbatched.unmarked hvalid h.unmarked, h.recorded.step hstep ⟨input, hcall, ?_⟩⟩
      rw [hreplay, ← h.state]
      exact hbatched
    | randomUUID =>
      have hsame : after.state = before.state := congrArg Prod.fst hexec'.symm
      exact ⟨hstate, hsame ▸ h.unmarked, h.recorded.step hstep trivial⟩
    | source source nowMs =>
      have hsame : after.state = before.state := congrArg Prod.fst hexec'.symm
      exact ⟨hstate, hsame ▸ h.unmarked, h.recorded.step hstep trivial⟩
    | record statement =>
      have hafter : after.state = (D1.exec statement.statement before.state).1 :=
        congrArg Prod.fst hexec'.symm
      exact ⟨hstate, hafter ▸ h.unmarked.record statement, h.recorded.step hstep hG⟩

end Step

/-! ## The outcome of a commit -/

section Outcome

variable {hasSessions : Bool} {input : AdmissionInput}
  {effects : List (Σ query, Query.Res query)}

/-- The batches of a call with their answers. -/
def batches (effects : List (Σ query, Query.Res query)) : List (Option (List Nat)) :=
  effects.filterMap fun
    | ⟨.batch _, answer⟩ => some answer
    | _ => none

/-- What tells that each statement of the batch has changed one row. -/
def AllChanged (input : AdmissionInput) (answer : Option (List Nat)) : Prop :=
  ∃ changes, answer = some changes ∧ changes.length = input.writes.length + 2 ∧
    ∀ count ∈ changes, count = 1

variable {outcome : Except Fault AdmissionResult} {marker : String}

/-- A publication executes one batch, and it is committed exactly if each statement has changed
one row. -/
theorem publish_path (h : Program.Path (publish input marker) effects (.ofExcept outcome)) :
    ∃ answer, batches effects = [answer] ∧
      (outcome = .ok .committed ↔ AllChanged input answer) := by
  simp only [publish, Program.bind_eq, Program.request_bind] at h
  obtain ⟨answer, more, rfl, hmore⟩ := Program.path_perform_ofExcept_iff.1 h
  have hlength : (statements input marker).length = input.writes.length + 2 := by
    simp [statements]
  cases answer with
  | none =>
    obtain ⟨rfl, rfl⟩ := Program.path_raise_outcome.1 hmore
    exact ⟨none, rfl, by simp [AllChanged]⟩
  | some changes =>
    have hbatches : batches (⟨.batch (statements input marker), some changes⟩ :: more) =
        some changes :: batches more := rfl
    simp only at hmore
    split at hmore
    · rename_i hne
      obtain ⟨rfl, rfl⟩ := Program.path_raise_outcome.1 hmore
      refine ⟨some changes, hbatches, ?_⟩
      simp [AllChanged, ← hlength, hne]
    · rename_i heq
      rw [not_not] at heq
      split at hmore
      · rename_i hall
        obtain ⟨rfl, rfl⟩ := Program.path_done_outcome.1 hmore
        refine ⟨some changes, hbatches, ?_⟩
        simpa [AllChanged, ← hlength, heq] using hall
      · rename_i hall
        have hnot : ¬ AllChanged input (some changes) := by
          rintro ⟨_, ⟨⟩, -, hone⟩
          exact hall (List.all_eq_true.2 fun count hcount => by simp [hone count hcount])
        split at hmore
        · obtain ⟨rfl, rfl⟩ := Program.path_raise_outcome.1 hmore
          exact ⟨some changes, hbatches, by simp [hnot]⟩
        · obtain ⟨active, rest, rfl, hrest⟩ := Program.path_perform_ofExcept_iff.1 hmore
          have hnothing : rest = [] ∧ outcome ≠ .ok .committed := by
            rcases active with _ | _ | found
            · obtain ⟨rfl, rfl⟩ := Program.path_raise_outcome.1 hrest
              exact ⟨rfl, by simp⟩
            · obtain ⟨rfl, rfl⟩ := Program.path_done_outcome.1 hrest
              exact ⟨rfl, by simp⟩
            · obtain ⟨rfl, rfl⟩ := Program.path_done_outcome.1 hrest
              exact ⟨rfl, by simp⟩
          obtain ⟨rfl, hne⟩ := hnothing
          exact ⟨some changes, hbatches, by simp [hnot, hne]⟩

/-- Catching what a publication raises commits nothing. -/
theorem caught_path
    (h : Program.Path ((publish input marker).tryCatch fun _ => Program.raise unavailable) effects
      (.ofExcept outcome)) : ∃ answer, batches effects = [answer] ∧
      (outcome = .ok .committed ↔ AllChanged input answer) := by
  rcases h.tryCatch_outcome with ⟨_, hpath, rfl⟩ | ⟨_, _, _, rfl, hpath, hrest⟩
  · rw [← Program.ofExcept_ok] at hpath
    exact publish_path hpath
  · obtain ⟨rfl, rfl⟩ := Program.path_raise_outcome.1 hrest
    rw [← Program.ofExcept_error] at hpath
    obtain ⟨answer, hbatches, hcommitted⟩ := publish_path hpath
    refine ⟨answer, by simpa using hbatches, ?_⟩
    rw [← hcommitted]
    simp

/-- A commit executes at most one batch, and it is committed exactly if it has executed one of
which each statement has changed one row. -/
theorem commit_path {outcome : Except Fault Reply}
    (h : Program.Path (main hasSessions (.commit input)) effects (.ofExcept outcome)) :
    (batches effects = [] ∧ outcome ≠ .ok (.admission .committed)) ∨
      ∃ answer, batches effects = [answer] ∧
        (outcome = .ok (.admission .committed) ↔ AllChanged input answer) := by
  simp only [main, commit, Program.bind_eq, Program.bind_assoc] at h
  rcases h.checked with ⟨error, -, rfl, rfl⟩ | ⟨_, -, hrest⟩
  · exact .inl ⟨rfl, by simp⟩
  split at hrest
  · rw [Program.raise_bind] at hrest
    obtain ⟨rfl, rfl⟩ := Program.path_raise_outcome.1 hrest
    exact .inl ⟨rfl, by simp⟩
  · simp only [Program.request_bind, Program.perform_bind] at hrest
    obtain ⟨marker, more, rfl, hmore⟩ := Program.path_perform_ofExcept_iff.1 hrest
    have hbatches : batches (⟨.randomUUID, marker⟩ :: more) = batches more := rfl
    rw [hbatches]
    refine .inr ?_
    rcases hmore.bind_outcome with ⟨error, hpath, rfl⟩ | ⟨_, _, _, rfl, hpath, hlast⟩
    · have hraised : Program.Path _ more (.ofExcept (.error error)) := hpath
      obtain ⟨answer, hanswer, hcommitted⟩ := caught_path hraised
      refine ⟨answer, hanswer, ?_⟩
      rw [← hcommitted]
      simp
    · obtain ⟨rfl, rfl⟩ := Program.path_done_outcome.1 hlast
      rw [← Program.ofExcept_ok] at hpath
      obtain ⟨answer, hanswer, hcommitted⟩ := caught_path hpath
      refine ⟨answer, by simpa using hanswer, ?_⟩
      rw [← hcommitted]
      simp

end Outcome

/-! ## Runs -/

/-- No calls yet, and no rows. -/
def initial : Config Call Query Query.Res Fault Reply Records :=
  Config.initial .empty

theorem mem_batches {i : Nat} {batch : List BatchStatement} {history : AdmissionHistory}
    (h : (i, .effect (.batch batch) answer) ∈ history) : answer ∈ batches (effectsOf i history) :=
  List.mem_filterMap.2 ⟨_, mem_effectsOf.2 h, rfl⟩

theorem AdmissionInvariant.atomic {json : SqliteJson} {hasSessions : Bool}
    {config : Config Call Query Query.Res Fault Reply Records}
    (h : AdmissionInvariant json config.toWorld)
    (hconsistent : (database json hasSessions).Consistent config) :
    Atomic json config.toWorld := by
  have haccounted : (database json hasSessions).Accounted config.toWorld :=
    ⟨config, hconsistent, rfl⟩
  -- What the history keeps of the batch of a commit, about the commit's own input.
  have hbatched : ∀ newer i batch answer older input,
      config.history = newer ++ (i, .effect (.batch batch) answer) :: older →
      (i, .invoke (.commit input)) ∈ config.history →
      Batched json input answer (replay json older)
        (replay json ((i, .effect (.batch batch) answer) :: older)) := by
    intro newer i batch answer older input hsplit hcall
    have hrecorded := h.recorded
    rw [hsplit] at hrecorded
    obtain ⟨other, hother, hdone⟩ := hrecorded.entry
    have hsame := haccounted.invoke_unique hcall
      (hsplit ▸ List.mem_append_right _ (List.mem_cons_of_mem _ hother))
    cases hsame
    exact hdone
  refine ⟨h.state, h.unmarked, ?_, ?_, ?_, ?_⟩
  · intro i input hcall hresponse
    rcases commit_path (hconsistent.responded hcall hresponse) with ⟨-, hne⟩ |
      ⟨answer, hbatches, hcommitted⟩
    · exact absurd rfl hne
    · obtain ⟨changes, rfl, -⟩ := hcommitted.1 rfl
      have hmem : some changes ∈ batches (effectsOf i config.history) := by simp [hbatches]
      obtain ⟨⟨query, answer⟩, heffect, hanswer⟩ := List.mem_filterMap.1 hmem
      cases query with
      | batch batch =>
        cases hanswer
        exact ⟨batch, changes, mem_effectsOf.1 heffect⟩
      | randomUUID => cases hanswer
      | source => cases hanswer
      | record => cases hanswer
  · intro newer i batch answer older input outcome hsplit hcall hresponse
    have hmem : answer ∈ batches (effectsOf i config.history) :=
      mem_batches (hsplit ▸ List.mem_append_right _ (List.mem_cons_self ..))
    rcases commit_path (hconsistent.responded hcall hresponse) with ⟨hnone, -⟩ |
      ⟨_, hbatches, hcommitted⟩
    · simp [hnone] at hmem
    · rw [hbatches, List.mem_singleton] at hmem
      subst hmem
      rw [hcommitted]
      rcases hbatched newer i batch answer older input hsplit hcall with
        ⟨rfl, hadmissible, -⟩ | ⟨rfl | ⟨rfl, hadmissible⟩, -⟩
      · refine ⟨fun _ => ⟨rfl, hadmissible⟩, fun _ => ⟨_, rfl, by simp, ?_⟩⟩
        exact fun count hcount => List.eq_of_mem_replicate hcount
      · simp [AllChanged]
      · refine ⟨?_, fun h => absurd h.2 hadmissible⟩
        rintro ⟨_, ⟨⟩, -, hone⟩
        have := hone 0 (List.mem_replicate.2 ⟨by omega, rfl⟩)
        omega
  · intro newer i batch answer older input hsplit hcall hsome hadmissible
    rcases hbatched newer i batch answer older input hsplit hcall with
      ⟨-, -, hrows⟩ | ⟨rfl | ⟨-, hnot⟩, -⟩
    · exact hrows
    · cases hsome
    · exact absurd hadmissible hnot
  · intro newer i event older input hsplit hcall hnot
    cases event with
    | invoke call => rfl
    | response outcome => rfl
    | effect query answer =>
      cases query with
      | randomUUID => rfl
      | source => rfl
      | record statement =>
        have hrecorded := h.recorded
        rw [hsplit] at hrecorded
        have hother := hrecorded.entry
        have hsame := haccounted.invoke_unique hcall
          (hsplit ▸ List.mem_append_right _ (List.mem_cons_of_mem _ hother))
        cases hsame
      | batch batch =>
        rcases hbatched newer i batch answer older input hsplit hcall with
          ⟨rfl, hadmissible, -⟩ | ⟨-, hsame⟩
        · exact absurd hadmissible (hnot batch _ rfl)
        · exact hsame

/-- Document admission is all or nothing, in every run of commits and other clients. -/
theorem admission_atomic (json : SqliteJson) (hasSessions : Bool)
    (actions : List (Action Call Outside)) :
    Atomic json ((database json hasSessions).run initial actions).toWorld := by
  have hready : Ready (database json hasSessions) Guarantee (fun _ => True) initial :=
    ready_initial trivial
  have hinvariant := hready.persists (verified json hasSessions) actions
    (P := AdmissionInvariant json)
    (fun _ _ _ _ _ _ hstep hG h => admissionInvariant_step hstep hG h)
    ⟨rfl, by rintro row ⟨⟩, trivial⟩
  exact hinvariant.atomic ((consistent_initial _).run actions)

/-- A text that stands for an active source until 2000. -/
def sampleJson : SqliteJson := fun value =>
  if value = "s" then some fun member =>
    if member = "status" then .text "active"
    else if member = "expiresAt" then .integer 2000 else .null
  else none

/-- The source is written, and one record is published. -/
def sampleActions : List (Action Call Outside) :=
  .invoke (.record ⟨.insert "u" "f" "s" 1000 none, by decide⟩) ::
    .replicate 2 (.advance 0 ⟨"", false⟩) ++
    .invoke (.commit ⟨⟨"u", "f", 1, "s"⟩, [⟨"j", ⟨"k", "v", 1001, none⟩⟩], 1001⟩) ::
    .replicate 3 (.advance 1 ⟨"m", false⟩)

example : (((database sampleJson true).run initial sampleActions).state.rows.map
    Row.primaryKey) = [("u", "f"), ("j", "k")] := by
  decide +kernel

end Groundlane.DocumentAdmission
