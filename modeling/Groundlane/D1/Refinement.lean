import Groundlane.D1.Records

/-!
# The D1 store refines the in-memory store

Any number of calls of stores over one table (`database`). Every answer is the one that the
in-memory store gives at one moment of the call, and the moment at which the call's write takes
effect if it does (`d1_refines`), provided that nobody else's write comes between a write and the
statement that reads it back, and that the clocks of the callers agree enough. Where that fails, a
call returns another caller's record as the one that it has written (`foreign_record`).
-/

namespace Groundlane.D1

open Fenced Interleaving Interleaving.System

/-- An event of a call of the store. -/
abbrev RecordsEvent : Type := Event Call Statement Statement.Res Fault Reply

/-- A world of calls of the store. -/
abbrev RecordsWorld : Type := World Call Statement Statement.Res Fault Reply Records

/-- Everything that happened, newest first. -/
abbrev RecordsHistory : Type := List (Nat × RecordsEvent)

/-! ## Refinement -/

/-- The key that a call is about. -/
def Call.key : Call → String
  | .get key => key
  | .createIfAbsent key .. => key
  | .compareAndSwap key .. => key
  | .deleteIfRevision key _ => key

/-- The call whose effect a statement has. -/
def Statement.call : Statement → Call
  | insert _ key value nowMs expiresAt => .createIfAbsent key value nowMs expiresAt
  | update _ key expectedRevision value nowMs expiresAt =>
    .compareAndSwap key expectedRevision value nowMs expiresAt
  | delete _ key expectedRevision => .deleteIfRevision key expectedRevision
  | select _ key => .get key

/-- The in-memory store after the statements of the history, one call for each. -/
def replay : RecordsHistory → Store String String
  | [] => .empty
  | (_, .effect statement _) :: older => (inMemory (replay older) statement.call).1
  | _ :: older => replay older

/-- The number of rows that a statement has changed. -/
def Statement.changes : (statement : Statement) → statement.Res → Nat
  | insert .., changes => changes
  | update .., changes => changes
  | delete .., changes => changes
  | select .., _ => 0

/-- The key under which the event has changed a row. -/
def changed : RecordsEvent → Option String
  | .effect statement answer =>
    if statement.changes answer = 1 then some statement.call.key else none
  | _ => none

/-- The outcome is what the in-memory store answers at one moment of call `i`, and at the moment
at which its write takes effect if it does. -/
def Linearized (i : Nat) (call : Call) (outcome : Except Fault Reply) (history : RecordsHistory) :
    Prop :=
  ∃ newer statement answer older, history = newer ++ (i, .effect statement answer) :: older ∧
    outcome = .ok (inMemory (replay older) call).2 ∧
    ((∃ event, (i, event) ∈ history ∧ (changed event).isSome) →
      (changed (.effect statement answer)).isSome)

/-- The calls on the table behave as those of the in-memory store. -/
structure Refines (nameSpace : String) (world : RecordsWorld) : Prop where
  state : ∀ key, (world.state.find (nameSpace, key)).map Row.record =
    (replay world.history).get key
  answers : ∀ i call outcome, (i, .invoke call) ∈ world.history →
    (i, .response outcome) ∈ world.history → effectsOf i world.history ≠ [] →
    Linearized i call outcome world.history
  updated : ∀ i key expectedRevision value nowMs expiresAt record,
    (i, .invoke (.compareAndSwap key expectedRevision value nowMs expiresAt)) ∈ world.history →
    (i, .response (.ok (.swapped (.updated record)))) ∈ world.history →
    record.key = key ∧ record.value = value ∧ record.revision = expectedRevision + 1 ∧
      record.updatedAt = nowMs ∧ record.expiresAt = expiresAt
  created : ∀ i key value nowMs expiresAt record,
    (i, .invoke (.createIfAbsent key value nowMs expiresAt)) ∈ world.history →
    (i, .response (.ok (.created (.created record)))) ∈ world.history →
    record = ⟨key, value, 1, nowMs, nowMs, expiresAt⟩
  effective : ∀ i event error, (i, event) ∈ world.history → (changed event).isSome →
    (i, .response (.error error)) ∉ world.history

/-! ## The condition -/

/-- The call would change nothing while this is the record under its key. -/
def refuses : Call → Option (Record String String) → Bool
  | .get _, _ => true
  | .createIfAbsent .., current => current.isSome
  | .compareAndSwap _ expectedRevision .., current =>
    current.all fun record => record.revision != expectedRevision
  | .deleteIfRevision _ expectedRevision, current =>
    current.all fun record => record.revision != expectedRevision

/-- The call whose write has changed the key last. -/
def lastWriter (key : String) (history : RecordsHistory) : Option Nat :=
  (history.find? fun entry => changed entry.2 == some key).map Prod.fst

/-- Whether there was a record under the key when call `i` executed a statement. -/
def wasTaken (i : Nat) (key : String) : RecordsHistory → Bool
  | [] => false
  | (j, event) :: older => wasTaken i key older || match event with
    | .effect .. => j == i && ((replay older).get key).isSome
    | _ => false

/-- Whether the statement deletes. -/
def Statement.deletes : Statement → Bool
  | delete .. => true
  | _ => false

/-- What call `i` reads back after its write: its own write if that has taken effect, and
otherwise a record over which it would still have no effect. A deletion that has found a record
may also read back another one. -/
def undisturbed (i : Nat) (event : RecordsEvent) (history : RecordsHistory) : Bool :=
  match event with
  | .effect (.select _ key) row => match effectsOf i history with
    | [⟨statement, answer⟩] =>
      if statement.changes answer = 1 then lastWriter key history == some i
      else refuses statement.call (row.map Row.record) ||
        (statement.deletes && wasTaken i key history)
    | _ => true
  | _ => true

/-- An update is not dated before the creation of the row that it changes, and leads to a safe
integer as revision. -/
def timely (event : RecordsEvent) (records : Records) : Bool :=
  match event with
  | .effect (.update nameSpace key expectedRevision _ nowMs _) changes =>
    changes != 1 || isSafeInteger (expectedRevision + 1) &&
      (records.find (nameSpace, key)).all fun row => decide (row.createdAt ≤ nowMs)
  | _ => true

/-! ## The guarantee -/

/-- The checks that a call makes before its statement. -/
def validated : Statement → Except Fault Unit
  | .insert _ key value nowMs expiresAt => do
    validateDurableKey key
    validateDurableWrite value nowMs expiresAt
  | .update _ key expectedRevision value nowMs expiresAt => do
    validateDurableKey key
    validateDurableWrite value nowMs expiresAt
    validateExpectedRevision expectedRevision
  | .delete _ key _ => validateDurableKey key
  | .select _ key => validateDurableKey key

/-- Statements name the namespace of the store, and their arguments have been checked. -/
def Guarantee (nameSpace : String) (_ : Nat) (event : RecordsEvent) (_ : RecordsWorld) : Prop :=
  ∀ statement answer, event = .effect statement answer →
    statement.nameSpace = nameSpace ∧ validated statement = .ok ()

section Verified

variable {nameSpace : String} {i : Nat} {world : RecordsWorld}

/-- The program keeps the guarantee in call `i`. -/
abbrev RecordsSafe {α : Type} (nameSpace : String) (i : Nat) (program : D1Io α)
    (world : RecordsWorld) : Prop :=
  Safe (database nameSpace) (Guarantee nameSpace) (Rely (database nameSpace)
    (Guarantee nameSpace) i) i (Returning fun _ _ => True) program world

theorem RecordsSafe.andThen {α β : Type} {program : D1Io α} {rest : α → D1Io β}
    (h : RecordsSafe nameSpace i program world)
    (hrest : ∀ value now, RecordsSafe nameSpace i (rest value) now) :
    RecordsSafe nameSpace i (program.bind rest) world :=
  Safe.andThen (fun _ _ h => h.evolves) h fun value now _ _ => hrest value now

/-- A statement with checked arguments. -/
theorem request_safe (statement : Statement) (hname : statement.nameSpace = nameSpace)
    (hvalid : validated statement = .ok ()) :
    RecordsSafe nameSpace i (Program.request statement) world := by
  refine Safe.mono (fun _ _ _ _ _ => trivial) (Safe.request fun now oracle _ => ?_)
  rintro other answer heq
  cases heq
  exact ⟨hname, hvalid⟩

theorem select_safe {key : String} (hkey : validateDurableKey key = .ok ()) :
    RecordsSafe nameSpace i (select nameSpace key) world :=
  (request_safe (.select nameSpace key) rfl hkey).andThen fun _ _ =>
    Safe.ofExcept fun _ _ => trivial

theorem get_safe (key : String) : RecordsSafe nameSpace i (get nameSpace key) world :=
  Safe.check fun _ (hkey : validateDurableKey key = .ok ()) => select_safe hkey

theorem createIfAbsent_safe (key value : String) (nowMs : Int) (expiresAt : Option Int) :
    RecordsSafe nameSpace i (createIfAbsent nameSpace key value nowMs expiresAt) world := by
  refine Safe.check fun _ (hkey : validateDurableKey key = .ok ()) => ?_
  refine Safe.check fun _ (hwrite : validateDurableWrite value nowMs expiresAt = .ok ()) => ?_
  have hvalid : validated (.insert nameSpace key value nowMs expiresAt) = .ok () := by
    rw [validated, hkey, hwrite]
    rfl
  refine (request_safe _ rfl hvalid).andThen fun changes now => ?_
  refine (select_safe hkey).andThen fun record later => ?_
  cases record with
  | none => exact Safe.raise
  | some record => exact Safe.done trivial

theorem compareAndSwap_safe (key : String) (expectedRevision : Nat) (value : String) (nowMs : Int)
    (expiresAt : Option Int) : RecordsSafe nameSpace i
      (compareAndSwap nameSpace key expectedRevision value nowMs expiresAt) world := by
  refine Safe.check fun _ (hkey : validateDurableKey key = .ok ()) => ?_
  refine Safe.check fun _ (hwrite : validateDurableWrite value nowMs expiresAt = .ok ()) => ?_
  refine Safe.check fun _ (hrevision : validateExpectedRevision expectedRevision = .ok ()) => ?_
  have hvalid : validated
      (.update nameSpace key expectedRevision value nowMs expiresAt) = .ok () := by
    rw [validated, hkey, hwrite, hrevision]
    rfl
  refine (request_safe _ rfl hvalid).andThen fun changes now => ?_
  refine (select_safe hkey).andThen fun record later => ?_
  cases record with
  | none =>
    dsimp only
    split
    · exact Safe.raise
    · exact Safe.done trivial
  | some record => exact Safe.done trivial

theorem deleteIfRevision_safe (key : String) (expectedRevision : Nat) :
    RecordsSafe nameSpace i (deleteIfRevision nameSpace key expectedRevision) world := by
  refine Safe.check fun _ (hkey : validateDurableKey key = .ok ()) => Safe.check fun _ _ => ?_
  refine (request_safe (.delete nameSpace key expectedRevision) rfl hkey).andThen
    fun changes now => ?_
  split
  · exact Safe.done trivial
  · exact (select_safe hkey).andThen fun record later => Safe.done trivial

/-- Every call of the store keeps the guarantee. -/
theorem verified (nameSpace : String) :
    Verified (database nameSpace) (Guarantee nameSpace) fun _ => True where
  inv := fun _ _ _ _ _ _ _ => trivial
  invoke := fun _ _ _ _ => nofun
  main := by
    intro i call world _ _ _
    refine Safe.responds (Q := fun _ _ => True) ?_ (fun _ _ _ _ _ => nofun) fun _ _ => nofun
    cases call with
    | get key => exact (get_safe key).andThen fun _ _ => Safe.done trivial
    | createIfAbsent key value nowMs expiresAt =>
      exact (createIfAbsent_safe key value nowMs expiresAt).andThen fun _ _ => Safe.done trivial
    | compareAndSwap key expectedRevision value nowMs expiresAt =>
      exact (compareAndSwap_safe key expectedRevision value nowMs expiresAt).andThen
        fun _ _ => Safe.done trivial
    | deleteIfRevision key expectedRevision =>
      exact (deleteIfRevision_safe key expectedRevision).andThen fun _ _ => Safe.done trivial

end Verified

/-! ## Rows can be read -/

/-- The row passes the checks of `decodeRecord`. -/
structure Row.Valid (row : Row) : Prop where
  revision : isSafeInteger row.revision = true ∧ 1 ≤ row.revision
  created : isSafeInteger row.createdAt = true ∧ 0 ≤ row.createdAt
  updated : isSafeInteger row.updatedAt = true ∧ row.createdAt ≤ row.updatedAt
  expires : ∀ expiresAt ∈ row.expiresAt, isSafeInteger expiresAt = true ∧
    row.createdAt < expiresAt
  key : validateDurableKey row.key = .ok ()
  value : validateDurableValue row.value = .ok ()

theorem Row.Valid.decode {row : Row} (h : row.Valid) :
    decodeRecord (some row) = .ok (some row.record) := by
  have hexpires : (row.expiresAt.all fun expiresAt => isSafeInteger expiresAt &&
      decide (row.createdAt < expiresAt)) = true := by
    rw [Option.all_eq_true]
    intro expiresAt hexpiresAt
    simpa using h.expires expiresAt hexpiresAt
  rw [decodeRecord, if_neg (not_not.2 ⟨h.revision.1, h.revision.2, h.created.1, h.created.2,
    h.updated.1, h.updated.2, hexpires⟩), h.key, h.value]

variable {statement : Statement} {expiresAt : Option Int} {expectedRevision : Nat}
  {answer : statement.Res} {nowMs : Int} {value : String} {call : Call}

theorem validateDurableWrite_ok (h : validateDurableWrite value nowMs expiresAt = .ok ()) :
    validateDurableValue value = .ok () ∧ (isSafeInteger nowMs = true ∧ 0 ≤ nowMs) ∧
      ∀ time ∈ expiresAt, isSafeInteger time = true ∧ nowMs < time := by
  simp only [validateDurableWrite, bind, Except.bind, pure, Except.pure, throw, throwThe,
    MonadExceptOf.throw] at h
  cases hvalue : validateDurableValue value with
  | error error => simp [hvalue] at h
  | ok =>
    simp only [hvalue] at h
    refine ⟨rfl, ?_⟩
    by_cases hnow : ¬ isSafeInteger nowMs ∨ nowMs < 0
    · rw [if_pos hnow] at h
      cases h
    · by_cases hexpires : expiresAt.any fun time => ¬ isSafeInteger time ∨ time ≤ nowMs
      · rw [if_neg hnow, if_pos hexpires] at h
        cases h
      · refine ⟨by simpa using hnow, fun time htime => ?_⟩
        rw [Option.mem_def.1 htime] at hexpires
        simpa using hexpires

/-- All rows of the namespace can be read. -/
def AllValid (nameSpace : String) (records : Records) : Prop :=
  ∀ key row, records.find (nameSpace, key) = some row → row.Valid

theorem AllValid.decode {nameSpace : String} {records : Records} (h : AllValid nameSpace records)
    (key : String) : decodeRecord (records.find (nameSpace, key)) =
      .ok ((records.find (nameSpace, key)).map Row.record) := by
  cases hfind : records.find (nameSpace, key) with
  | none => rfl
  | some row => exact (h key row hfind).decode

/-! ## The table and the in-memory store -/

/-- The table holds the records of the store. -/
def Simulates (nameSpace : String) (records : Records) (store : Store String String) : Prop :=
  ∀ key, (records.find (nameSpace, key)).map Row.record = store.get key

/-- The row that a statement has read is the record that it finds under its key. -/
def Read : (statement : Statement) → statement.Res → Option (Record String String) → Prop
  | .select .., row, current => row.map Row.record = current ∧ decodeRecord row = .ok current
  | _, _, _ => True

/-- The answer to a statement that finds this record under its key. -/
structure Answered (statement : Statement) (answer : statement.Res)
    (current : Option (Record String String)) : Prop where
  changes : statement.changes answer = if refuses statement.call current then 0 else 1
  read : Read statement answer current

/-- A call that changes nothing leaves the in-memory store as it is. -/
theorem inMemory_refused {store : Store String String}
    (h : refuses call (store.get call.key) = true) : (inMemory store call).1 = store := by
  cases call with
  | get key => rfl
  | createIfAbsent key value nowMs expiresAt =>
    rcases Store.createIfAbsent_cases store key value nowMs expiresAt with
      ⟨_, _, heq⟩ | ⟨hnone, _⟩
    · rw [inMemory, heq]
    · simp [refuses, Call.key, hnone] at h
  | compareAndSwap key expectedRevision value nowMs expiresAt =>
    rcases Store.compareAndSwap_cases store key expectedRevision value nowMs expiresAt with
      ⟨_, heq⟩ | ⟨_, _, _, heq⟩ | ⟨current, hcurrent, hrevision, _⟩
    · rw [inMemory, heq]
    · rw [inMemory, heq]
    · simp [refuses, Call.key, hcurrent, hrevision] at h
  | deleteIfRevision key expectedRevision =>
    rcases Store.deleteIfRevision_cases store key expectedRevision with
      ⟨_, heq⟩ | ⟨_, _, _, heq⟩ | ⟨_, hcurrent, hrevision, _⟩
    · rw [inMemory, heq]
    · rw [inMemory, heq]
    · simp [refuses, Call.key, hcurrent, hrevision] at h

/-- A call of the in-memory store leaves other keys alone. -/
theorem inMemory_of_ne {store : Store String String} {key : String} (h : call.key ≠ key) :
    (inMemory store call).1.get key = store.get key := by
  cases call with
  | get => rfl
  | createIfAbsent => exact Store.get_createIfAbsent_of_ne h
  | compareAndSwap => exact Store.get_compareAndSwap_of_ne h
  | deleteIfRevision => exact Store.get_deleteIfRevision_of_ne h

/-- At most one row has the primary key that `atRevision` names. -/
theorem count_atRevision (records : Records) (nameSpace key : String) (expectedRevision : Nat) :
    records.rows.countP (atRevision nameSpace key expectedRevision) =
      if (records.find (nameSpace, key)).any (fun row => decide (row.revision = expectedRevision))
      then 1 else 0 :=
  records.count_of_key (nameSpace, key) fun row => decide (row.revision = expectedRevision)

/-- A row at the expected revision is one over which a call does not refuse. -/
theorem count_refused (row : Option Row) (expectedRevision : Nat) :
    (if row.any (fun row => decide (row.revision = expectedRevision)) then 1 else 0) =
      if (row.map Row.record).all (fun record => record.revision != expectedRevision)
      then 0 else 1 := by
  cases row with
  | none => rfl
  | some row => by_cases hrevision : row.revision = expectedRevision <;>
    simp [hrevision, Row.record]

section Simulation

variable {nameSpace : String} {records : Records} {store : Store String String}

/-- The number of changed rows tells whether the in-memory store would refuse. -/
theorem Simulates.answered (h : Simulates nameSpace records store)
    (hvalid : AllValid nameSpace records) (hname : statement.nameSpace = nameSpace) :
    Answered statement (D1.exec statement records).2 (store.get statement.call.key) := by
  subst hname
  rw [← h statement.call.key]
  cases statement with
  | insert nameSpace key value nowMs expiresAt =>
    refine ⟨(Sql.Table.count_insertOrIgnore _ _).trans ?_, trivial⟩
    change (if (records.find (nameSpace, key)).isSome then 0 else 1) =
      if ((records.find (nameSpace, key)).map Row.record).isSome then 0 else 1
    rw [Option.isSome_map]
  | update nameSpace key expectedRevision value nowMs expiresAt =>
    refine ⟨(count_atRevision records nameSpace key expectedRevision).trans ?_, trivial⟩
    exact count_refused (records.find (nameSpace, key)) expectedRevision
  | delete nameSpace key expectedRevision =>
    refine ⟨(count_atRevision records nameSpace key expectedRevision).trans ?_, trivial⟩
    exact count_refused (records.find (nameSpace, key)) expectedRevision
  | select nameSpace key => exact ⟨rfl, rfl, hvalid.decode key⟩

theorem Simulates.insert (h : Simulates nameSpace records store) (key value : String)
    (nowMs : Int) (expiresAt : Option Int) :
    Simulates nameSpace (records.insertOrIgnore (newRow nameSpace key value nowMs expiresAt)).1
      (store.createIfAbsent key value nowMs expiresAt).1 := by
  intro other
  have hkey := h key
  rw [Sql.Table.find_insertOrIgnore]
  by_cases heq : key = other
  · subst heq
    rcases Store.createIfAbsent_cases store key value nowMs expiresAt with
      ⟨record, hrecord, hcreate⟩ | ⟨hnone, hcreate⟩
    · obtain ⟨_, hrow, rfl⟩ := Option.map_eq_some_iff.1 (hkey.trans hrecord)
      rw [hcreate, hrecord, hrow]
      rfl
    · rw [hcreate, Option.map_eq_none_iff.1 (hkey.trans hnone), Store.get_insert, if_pos rfl]
      simp [newRow, Row.primaryKey, Row.record]
  · rw [Store.get_createIfAbsent_of_ne heq, ← h other]
    simp [newRow, Row.primaryKey, heq]

theorem Simulates.update (h : Simulates nameSpace records store) (key : String)
    (expectedRevision : Nat) (value : String) (nowMs : Int) (expiresAt : Option Int) :
    Simulates nameSpace (records.update (atRevision nameSpace key expectedRevision)
        (changeRow value nowMs expiresAt) (changeRow_primaryKey value nowMs expiresAt)).1
      (store.compareAndSwap key expectedRevision value nowMs expiresAt).1 := by
  intro other
  rw [Sql.Table.find_update]
  by_cases heq : key = other
  · subst heq
    have hkey := h key
    rcases Store.compareAndSwap_cases store key expectedRevision value nowMs expiresAt with
      ⟨hnone, hswap⟩ | ⟨_, hcurrent, hrevision, hswap⟩ |
      ⟨_, hcurrent, hrevision, hswap⟩
    · rw [hswap, hnone, Option.map_eq_none_iff.1 (hkey.trans hnone)]
      rfl
    · obtain ⟨row, hrow, rfl⟩ := Option.map_eq_some_iff.1 (hkey.trans hcurrent)
      have hrow' : row.revision ≠ expectedRevision := hrevision
      rw [hswap, hcurrent, hrow]
      simp [atRevision, hrow']
    · obtain ⟨row, hrow, rfl⟩ := Option.map_eq_some_iff.1 (hkey.trans hcurrent)
      have hrow' : row.revision = expectedRevision := hrevision
      have hfound : row.primaryKey = (nameSpace, key) := Sql.Table.find_key hrow
      have hkeys : row.key = key := (Prod.mk.inj hfound).2
      rw [hswap, Store.get_replace, if_pos rfl, hcurrent, hrow]
      simp [atRevision, hrow', hfound, hkeys, changeRow, Row.record]
  · rw [Store.get_compareAndSwap_of_ne heq, ← h other]
    cases hrow : records.find (nameSpace, other) with
    | none => rfl
    | some row =>
      have hfound : row.primaryKey = (nameSpace, other) := Sql.Table.find_key hrow
      simp [atRevision, hfound, Ne.symm heq]

theorem Simulates.delete (h : Simulates nameSpace records store) (key : String)
    (expectedRevision : Nat) :
    Simulates nameSpace (records.delete (atRevision nameSpace key expectedRevision)).1
      (store.deleteIfRevision key expectedRevision).1 := by
  intro other
  rw [Sql.Table.find_delete]
  by_cases heq : key = other
  · subst heq
    have hkey := h key
    rcases Store.deleteIfRevision_cases store key expectedRevision with
      ⟨hnone, hdelete⟩ | ⟨_, hcurrent, hrevision, hdelete⟩ |
      ⟨_, hcurrent, hrevision, hdelete⟩
    · rw [hdelete, hnone, Option.map_eq_none_iff.1 (hkey.trans hnone)]
      rfl
    · obtain ⟨row, hrow, rfl⟩ := Option.map_eq_some_iff.1 (hkey.trans hcurrent)
      have hrow' : row.revision ≠ expectedRevision := hrevision
      rw [hdelete, hcurrent, hrow]
      simp [atRevision, hrow']
    · obtain ⟨row, hrow, rfl⟩ := Option.map_eq_some_iff.1 (hkey.trans hcurrent)
      have hrow' : row.revision = expectedRevision := hrevision
      have hfound : row.primaryKey = (nameSpace, key) := Sql.Table.find_key hrow
      rw [hdelete, Store.get_erase, if_pos rfl, hrow]
      simp [atRevision, hrow', hfound]
  · rw [Store.get_deleteIfRevision_of_ne heq, ← h other]
    cases hrow : records.find (nameSpace, other) with
    | none => rfl
    | some row =>
      have hfound : row.primaryKey = (nameSpace, other) := Sql.Table.find_key hrow
      simp [atRevision, hfound, Ne.symm heq]

/-- A statement does to the table what its call does to the in-memory store. -/
theorem Simulates.exec (h : Simulates nameSpace records store)
    (hname : statement.nameSpace = nameSpace) :
    Simulates nameSpace (D1.exec statement records).1 (inMemory store statement.call).1 := by
  subst hname
  cases statement with
  | insert nameSpace key value nowMs expiresAt => exact h.insert key value nowMs expiresAt
  | update nameSpace key expectedRevision value nowMs expiresAt =>
    exact h.update key expectedRevision value nowMs expiresAt
  | delete nameSpace key expectedRevision => exact h.delete key expectedRevision
  | select nameSpace key => exact h

end Simulation

/-- A timely statement with checked arguments leaves rows that can be read. -/
theorem AllValid.exec {nameSpace : String} {records : Records} (h : AllValid nameSpace records)
    (hvalid : validated statement = .ok ())
    (htimely : timely (.effect statement (D1.exec statement records).2) records = true) :
    AllValid nameSpace (D1.exec statement records).1 := by
  intro other row hrow
  cases statement with
  | insert otherSpace key value nowMs expiresAt =>
    simp only [validated, bind, Except.bind] at hvalid
    split at hvalid
    · cases hvalid
    · rename_i hkey
      obtain ⟨hvalue, hnow, hexpires⟩ := validateDurableWrite_ok hvalid
      have hfind := (Sql.Table.find_insertOrIgnore records
        (newRow otherSpace key value nowMs expiresAt) (nameSpace, other)).symm.trans hrow
      rcases Option.or_eq_some_iff.1 hfind with hold | ⟨-, hnew⟩
      · exact h other row hold
      · obtain rfl := Option.some.inj (Option.ite_none_right_eq_some.1 hnew).2
        exact ⟨⟨rfl, Nat.le_refl 1⟩, hnow, ⟨hnow.1, Int.le_refl _⟩, hexpires, hkey, hvalue⟩
  | update otherSpace key expectedRevision value nowMs expiresAt =>
    simp only [validated, bind, Except.bind] at hvalid
    split at hvalid
    · cases hvalid
    · rename_i hkey
      split at hvalid
      · cases hvalid
      · rename_i hwrite
        obtain ⟨hvalue, hnow, hexpires⟩ := validateDurableWrite_ok hwrite
        have hfind := (Sql.Table.find_update records
          (atRevision otherSpace key expectedRevision) (changeRow value nowMs expiresAt)
          (changeRow_primaryKey value nowMs expiresAt) (nameSpace, other)).symm.trans hrow
        obtain ⟨old, hold, hchanged⟩ := Option.map_eq_some_iff.1 hfind
        by_cases hat : atRevision otherSpace key expectedRevision old = true
        · rw [if_pos hat] at hchanged
          subst hchanged
          have hvalidOld := h other old hold
          rw [atRevision, Bool.and_eq_true, decide_eq_true_eq, decide_eq_true_eq] at hat
          obtain ⟨hprimary, hrevision⟩ := hat
          obtain ⟨rfl, rfl⟩ := Prod.mk.inj ((Sql.Table.find_key hold).symm.trans hprimary)
          have hone : records.rows.countP (atRevision nameSpace other expectedRevision) = 1 := by
            rw [count_atRevision, hold, Option.any_some, if_pos (by simpa using hrevision)]
          change (records.rows.countP (atRevision nameSpace other expectedRevision) != 1 || _) =
            true at htimely
          rw [hone, hold, bne_self_eq_false, Bool.false_or, Bool.and_eq_true, Option.all_some,
            decide_eq_true_eq] at htimely
          refine ⟨⟨?_, Nat.le_add_left 1 _⟩, hvalidOld.created, ⟨hnow.1, htimely.2⟩,
            fun time htime => ⟨(hexpires time htime).1, ?_⟩, hvalidOld.key, hvalue⟩
          · rw [← hrevision] at htimely
            exact htimely.1
          · exact Int.lt_of_le_of_lt htimely.2 (hexpires time htime).2
        · rw [if_neg hat] at hchanged
          exact h other row (hchanged ▸ hold)
  | delete otherSpace key expectedRevision =>
    have hfind := (Sql.Table.find_delete records
      (atRevision otherSpace key expectedRevision) (nameSpace, other)).symm.trans hrow
    exact h other row (Option.filter_eq_some_iff.1 hfind).1
  | select otherSpace key => exact h other row hrow

/-! ## One step -/

/-- What the history keeps of an event: it read back what it could, and the answer to a statement
fits to what the in-memory store held before. -/
def Recorded (nameSpace : String) (i : Nat) (event : RecordsEvent) (older : RecordsHistory) :
    Prop :=
  undisturbed i event older = true ∧ ∀ statement answer, event = .effect statement answer →
    statement.nameSpace = nameSpace ∧
      Answered statement answer ((replay older).get statement.call.key)

/-- The invariant of the runs. -/
structure RecordsInvariant (nameSpace : String) (world : RecordsWorld) : Prop where
  simulates : Simulates nameSpace world.state (replay world.history)
  valid : AllValid nameSpace world.state
  recorded : Throughout (Recorded nameSpace) world.history

section Step

variable {nameSpace : String} {i : Nat} {event : RecordsEvent} {before after : RecordsWorld}

theorem recordsInvariant_step (hstep : (database nameSpace).Step i event before after)
    (hG : Guarantee nameSpace i event before)
    (hundisturbed : undisturbed i event before.history = true)
    (htimely : timely event before.state = true) (h : RecordsInvariant nameSpace before) :
    RecordsInvariant nameSpace after := by
  cases event with
  | invoke call =>
    have hstate := hstep.invoke_state
    refine ⟨?_, hstate ▸ h.valid, h.recorded.step hstep ⟨hundisturbed, nofun⟩⟩
    rw [hstep.history, hstate]
    exact h.simulates
  | response outcome =>
    have hstate := hstep.response_state
    refine ⟨?_, hstate ▸ h.valid, h.recorded.step hstep ⟨hundisturbed, nofun⟩⟩
    rw [hstep.history, hstate]
    exact h.simulates
  | effect statement answer =>
    obtain ⟨_, hexec⟩ := hstep.exec_eq
    obtain ⟨hname, hvalid⟩ := hG statement answer rfl
    have hstate : after.state = (exec statement before.state).1 := congrArg Prod.fst hexec.symm
    obtain rfl : answer = (exec statement before.state).2 := congrArg Prod.snd hexec.symm
    refine ⟨?_, ?_, h.recorded.step hstep ⟨hundisturbed, ?_⟩⟩
    · rw [hstep.history, hstate]
      exact h.simulates.exec hname
    · rw [hstate]
      exact h.valid.exec hvalid htimely
    · rintro other answer heq
      cases heq
      exact ⟨hname, h.simulates.answered h.valid hname⟩

end Step

/-! ## The last write -/

section LastWrite

variable {nameSpace key : String} {i : Nat} {event : RecordsEvent} {older : RecordsHistory}

/-- A write takes effect exactly if the in-memory store would not refuse it. -/
theorem Answered.changed_iff {current : Option (Record String String)}
    (h : Answered statement answer current) : changed (.effect statement answer) = some key ↔
      statement.call.key = key ∧ refuses statement.call current = false := by
  rw [changed, h.changes]
  cases refuses statement.call current <;> simp

/-- An event that does not change the key leaves what is replayed under it. -/
theorem Recorded.replay_get (h : Recorded nameSpace i event older)
    (hchanged : changed event ≠ some key) :
    (replay ((i, event) :: older)).get key = (replay older).get key := by
  cases event with
  | invoke call => rfl
  | response outcome => rfl
  | effect statement answer =>
    obtain ⟨-, hanswered⟩ := h.2 statement answer rfl
    by_cases hkey : statement.call.key = key
    · rw [Ne, hanswered.changed_iff, not_and, Bool.not_eq_false] at hchanged
      rw [replay, inMemory_refused (hchanged hkey)]
    · exact inMemory_of_ne hkey

variable {history : RecordsHistory}

/-- What is replayed under a key is what the call that has changed it last has left there. -/
theorem lastWriter_split (h : Throughout (Recorded nameSpace) history)
    (hlast : lastWriter key history = some i) :
    ∃ newer statement answer older, history = newer ++ (i, .effect statement answer) :: older ∧
      changed (.effect statement answer) = some key ∧
      (replay history).get key = (inMemory (replay older) statement.call).1.get key := by
  induction history with
  | nil => cases hlast
  | cons entry history ih =>
    obtain ⟨j, event⟩ := entry
    by_cases hchanged : changed event = some key
    · obtain rfl : j = i := by simpa [lastWriter, hchanged] using hlast
      cases event with
      | invoke call => cases hchanged
      | response outcome => cases hchanged
      | effect statement answer => exact ⟨[], statement, answer, history, rfl, hchanged, rfl⟩
    · have hrest : lastWriter key history = some i := by
        simpa [lastWriter, hchanged] using hlast
      obtain ⟨newer, statement, answer, older, rfl, hwrite, hreplay⟩ := ih h.2 hrest
      exact ⟨(j, event) :: newer, statement, answer, older, rfl, hwrite,
        (h.1.replay_get hchanged).trans hreplay⟩

/-- A key that was taken when a call executed a statement. -/
theorem wasTaken_split (h : wasTaken i key history = true) :
    ∃ newer statement answer older, history = newer ++ (i, .effect statement answer) :: older ∧
      ((replay older).get key).isSome = true := by
  induction history with
  | nil => cases h
  | cons entry history ih =>
    obtain ⟨j, event⟩ := entry
    have hlater (hrest : wasTaken i key history = true) :
        ∃ newer statement answer older,
          (j, event) :: history = newer ++ (i, .effect statement answer) :: older ∧
            ((replay older).get key).isSome = true := by
      obtain ⟨newer, statement, answer, older, rfl, htaken⟩ := ih hrest
      exact ⟨(j, event) :: newer, statement, answer, older, rfl, htaken⟩
    cases event with
    | invoke call => exact hlater (by simpa [wasTaken] using h)
    | response outcome => exact hlater (by simpa [wasTaken] using h)
    | effect statement answer =>
      rw [wasTaken, Bool.or_eq_true, Bool.and_eq_true, beq_iff_eq] at h
      rcases h with hrest | ⟨rfl, htaken⟩
      · exact hlater hrest
      · exact ⟨[], statement, answer, history, rfl, htaken⟩

end LastWrite

/-! ## The paths of a call -/

section Paths

variable {nameSpace : String} {effects : List (Σ statement, Statement.Res statement)}
  {outcome : Except Fault Reply}

/-- A call whose checks fail raises an error. -/
def Rejected (effects : List (Σ statement, Statement.Res statement))
    (outcome : Except Fault Reply) : Prop :=
  effects = [] ∧ ∃ error, outcome = .error error

/-- The rows that the call reads back can be decoded. -/
def Decoded (nameSpace : String) (effects : List (Σ statement, Statement.Res statement)) : Prop :=
  ∀ key (row : Option Row),
    (⟨.select nameSpace key, row⟩ : Σ statement, Statement.Res statement) ∈ effects →
      decodeRecord row = .ok (row.map Row.record)

/-- A path through a statement and what follows it. -/
theorem request_path {α : Type} {rest : statement.Res → D1Io α} {result : Except Fault α}
    (h : Program.Path ((Program.request statement).bind rest) effects (.ofExcept result)) :
    ∃ answer more, effects = ⟨statement, answer⟩ :: more ∧
      Program.Path (rest answer) more (.ofExcept result) := by
  rw [Program.request_bind] at h
  exact Program.path_perform_ofExcept_iff.1 h

variable {key : String}

/-- A path through a read and what follows it. -/
theorem select_path {rest : Option (Record String String) → D1Io Reply}
    (h : Program.Path ((select nameSpace key).bind rest) effects (.ofExcept outcome))
    (hdecoded : Decoded nameSpace effects) :
    ∃ (row : Option Row) (more : _), effects = ⟨.select nameSpace key, row⟩ :: more ∧
      Program.Path (rest (row.map Row.record)) more (.ofExcept outcome) := by
  rw [select, Program.bind_assoc] at h
  obtain ⟨row, more, rfl, hmore⟩ := request_path h
  rw [hdecoded key row (List.mem_cons_self ..), Program.ofExcept_ok, Program.done_bind] at hmore
  exact ⟨row, more, rfl, hmore⟩

/-- A path to a value that is returned at once. -/
theorem return_path (result : Except Fault Reply)
    (h : Program.Path (.ofExcept result) effects (.ofExcept outcome)) :
    effects = [] ∧ outcome = result :=
  Program.path_ofExcept_iff.1 h

theorem get_path (hdecoded : Decoded nameSpace effects)
    (h : Program.Path (main nameSpace (.get key)) effects (.ofExcept outcome)) :
    Rejected effects outcome ∨ ∃ row : Option Row, effects = [⟨.select nameSpace key, row⟩] ∧
      outcome = .ok (.found (row.map Row.record)) := by
  simp only [main, get, Program.bind_eq, Program.bind_assoc] at h
  rcases h.checked with ⟨error, -, hnil, houtcome⟩ | ⟨_, -, hrest⟩
  · exact .inl ⟨hnil, error, houtcome⟩
  · obtain ⟨row, _, rfl, hmore⟩ := select_path hrest hdecoded
    obtain ⟨rfl, rfl⟩ := return_path (.ok (.found (row.map Row.record))) hmore
    exact .inr ⟨row, rfl, rfl⟩

theorem createIfAbsent_path {key value : String} (hdecoded : Decoded nameSpace effects)
    (h : Program.Path (main nameSpace (.createIfAbsent key value nowMs expiresAt)) effects
      (.ofExcept outcome)) : Rejected effects outcome ∨ ∃ (changes : Nat) (row : Option Row),
      effects = [⟨.insert nameSpace key value nowMs expiresAt, changes⟩,
        ⟨.select nameSpace key, row⟩] ∧
      outcome = match row.map Row.record with
        | none => .error storageUnavailable
        | some record => .ok (.created (if changes = 1 then .created record
          else .existing record)) := by
  simp only [main, createIfAbsent, Program.bind_eq, Program.bind_assoc] at h
  rcases h.checked with ⟨error, -, hnil, houtcome⟩ | ⟨_, -, hrest⟩
  · exact .inl ⟨hnil, error, houtcome⟩
  rcases hrest.checked with ⟨error, -, hnil, houtcome⟩ | ⟨_, -, hwrite⟩
  · exact .inl ⟨hnil, error, houtcome⟩
  obtain ⟨changes, more, rfl, hread⟩ := request_path hwrite
  obtain ⟨row, _, rfl, hmore⟩ := select_path hread
    fun key row hmem => hdecoded key row (List.mem_cons_of_mem _ hmem)
  refine .inr ⟨changes, row, ?_⟩
  cases hrow : row.map Row.record with
  | none =>
    simp only [hrow, Program.raise_bind] at hmore
    obtain ⟨rfl, rfl⟩ := return_path (.error storageUnavailable) hmore
    exact ⟨rfl, rfl⟩
  | some record =>
    simp only [hrow, Program.pure_eq, Program.done_bind] at hmore
    obtain ⟨rfl, rfl⟩ := return_path (.ok (.created _)) hmore
    exact ⟨rfl, rfl⟩

theorem compareAndSwap_path (hdecoded : Decoded nameSpace effects)
    (h : Program.Path (main nameSpace (.compareAndSwap key expectedRevision value nowMs expiresAt))
      effects (.ofExcept outcome)) :
    Rejected effects outcome ∨ ∃ (changes : Nat) (row : Option Row),
      effects = [⟨.update nameSpace key expectedRevision value nowMs expiresAt, changes⟩,
        ⟨.select nameSpace key, row⟩] ∧
      outcome = match row.map Row.record with
        | none => if changes = 1 then .error storageUnavailable else .ok (.swapped .missing)
        | some record => .ok (.swapped (if changes = 1 then .updated record
          else .conflict record)) := by
  simp only [main, compareAndSwap, Program.bind_eq, Program.bind_assoc] at h
  rcases h.checked with ⟨error, -, hnil, houtcome⟩ | ⟨_, -, hrest⟩
  · exact .inl ⟨hnil, error, houtcome⟩
  rcases hrest.checked with ⟨error, -, hnil, houtcome⟩ | ⟨_, -, hrest⟩
  · exact .inl ⟨hnil, error, houtcome⟩
  rcases hrest.checked with ⟨error, -, hnil, houtcome⟩ | ⟨_, -, hwrite⟩
  · exact .inl ⟨hnil, error, houtcome⟩
  obtain ⟨changes, more, rfl, hread⟩ := request_path hwrite
  obtain ⟨row, _, rfl, hmore⟩ := select_path hread
    fun key row hmem => hdecoded key row (List.mem_cons_of_mem _ hmem)
  refine .inr ⟨changes, row, ?_⟩
  cases hrow : row.map Row.record with
  | none =>
    by_cases hchanges : changes = 1
    · simp only [hrow, hchanges, if_true, Program.raise_bind] at hmore ⊢
      obtain ⟨rfl, rfl⟩ := return_path (.error storageUnavailable) hmore
      exact ⟨rfl, rfl⟩
    · simp only [hrow, hchanges, if_false, Program.pure_eq, Program.done_bind] at hmore ⊢
      obtain ⟨rfl, rfl⟩ := return_path (.ok (.swapped .missing)) hmore
      exact ⟨rfl, rfl⟩
  | some record =>
    simp only [hrow, Program.pure_eq, Program.done_bind] at hmore
    obtain ⟨rfl, rfl⟩ := return_path (.ok (.swapped _)) hmore
    exact ⟨rfl, rfl⟩

theorem deleteIfRevision_path (hdecoded : Decoded nameSpace effects)
    (h : Program.Path (main nameSpace (.deleteIfRevision key expectedRevision)) effects
      (.ofExcept outcome)) : Rejected effects outcome ∨
      (effects = [⟨.delete nameSpace key expectedRevision, (1 : Nat)⟩] ∧
        outcome = .ok (.deleted .deleted)) ∨
      ∃ (changes : Nat) (row : Option Row), changes ≠ 1 ∧
        effects = [⟨.delete nameSpace key expectedRevision, changes⟩,
          ⟨.select nameSpace key, row⟩] ∧
        outcome = .ok (.deleted (if (row.map Row.record).isNone then .missing else .conflict)) := by
  simp only [main, deleteIfRevision, Program.bind_eq, Program.bind_assoc] at h
  rcases h.checked with ⟨error, -, hnil, houtcome⟩ | ⟨_, -, hrest⟩
  · exact .inl ⟨hnil, error, houtcome⟩
  rcases hrest.checked with ⟨error, -, hnil, houtcome⟩ | ⟨_, -, hwrite⟩
  · exact .inl ⟨hnil, error, houtcome⟩
  obtain ⟨changes, more, rfl, hread⟩ := request_path hwrite
  by_cases hchanges : changes = 1
  · subst hchanges
    simp only [if_true, Program.pure_eq, Program.done_bind] at hread
    obtain ⟨rfl, rfl⟩ := return_path (.ok (.deleted .deleted)) hread
    exact .inr (.inl ⟨rfl, rfl⟩)
  · simp only [hchanges, if_false, Program.bind_assoc] at hread
    obtain ⟨row, _, rfl, hmore⟩ := select_path hread
      fun key row hmem => hdecoded key row (List.mem_cons_of_mem _ hmem)
    simp only [Program.pure_eq, Program.done_bind] at hmore
    obtain ⟨rfl, rfl⟩ := return_path (.ok (.deleted _)) hmore
    exact .inr (.inr ⟨changes, row, hchanges, rfl, rfl⟩)

end Paths

/-! ## Every answer has its moment -/

section Answers

variable {nameSpace key : String} {i : Nat} {history : RecordsHistory} {store : Store String String}
  {row : Option Row}

theorem inMemory_created {key value : String}
    (h : refuses (.createIfAbsent key value nowMs expiresAt) (store.get key) = false) :
    (inMemory store (.createIfAbsent key value nowMs expiresAt)).1.get key =
        some ⟨key, value, 1, nowMs, nowMs, expiresAt⟩ ∧
      (inMemory store (.createIfAbsent key value nowMs expiresAt)).2 =
        .created (.created ⟨key, value, 1, nowMs, nowMs, expiresAt⟩) := by
  rcases Store.createIfAbsent_cases store key value nowMs expiresAt with
    ⟨_, hrecord, heq⟩ | ⟨_, heq⟩
  · simp [refuses, hrecord] at h
  · simp [inMemory, heq]

theorem inMemory_exists {key value : String}
    (h : refuses (.createIfAbsent key value nowMs expiresAt) (store.get key) = true) :
    ∃ record, store.get key = some record ∧
      (inMemory store (.createIfAbsent key value nowMs expiresAt)).2 =
        .created (.existing record) := by
  rcases Store.createIfAbsent_cases store key value nowMs expiresAt with
    ⟨record, hrecord, heq⟩ | ⟨hnone, heq⟩
  · exact ⟨record, hrecord, by simp [inMemory, heq]⟩
  · simp [refuses, hnone] at h

theorem inMemory_updated {key : String}
    (h : refuses (.compareAndSwap key expectedRevision value nowMs expiresAt) (store.get key) =
      false) :
    ∃ record, (inMemory store (.compareAndSwap key expectedRevision value nowMs expiresAt)).1.get
        key = some record ∧
      (inMemory store (.compareAndSwap key expectedRevision value nowMs expiresAt)).2 =
        .swapped (.updated record) := by
  rcases Store.compareAndSwap_cases store key expectedRevision value nowMs expiresAt with
    ⟨hnone, heq⟩ | ⟨_, hcurrent, hrevision, heq⟩ | ⟨_, hcurrent, hrevision, heq⟩
  · simp [refuses, hnone] at h
  · simp [refuses, hcurrent, hrevision] at h
  · simp [inMemory, hcurrent, heq]

theorem inMemory_conflict {key : String}
    (h : refuses (.compareAndSwap key expectedRevision value nowMs expiresAt) (store.get key) =
      true) : (inMemory store (.compareAndSwap key expectedRevision value nowMs expiresAt)).2 =
      .swapped (match store.get key with
        | none => .missing
        | some current => .conflict current) := by
  rcases Store.compareAndSwap_cases store key expectedRevision value nowMs expiresAt with
    ⟨hnone, heq⟩ | ⟨_, hcurrent, hrevision, heq⟩ | ⟨_, hcurrent, hrevision, heq⟩
  · simp [inMemory, hnone, heq]
  · simp [inMemory, hcurrent, heq]
  · simp [refuses, hcurrent, hrevision] at h

/-- What a swap of the in-memory store reports as written is what its caller has written. -/
theorem inMemory_written {key : String} {record : Record String String}
    (h : (inMemory store (.compareAndSwap key expectedRevision value nowMs expiresAt)).2 =
      .swapped (.updated record)) :
    record.key = key ∧ record.value = value ∧ record.revision = expectedRevision + 1 ∧
      record.updatedAt = nowMs ∧ record.expiresAt = expiresAt := by
  rcases Store.compareAndSwap_cases store key expectedRevision value nowMs expiresAt with
    ⟨_, heq⟩ | ⟨_, _, _, heq⟩ | ⟨_, _, hrevision, heq⟩
  · simp [inMemory, heq] at h
  · simp [inMemory, heq] at h
  · simp only [inMemory, heq, Reply.swapped.injEq, CasResult.updated.injEq] at h
    simp [← h, hrevision]

theorem inMemory_deleted {key : String}
    (h : refuses (.deleteIfRevision key expectedRevision) (store.get key) = false) :
    (inMemory store (.deleteIfRevision key expectedRevision)).2 = .deleted .deleted := by
  rcases Store.deleteIfRevision_cases store key expectedRevision with
    ⟨hnone, heq⟩ | ⟨_, hcurrent, hrevision, heq⟩ | ⟨_, hcurrent, hrevision, heq⟩
  · simp [refuses, hnone] at h
  · simp [refuses, hcurrent, hrevision] at h
  · simp [inMemory, heq]

theorem inMemory_kept {key : String}
    (h : refuses (.deleteIfRevision key expectedRevision) (store.get key) = true) :
    (inMemory store (.deleteIfRevision key expectedRevision)).2 =
      .deleted (if (store.get key).isNone then .missing else .conflict) := by
  rcases Store.deleteIfRevision_cases store key expectedRevision with
    ⟨hnone, heq⟩ | ⟨_, hcurrent, hrevision, heq⟩ | ⟨_, hcurrent, hrevision, heq⟩
  · simp [inMemory, hnone, heq]
  · simp [inMemory, hcurrent, heq]
  · simp [refuses, hcurrent, hrevision] at h

variable {newer older : RecordsHistory} {outcome : Except Fault Reply}

/-- An answer at a statement that has changed a row if any of the call has. -/
theorem Linearized.of_split (hsplit : history = newer ++ (i, .effect statement answer) :: older)
    (houtcome : outcome = .ok (inMemory (replay older) call).2)
    (honly : ∀ effect ∈ effectsOf i history, effect.1.changes effect.2 = 1 →
      statement.changes answer = 1) : Linearized i call outcome history := by
  refine ⟨newer, statement, answer, older, hsplit, houtcome, ?_⟩
  rintro ⟨event, hmem, hchanged⟩
  cases event with
  | invoke call => cases hchanged
  | response outcome => cases hchanged
  | effect other answer' =>
    have hone : other.changes answer' = 1 := by
      by_contra hne
      simp [changed, hne] at hchanged
    rw [changed, if_pos (honly ⟨other, answer'⟩ (mem_effectsOf.2 hmem) hone)]
    rfl

/-- A call that has executed one statement has executed no other. -/
theorem only_effect {statement other : Statement} {answer : statement.Res} {answer' : other.Res}
    (h : effectsOf i (newer ++ (i, .effect other answer') :: older) = [⟨statement, answer⟩]) :
    (⟨other, answer'⟩ : Σ statement, Statement.Res statement) = ⟨statement, answer⟩ := by
  have hmem := mem_effectsOf.2 (List.mem_append_right newer
    (List.mem_cons_self (a := (i, Event.effect other answer')) (l := older)))
  rw [h] at hmem
  exact List.mem_singleton.1 hmem

/-- A call that reads after a write that has taken effect reads what it has written. -/
theorem read_own (h : Throughout (Recorded nameSpace) history)
    (hchanges : statement.changes answer = 1)
    (heffects : effectsOf i history = [⟨statement, answer⟩] ++ [⟨.select nameSpace key, row⟩]) :
    ∃ newer older, history = newer ++ (i, .effect statement answer) :: older ∧
      row.map Row.record = (inMemory (replay older) statement.call).1.get key ∧
      refuses statement.call ((replay older).get statement.call.key) = false := by
  obtain ⟨newer, between, rfl, hbetween⟩ := split_of_effectsOf heffects
  obtain ⟨hundisturbed, hanswered⟩ := h.entry
  obtain ⟨-, -, hread, -⟩ := hanswered _ _ rfl
  have hlast : lastWriter key between = some i := by
    simpa only [undisturbed, hbetween, if_pos hchanges, beq_iff_eq] using hundisturbed
  have hpast : Throughout (Recorded nameSpace) between := h.past.2
  obtain ⟨later, _, _, older, rfl, hchanged, hreplay⟩ := lastWriter_split hpast hlast
  cases only_effect hbetween
  obtain ⟨-, hwrite⟩ := hpast.entry.2 _ _ rfl
  refine ⟨newer ++ (i, .effect (.select nameSpace key) row) :: later, older, by simp, ?_,
    (hwrite.changed_iff.1 hchanged).2⟩
  exact hread.trans hreplay

/-- A call that reads after a write without effect reads a record that it would not change. -/
theorem read_refused (h : Throughout (Recorded nameSpace) history)
    (hchanges : statement.changes answer ≠ 1)
    (heffects : effectsOf i history = [⟨statement, answer⟩] ++ [⟨.select nameSpace key, row⟩]) :
    ∃ newer older, history = newer ++ (i, .effect (.select nameSpace key) row) :: older ∧
      row.map Row.record = (replay older).get key ∧
      (refuses statement.call ((replay older).get key) = true ∨
        statement.deletes = true ∧ ∃ later past, older = later ++ (i, .effect statement answer) ::
          past ∧ ((replay past).get key).isSome = true ∧
            refuses statement.call ((replay past).get statement.call.key) = true) := by
  obtain ⟨newer, older, rfl, holder⟩ := split_of_effectsOf heffects
  obtain ⟨hundisturbed, hanswered⟩ := h.entry
  obtain ⟨-, -, hread, -⟩ := hanswered _ _ rfl
  refine ⟨newer, older, rfl, hread, ?_⟩
  simp only [undisturbed, holder, if_neg hchanges, Bool.or_eq_true, Bool.and_eq_true] at hundisturbed
  rcases hundisturbed with hrefuses | ⟨hdeletes, htaken⟩
  · exact .inl (hread ▸ hrefuses)
  · have hpast : Throughout (Recorded nameSpace) older := h.past.2
    obtain ⟨later, _, _, past, rfl, hsome⟩ := wasTaken_split htaken
    cases only_effect holder
    obtain ⟨-, hwrite⟩ := hpast.entry.2 _ _ rfl
    refine .inr ⟨hdeletes, later, past, rfl, hsome, ?_⟩
    by_contra hrefuses
    exact hchanges (hwrite.changes.trans (if_neg hrefuses))

/-- A write without effect and a read have no effect. -/
theorem no_effect {name : String} {Q : Prop} (h : statement.changes answer ≠ 1) :
    ∀ effect ∈ [(⟨statement, answer⟩ : Σ statement, Statement.Res statement),
      ⟨.select name key, row⟩], effect.1.changes effect.2 = 1 → Q := by
  intro effect hmem hone
  simp only [List.mem_cons, List.not_mem_nil, or_false] at hmem
  rcases hmem with rfl | rfl
  · exact absurd hone h
  · cases hone

/-- The answers of a call that has executed statements. -/
theorem answers_linearized (h : Throughout (Recorded nameSpace) history)
    (hpath : Program.Path (main nameSpace call) (effectsOf i history) (.ofExcept outcome))
    (heffects : effectsOf i history ≠ []) : Linearized i call outcome history := by
  have hdecoded : Decoded nameSpace (effectsOf i history) := by
    intro key row hmem
    obtain ⟨newer, older, rfl⟩ := List.append_of_mem (mem_effectsOf.1 hmem)
    obtain ⟨-, -, hrow, hdecode⟩ := h.entry.2 _ _ rfl
    rw [hdecode, hrow]
  cases call with
  | get key =>
    rcases get_path hdecoded hpath with ⟨hnil, -⟩ | ⟨row, hshape, rfl⟩
    · exact absurd hnil heffects
    · obtain ⟨newer, older, rfl⟩ := List.append_of_mem
        (mem_effectsOf.1 (hshape ▸ List.mem_singleton_self _))
      obtain ⟨-, -, hread, -⟩ := h.entry.2 _ _ rfl
      refine .of_split rfl ?_ ?_
      · rw [hread]
        rfl
      · rw [hshape]
        simp [Statement.changes]
  | createIfAbsent key value nowMs expiresAt =>
    rcases createIfAbsent_path hdecoded hpath with ⟨hnil, -⟩ | ⟨changes, row, hshape, rfl⟩
    · exact absurd hnil heffects
    · by_cases hchanges : Statement.changes (.insert nameSpace key value nowMs expiresAt)
        changes = 1
      · obtain ⟨newer, older, hsplit, hread, hrefuses⟩ := read_own h hchanges hshape
        obtain ⟨hget, hanswer⟩ := inMemory_created hrefuses
        refine .of_split hsplit ?_ fun _ _ _ => hchanges
        have hone : changes = 1 := hchanges
        rw [hread.trans hget, hanswer]
        simp only [if_pos hone]
      · obtain ⟨newer, older, hsplit, hread, hrefuses⟩ := read_refused h hchanges hshape
        rcases hrefuses with hrefuses | ⟨hdeletes, -⟩
        · obtain ⟨record, hget, hanswer⟩ := inMemory_exists hrefuses
          have hone : changes ≠ 1 := hchanges
          refine .of_split hsplit ?_ ?_
          · rw [hread.trans hget, hanswer]
            simp only [if_neg hone]
          · rw [hshape]
            exact no_effect hchanges
        · cases hdeletes
  | compareAndSwap key expectedRevision value nowMs expiresAt =>
    rcases compareAndSwap_path hdecoded hpath with ⟨hnil, -⟩ | ⟨changes, row, hshape, rfl⟩
    · exact absurd hnil heffects
    · by_cases hchanges : Statement.changes
        (.update nameSpace key expectedRevision value nowMs expiresAt) changes = 1
      · obtain ⟨newer, older, hsplit, hread, hrefuses⟩ := read_own h hchanges hshape
        obtain ⟨record, hget, hanswer⟩ := inMemory_updated hrefuses
        refine .of_split hsplit ?_ fun _ _ _ => hchanges
        have hone : changes = 1 := hchanges
        rw [hread.trans hget, hanswer]
        simp only [if_pos hone]
      · obtain ⟨newer, older, hsplit, hread, hrefuses⟩ := read_refused h hchanges hshape
        rcases hrefuses with hrefuses | ⟨hdeletes, -⟩
        · have hanswer := inMemory_conflict hrefuses
          have hone : changes ≠ 1 := hchanges
          refine .of_split hsplit ?_ ?_
          · rw [hread, hanswer]
            cases (replay older).get key <;> simp only [if_neg hone]
          · rw [hshape]
            exact no_effect hchanges
        · cases hdeletes
  | deleteIfRevision key expectedRevision =>
    rcases deleteIfRevision_path hdecoded hpath with ⟨hnil, -⟩ | ⟨hshape, rfl⟩ |
      ⟨changes, row, hchanges, hshape, rfl⟩
    · exact absurd hnil heffects
    · obtain ⟨newer, older, rfl⟩ := List.append_of_mem
        (mem_effectsOf.1 (hshape ▸ List.mem_singleton_self _))
      obtain ⟨-, hwrite⟩ := h.entry.2 _ _ rfl
      have hchanged : changed (.effect (.delete nameSpace key expectedRevision) (1 : Nat)) =
          some key := rfl
      have hrefuses : refuses (.deleteIfRevision key expectedRevision)
          ((replay older).get key) = false := (hwrite.changed_iff.1 hchanged).2
      exact .of_split rfl (by rw [inMemory_deleted hrefuses]) fun _ _ _ => rfl
    · have hone : Statement.changes (.delete nameSpace key expectedRevision) changes ≠ 1 :=
        hchanges
      have hnone : ∀ effect ∈ effectsOf i history, effect.1.changes effect.2 = 1 → False :=
        hshape ▸ no_effect hone
      obtain ⟨newer, _, hsplit, hread, hrefuses⟩ := read_refused h hone hshape
      rcases hrefuses with hrefuses | ⟨-, later, past, rfl, hsome, hrefuses⟩
      · refine .of_split hsplit ?_ fun effect hmem heffect => (hnone effect hmem heffect).elim
        rw [inMemory_kept hrefuses, hread]
      · cases hrow : row.map Row.record with
        | none =>
          rw [hrow] at hread
          refine .of_split hsplit ?_ fun effect hmem heffect => (hnone effect hmem heffect).elim
          rw [inMemory_kept (by rw [← hread]; rfl), ← hread]
        | some record =>
          have hpast : history = (newer ++ (i, .effect (.select nameSpace key) row) :: later) ++
              (i, .effect (.delete nameSpace key expectedRevision) changes) :: past := by
            rw [hsplit, List.append_assoc, List.cons_append]
          obtain ⟨_, hfound⟩ := Option.isSome_iff_exists.1 hsome
          refine .of_split hpast ?_ fun effect hmem heffect => (hnone effect hmem heffect).elim
          rw [inMemory_kept hrefuses, hfound]
          rfl

end Answers

/-! ## Runs -/

/-- No calls yet, and no rows. -/
def initial : Config Call Statement Statement.Res Fault Reply Records :=
  Config.initial Sql.Table.empty

theorem recordsInvariant_initial (nameSpace : String) :
    RecordsInvariant nameSpace initial.toWorld :=
  ⟨fun _ => rfl, by rintro key row ⟨⟩, trivial⟩

/-- A call that has executed no statement raises an error. -/
theorem main_rejected {nameSpace : String} {outcome : Except Fault Reply}
    (h : Program.Path (main nameSpace call) [] (.ofExcept outcome)) :
    ∃ error, outcome = .error error := by
  have hdecoded : Decoded nameSpace [] := nofun
  cases call with
  | get =>
    rcases get_path hdecoded h with hrejected | ⟨_, hshape, -⟩
    · exact hrejected.2
    · cases hshape
  | createIfAbsent =>
    rcases createIfAbsent_path hdecoded h with hrejected | ⟨_, _, hshape, -⟩
    · exact hrejected.2
    · cases hshape
  | compareAndSwap =>
    rcases compareAndSwap_path hdecoded h with hrejected | ⟨_, _, hshape, -⟩
    · exact hrejected.2
    · cases hshape
  | deleteIfRevision =>
    rcases deleteIfRevision_path hdecoded h with hrejected | ⟨hshape, -⟩ | ⟨_, _, _, hshape, -⟩
    · exact hrejected.2
    · cases hshape
    · cases hshape

theorem RecordsInvariant.refines {nameSpace : String}
    {config : Config Call Statement Statement.Res Fault Reply Records}
    (h : RecordsInvariant nameSpace config.toWorld)
    (hconsistent : (database nameSpace).Consistent config) :
    Refines nameSpace config.toWorld := by
  have hanswers : ∀ i call outcome, (i, .invoke call) ∈ config.history →
      (i, .response outcome) ∈ config.history → effectsOf i config.history ≠ [] →
      Linearized i call outcome config.history :=
    fun i call outcome hcall hresponse hne =>
      answers_linearized h.recorded (hconsistent.responded hcall hresponse) hne
  have hvalues : ∀ i call reply, (i, .invoke call) ∈ config.history →
      (i, .response (.ok reply)) ∈ config.history →
      ∃ store, reply = (inMemory store call).2 := by
    intro i call reply hcall hresponse
    have hne : effectsOf i config.history ≠ [] := by
      intro hnil
      have hpath := hconsistent.responded hcall hresponse
      rw [hnil] at hpath
      obtain ⟨error, herror⟩ := main_rejected hpath
      cases herror
    obtain ⟨_, _, _, older, -, hanswer, -⟩ := hanswers i call _ hcall hresponse hne
    exact ⟨replay older, Except.ok.inj hanswer⟩
  refine ⟨h.simulates, hanswers, ?_, ?_, ?_⟩
  · intro i key expectedRevision value nowMs expiresAt record hcall hresponse
    obtain ⟨store, hanswer⟩ := hvalues i _ _ hcall hresponse
    exact inMemory_written hanswer.symm
  · intro i key value nowMs expiresAt record hcall hresponse
    obtain ⟨store, hanswer⟩ := hvalues i _ _ hcall hresponse
    rcases Store.createIfAbsent_cases store key value nowMs expiresAt with
      ⟨_, _, heq⟩ | ⟨_, heq⟩
    · simp [inMemory, heq] at hanswer
    · simpa [inMemory, heq] using hanswer
  · intro i event error hevent hchanged hresponse
    cases event with
    | invoke call => cases hchanged
    | response outcome => cases hchanged
    | effect statement answer =>
      have hmem := mem_effectsOf.2 hevent
      have htracks := hconsistent.tracks i _
        (List.getElem?_eq_getElem (hconsistent.numbered i _ hresponse))
      obtain ⟨_, _, _, _, -, hanswer, -⟩ :=
        hanswers i _ _ htracks.invoked hresponse (List.ne_nil_of_mem hmem)
      cases hanswer

/-- In a run in which nobody else's write comes between a write and the statement that reads it
back, and in which updates are timely, the D1 store refines the in-memory store. -/
theorem d1_refines (nameSpace : String) (actions : List (Action Call Unit))
    (hundisturbed : (database nameSpace).Meets
      (fun i event world => undisturbed i event world.history = true) initial actions)
    (htimely : (database nameSpace).Meets
      (fun _ event world => timely event world.state = true) initial actions) :
    Refines nameSpace ((database nameSpace).run initial actions).toWorld := by
  have hready : Ready (database nameSpace) (Guarantee nameSpace) (fun _ => True) initial :=
    ready_initial trivial
  have hinvariant := hready.preserves (verified nameSpace) (hundisturbed.and htimely)
    (P := RecordsInvariant nameSpace)
    (fun _ _ _ _ _ _ hstep hG hmeets h => recordsInvariant_step hstep hG hmeets.1 hmeets.2 h)
    (recordsInvariant_initial nameSpace)
  exact hinvariant.refines ((consistent_initial _).run actions)

/-! ## Samples -/

/-- Call `i` takes `count` steps. -/
def sampleSteps (i count : Nat) : List (Action Call Unit) :=
  .replicate count (.advance i ())

/-- A record is created and updated, and another update of the same revision comes too late. -/
def sampleRefines : List (Action Call Unit) :=
  .invoke (.createIfAbsent "k" "a" 1000 none) :: sampleSteps 0 3 ++
    .invoke (.compareAndSwap "k" 1 "b" 1001 none) ::
    .invoke (.compareAndSwap "k" 1 "c" 1002 none) :: sampleSteps 1 1 ++ sampleSteps 2 3 ++
    sampleSteps 1 2

/-- The second update comes between the first one and the statement that reads it back. -/
def sampleForeign : List (Action Call Unit) :=
  .invoke (.createIfAbsent "k" "a" 1000 none) :: sampleSteps 0 3 ++
    .invoke (.compareAndSwap "k" 1 "b" 1001 none) :: sampleSteps 1 1 ++
    .invoke (.compareAndSwap "k" 2 "c" 1002 none) :: sampleSteps 2 3 ++ sampleSteps 1 2

/-- The first update reports its own record, the second one a conflict with it. -/
theorem d1_refines_sample :
    Refines "n" ((database "n").run initial sampleRefines).toWorld ∧
      returned 1 (.swapped (.updated ⟨"k", "b", 2, 1000, 1001, none⟩))
        ((database "n").run initial sampleRefines).history = true ∧
      returned 2 (.swapped (.conflict ⟨"k", "b", 2, 1000, 1001, none⟩))
        ((database "n").run initial sampleRefines).history = true := by
  have hrun : ((database "n").checks (fun i event world => undisturbed i event world.history)
        initial sampleRefines &&
      (database "n").checks (fun _ event world => timely event world.state) initial
        sampleRefines &&
      returned 1 (.swapped (.updated ⟨"k", "b", 2, 1000, 1001, none⟩))
        ((database "n").run initial sampleRefines).history &&
      returned 2 (.swapped (.conflict ⟨"k", "b", 2, 1000, 1001, none⟩))
        ((database "n").run initial sampleRefines).history) = true := by
    decide +kernel
  rw [Bool.and_eq_true, Bool.and_eq_true, Bool.and_eq_true] at hrun
  obtain ⟨⟨⟨hundisturbed, htimely⟩, hfirst⟩, hsecond⟩ := hrun
  exact ⟨d1_refines "n" sampleRefines (meets_of_checks hundisturbed) (meets_of_checks htimely),
    hfirst, hsecond⟩

/-- The first update reports the record of the second one as its own. -/
theorem foreign_record : ¬ ∀ (nameSpace : String) (actions : List (Action Call Unit)),
    Refines nameSpace ((database nameSpace).run initial actions).toWorld := by
  intro h
  have hrun : (called 1 (.compareAndSwap "k" 1 "b" 1001 none)
        ((database "n").run initial sampleForeign).history &&
      returned 1 (.swapped (.updated ⟨"k", "c", 3, 1000, 1002, none⟩))
        ((database "n").run initial sampleForeign).history) = true := by
    decide +kernel
  rw [Bool.and_eq_true] at hrun
  have hwritten := (h "n" sampleForeign).updated 1 _ _ _ _ _ _ (mem_of_called hrun.1)
    (mem_of_returned hrun.2)
  exact absurd hwritten.2.1 (by decide)

end Groundlane.D1
