import Mathlib.Data.Rat.Floor
import Groundlane.Credentials.Store
import Groundlane.Json.Reading
import Groundlane.Paging.Offsets

/-!
# Listing the credentials

`listManagedMetadata` of `worker/managed-tokens.ts`: a page of a scan of the store, with an offset
into the scan as its cursor. The store in memory sorts by a comparison that calls no two
credentials equal, so that the engine decides on their order (`Sorting`); the database orders by
the time of creation alone, which leaves the order of equal times to each query (`Arrangement`),
and scans no more than `scanLimit` rows.

Following the cursors lists every credential in memory and the earliest `scanLimit` credentials of
the database, each once if no page and no scan ends between credentials of one time
(`listing_enumerates`).
-/

namespace Groundlane.Credentials

/-! ## Metadata -/

/-- A credential without its verifier. -/
structure ManagedCredentialMetadata where
  id : String
  principalId : PrincipalId
  scopes : List String
  label : String
  status : ManagedStoredStatus
  effectiveStatus : ManagedEffectiveStatus
  usable : Bool
  createdAt : Int
  updatedAt : Int
  expiresAt : Int
  validUntil : Option Int
  rotatedTo : Option String
  rotatedFrom : Option String
  revokedAt : Option Int
deriving DecidableEq, Repr

def toMetadata (record : ManagedCredentialRecord) (now : Int) : ManagedCredentialMetadata :=
  let (effectiveStatus, usable) := getEffectiveStatus record now
  { id := record.id
    principalId := record.principalId
    scopes := record.scopes
    label := record.label
    status := record.status
    effectiveStatus := effectiveStatus
    usable := usable
    createdAt := record.createdAt
    updatedAt := record.updatedAt
    expiresAt := record.expiresAt
    validUntil := record.validUntil
    rotatedTo := record.rotatedTo
    rotatedFrom := record.rotatedFrom
    revokedAt := record.revokedAt }

/-! ## Scans -/

/-- The order that an engine brings a list into for a comparison that is not consistent: always
the same for the same list. -/
structure Sorting where
  order : List ManagedCredentialRecord → List ManagedCredentialRecord
  perm : ∀ records, (order records).Perm records

/-- `FakeManagedTokenStore.scan`. -/
def Memory.scan (sorting : Sorting) (rows : Rows) : List ManagedCredentialRecord :=
  sorting.order rows.rows

/-- The order in which the database comes upon the rows. -/
abbrev Arrangement (rows : Rows) : Type :=
  { arranged : List ManagedCredentialRecord // arranged.Perm rows.rows }

def scanLimit : Nat := 500

/-- `ORDER BY created_at ASC`: rows of one time stay as the database comes upon them. -/
def byCreation (records : List ManagedCredentialRecord) : List ManagedCredentialRecord :=
  records.insertionSort fun a b => a.createdAt ≤ b.createdAt

/-- `D1ManagedTokenStore.scan`. -/
def D1.scan {rows : Rows} (arrangement : Arrangement rows) : List ManagedCredentialRecord :=
  (byCreation arrangement.1).take scanLimit

/-! ## Pages -/

def defaultListLimit : Nat := 50

def maxListLimit : Nat := 100

/-- The largest whole number that is not greater. -/
def floorOf : Number → Option Int
  | .finite value => some ⌊value.toRat⌋
  | _ => none

/-- The limit of a page. -/
def listLimit (limit : Option Number) : Except ManagedTokenError Nat :=
  match limit.elim (some (defaultListLimit : Int)) floorOf with
  | some size =>
    if size ≤ 0 ∨ maxListLimit < size then invalid "limit must be 1..100" else .ok size.toNat
  | none => invalid "limit must be 1..100"

/-- The offset that a cursor stands for. -/
def listOffset (cursor : Option String) : Except ManagedTokenError Nat :=
  match cursor with
  | none => .ok 0
  | some text =>
    match Number.integerOf text with
    | some offset => if offset < 0 then invalid "invalid cursor" else .ok offset.toNat
    | none => invalid "invalid cursor"

/-- A page of metadata, and the cursor of the next one. -/
abbrev Listed : Type := List ManagedCredentialMetadata × Option String

/-- `listManagedMetadata`, with the answer of the store to its scan and the time. -/
def listManagedMetadata (scan : Except ManagedTokenError (List ManagedCredentialRecord))
    (now : Int) (limit : Option Number) (cursor : Option String) :
    Except ManagedTokenError Listed := do
  let size ← listLimit limit
  let offset ← listOffset cursor
  let rows ← scan
  let slice := (rows.drop offset).take size
  let nextCursor := if offset + size < rows.length then some (toString (offset + size)) else none
  return (slice.map fun record => toMetadata record now, nextCursor)

/-- A limit that is left out, or a number whose whole part lies within the bounds. -/
def IsListLimit (limit : Option Number) : Prop :=
  ∀ number, limit = some number → ∃ size : Nat, floorOf number = some (size : Int) ∧
    1 ≤ size ∧ size ≤ maxListLimit

theorem listLimit_ok {limit : Option Number} (h : IsListLimit limit) :
    ∃ size, listLimit limit = .ok size ∧ 0 < size ∧ size ≤ maxListLimit := by
  cases limit with
  | none => exact ⟨50, rfl, by decide, by decide⟩
  | some number =>
    obtain ⟨size, hfloor, hpos, hle⟩ := h number rfl
    refine ⟨size, ?_, hpos, hle⟩
    unfold listLimit
    rw [Option.elim_some, hfloor]
    dsimp only
    rw [if_neg (by omega), Int.toNat_natCast]

theorem listOffset_toString (offset : Nat) :
    listOffset (some (toString offset)) = .ok offset := by
  unfold listOffset
  dsimp only
  rw [Number.integerOf_toString]
  dsimp only
  rw [if_neg (by omega), Int.toNat_natCast]

/-- The page at an offset. -/
theorem listManagedMetadata_of_offset (rows : List ManagedCredentialRecord)
    {limit : Option Number} {cursor : Option String} {size offset : Nat} (now : Int) (hlimit : listLimit limit = .ok size)
    (hcursor : listOffset cursor = .ok offset) :
    listManagedMetadata (.ok rows) now limit cursor =
      .ok (((rows.drop offset).take size).map (fun record => toMetadata record now),
        if offset + size < rows.length then some (toString (offset + size)) else none) := by
  unfold listManagedMetadata
  rw [hlimit, hcursor]
  rfl

/-! ## Following the cursors -/

/-- A listing of a store: what is asked for each page, when, and what the store answers with. -/
structure Requests where
  scan : Nat → List ManagedCredentialRecord
  limit : Nat → Option Number
  now : Nat → Int

/-- The pages of a listing, from the start until there is no cursor. -/
def Requests.Lists (requests : Requests) (pages : List (List ManagedCredentialMetadata)) : Prop :=
  Paging.Reads (fun page cursor => listManagedMetadata (.ok (requests.scan page))
    (requests.now page) (requests.limit page) cursor) 0 none pages

/-- The pages show these credentials, each at the time of some page. -/
def Requests.Shows (requests : Requests) (pages : List (List ManagedCredentialMetadata))
    (listed : List ManagedCredentialRecord) : Prop :=
  List.Forall₂ (fun record item => ∃ page, item = toMetadata record (requests.now page)) listed
    pages.flatten

/-- Following the cursors ends, and shows each of the credentials once. -/
def Requests.Enumerates (requests : Requests) (records : List ManagedCredentialRecord) : Prop :=
  ∃ pages listed, requests.Lists pages ∧ requests.Shows pages listed ∧ listed.Perm records

/-- The size of a page. -/
def Requests.size (requests : Requests) (page : Nat) : Nat :=
  (listLimit (requests.limit page)).toOption.getD 0

variable {requests : Requests} {rows : Rows}

theorem Requests.size_ok {page : Nat} (h : IsListLimit (requests.limit page)) :
    listLimit (requests.limit page) = .ok (requests.size page) ∧ 0 < requests.size page := by
  obtain ⟨size, hlimit, hpos, -⟩ := listLimit_ok h
  unfold Requests.size
  rw [hlimit]
  exact ⟨rfl, hpos⟩

/-- Scans of one length are read to the end, a part of each. -/
theorem Requests.exists_lists {total : Nat} (hlimits : ∀ page, IsListLimit (requests.limit page))
    (htotal : ∀ page, (requests.scan page).length = total) :
    ∃ pages listed, requests.Lists pages ∧ requests.Shows pages listed ∧
      Paging.Sliced requests.scan requests.size total 0 0 listed := by
  have hask : ∀ page offset, listManagedMetadata (.ok (requests.scan page)) (requests.now page)
      (requests.limit page) (some (toString offset)) =
        .ok ((((requests.scan page).drop offset).take (requests.size page)).map
          (fun record => toMetadata record (requests.now page)),
          if offset + requests.size page < total then
            some (toString (offset + requests.size page)) else none) := by
    intro page offset
    rw [← htotal page]
    exact listManagedMetadata_of_offset _ _ (size_ok (hlimits page)).1 (listOffset_toString offset)
  obtain ⟨pages, listed, hreads, hsliced, hitems⟩ := Paging.exists_reads
    (fun page => (size_ok (hlimits page)).2) hask total 0 0 (Nat.sub_le _ _)
  refine ⟨pages, listed, ?_, hitems, hsliced⟩
  -- The first page is asked for without a cursor, which is the offset zero as well.
  have hstart : ∀ page, listManagedMetadata (.ok (requests.scan page)) (requests.now page)
      (requests.limit page) none = listManagedMetadata (.ok (requests.scan page))
        (requests.now page) (requests.limit page) (some (toString 0)) := by
    intro page
    unfold listManagedMetadata
    rw [listOffset_toString 0]
    rfl
  cases hreads with
  | last h => exact .last ((hstart 0).trans h)
  | more h hrest => exact .more ((hstart 0).trans h) hrest

/-- A store that answers every scan alike. -/
theorem Requests.enumerates_of_constant {records : List ManagedCredentialRecord}
    (hlimits : ∀ page, IsListLimit (requests.limit page))
    (hscan : ∀ page, requests.scan page = records) : requests.Enumerates records := by
  obtain ⟨pages, listed, hlists, hshows, hsliced⟩ :=
    exists_lists hlimits fun page => congrArg List.length (hscan page)
  refine ⟨pages, listed, hlists, hshows, ?_⟩
  refine hsliced.perm rfl rfl (fun page => ?_) fun page _ other => ?_
  · rw [hscan]
  · rw [hscan]

/-! ## The database -/

/-- The earliest credentials, no more than a scan reads. -/
def earliest (rows : Rows) : List ManagedCredentialRecord :=
  (byCreation rows.rows).take scanLimit

theorem byCreation_perm (records : List ManagedCredentialRecord) :
    (byCreation records).Perm records :=
  List.perm_insertionSort _ _

theorem byCreation_sorted (records : List ManagedCredentialRecord) :
    (byCreation records).Pairwise fun a b => a.createdAt ≤ b.createdAt :=
  List.pairwise_insertionSort (fun a b : ManagedCredentialRecord => a.createdAt ≤ b.createdAt) _

/-- The times of a scan do not depend on the order that the database comes upon the rows in. -/
theorem scan_times (arrangement : Arrangement rows) :
    (D1.scan arrangement).map (·.createdAt) = (earliest rows).map (·.createdAt) := by
  have hperm : (byCreation arrangement.1).Perm (byCreation rows.rows) :=
    ((byCreation_perm _).trans arrangement.2).trans (byCreation_perm _).symm
  unfold D1.scan earliest
  rw [List.map_take, List.map_take, Paging.map_eq_of_sorted (·.createdAt) hperm
    (byCreation_sorted _) (byCreation_sorted _)]

theorem scan_length (arrangement : Arrangement rows) :
    (D1.scan arrangement).length = (earliest rows).length := by
  have h := congrArg List.length (scan_times arrangement)
  rwa [List.length_map, List.length_map] at h

/-- Where a place divides the credentials by their times, what a scan has before it does not depend
on the order either. -/
theorem scan_take_perm (arrangement : Arrangement rows) {place : Nat}
    (h : Paging.Divides (·.createdAt) rows.rows (min place scanLimit)) :
    ((D1.scan arrangement).take place).Perm ((earliest rows).take place) := by
  unfold D1.scan earliest
  rw [List.take_take, List.take_take]
  exact Paging.take_perm h ((byCreation_perm _).trans arrangement.2) (byCreation_sorted _)
    (byCreation_perm _) (byCreation_sorted _)

/-- No page, and no scan, ends between two credentials of one time. -/
def Requests.Separates (requests : Requests) (rows : Rows) : Prop :=
  Paging.Divides (·.createdAt) rows.rows scanLimit ∧
    ∀ page, Paging.pageStart requests.size page < scanLimit →
      Paging.Divides (·.createdAt) rows.rows (Paging.pageStart requests.size page)

/-- Following the cursors of the database ends, and shows as many credentials as a scan reads, with
the earliest times in order. -/
theorem Requests.exists_lists_database (requests : Requests)
    (hlimits : ∀ page, IsListLimit (requests.limit page))
    (hscan : ∀ page, ∃ arrangement : Arrangement rows, requests.scan page = D1.scan arrangement) :
    ∃ pages listed, requests.Lists pages ∧ requests.Shows pages listed ∧
      listed.map (·.createdAt) = (earliest rows).map (·.createdAt) ∧
      (requests.Separates rows → listed.Perm (earliest rows)) := by
  have htotal : ∀ page, (requests.scan page).length = (earliest rows).length := by
    intro page
    obtain ⟨arrangement, hpage⟩ := hscan page
    rw [hpage, scan_length]
  obtain ⟨pages, listed, hlists, hshows, hsliced⟩ := exists_lists hlimits htotal
  refine ⟨pages, listed, hlists, hshows, ?_, fun hseparates => ?_⟩
  · have htimes : ∀ page, (requests.scan page).map (·.createdAt) =
        (earliest rows).map (·.createdAt) := by
      intro page
      obtain ⟨arrangement, hpage⟩ := hscan page
      rw [hpage, scan_times]
    have hmap := hsliced.map_eq (·.createdAt) htimes (List.length_map _)
    rwa [List.drop_zero] at hmap
  · -- A place that divides the credentials divides what a scan reads of them.
    have htake : ∀ (place other : Nat),
        Paging.Divides (·.createdAt) rows.rows (min place scanLimit) →
          ((requests.scan other).take place).Perm ((earliest rows).take place) := by
      intro place other hdivides
      obtain ⟨arrangement, hpage⟩ := hscan other
      rw [hpage]
      exact scan_take_perm arrangement hdivides
    have hlength : (earliest rows).length ≤ scanLimit := List.length_take_le _ _
    have hperm : ∀ page, (requests.scan page).Perm (earliest rows) := by
      intro page
      have hall := htake scanLimit page (by rw [Nat.min_self]; exact hseparates.1)
      rwa [List.take_of_length_le (by rw [htotal]; exact hlength),
        List.take_of_length_le hlength] at hall
    have hlisted := hsliced.perm rfl rfl hperm fun page hstart other => by
      refine htake _ other ?_
      rw [Nat.min_eq_left (by omega)]
      exact hseparates.2 page (by omega)
    rwa [List.drop_zero] at hlisted

/-! ## The stores -/

/-- The listing of the store in memory. -/
def Requests.OfMemory (requests : Requests) (sorting : Sorting) (rows : Rows) : Prop :=
  ∀ page, requests.scan page = Memory.scan sorting rows

/-- A listing of the database, which comes upon the rows in another order for each page. -/
def Requests.OfDatabase (requests : Requests) (rows : Rows) : Prop :=
  ∀ page, ∃ arrangement : Arrangement rows, requests.scan page = D1.scan arrangement

/-- In memory, following the cursors shows every credential once. The database shows as many
credentials as a scan reads, with the earliest times in order, and shows each of the earliest
credentials once if no page and no scan ends between two credentials of one time. -/
theorem listing_enumerates (rows : Rows) (requests : Requests)
    (hlimits : ∀ page, IsListLimit (requests.limit page)) :
    (∀ sorting, requests.OfMemory sorting rows → requests.Enumerates rows.rows) ∧
      (requests.OfDatabase rows →
        (∃ pages listed, requests.Lists pages ∧ requests.Shows pages listed ∧
          listed.map (·.createdAt) = (earliest rows).map (·.createdAt)) ∧
        (requests.Separates rows → requests.Enumerates (earliest rows))) := by
  constructor
  · intro sorting hmemory
    obtain ⟨pages, listed, hlists, hshows, hperm⟩ :=
      Requests.enumerates_of_constant hlimits hmemory
    exact ⟨pages, listed, hlists, hshows, hperm.trans (sorting.perm _)⟩
  · intro hdatabase
    obtain ⟨pages, listed, hlists, hshows, htimes, hperm⟩ :=
      requests.exists_lists_database hlimits hdatabase
    exact ⟨⟨pages, listed, hlists, hshows, htimes⟩,
      fun hseparates => ⟨pages, listed, hlists, hshows, hperm hseparates⟩⟩

/-! ## Samples -/

/-- A credential that was created at a time. -/
def sampleCredential (id : String) (createdAt : Int) : ManagedCredentialRecord :=
  ⟨id, "digest", .owner, ["mcp"], "", .active, createdAt, createdAt, 100, none, none, none, none⟩

/-- The number one. -/
def one : Number := .finite ⟨false, 1, 0, Decimal.wf_one⟩

theorem isListLimit_one : IsListLimit (some one) := by
  intro number hnumber
  obtain rfl := Option.some.inj hnumber
  exact ⟨1, by simp [floorOf, one, Decimal.toRat], by decide, by decide⟩

/-- Two credentials, of which the later one was stored first. -/
def sampleRows : Rows where
  rows := [sampleCredential "cred_b" 7, sampleCredential "cred_a" 3]
  nodup := by decide +kernel

/-- A listing of the database in pages of one credential. -/
def sampleRequests (rows : Rows) (arrangement : Nat → Arrangement rows) : Requests :=
  ⟨fun page => D1.scan (arrangement page), fun _ => some one, fun _ => 0⟩

theorem listing_sample :
    (sampleRequests sampleRows fun _ => ⟨sampleRows.rows, .refl _⟩).Enumerates
      (earliest sampleRows) := by
  have htimes : (sampleRows.rows.map (·.createdAt)).Nodup := by decide +kernel
  refine ((listing_enumerates sampleRows _ fun _ => isListLimit_one).2 fun _ => ⟨_, rfl⟩).2 ?_
  exact ⟨Paging.divides_of_injective htimes _, fun _ _ => Paging.divides_of_injective htimes _⟩

/-- What is shown has the identifiers of the credentials that are listed. -/
theorem Requests.Shows.ids {pages : List (List ManagedCredentialMetadata)}
    {listed : List ManagedCredentialRecord} (h : requests.Shows pages listed) :
    listed.map (·.id) = pages.flatten.map (·.id) := by
  unfold Requests.Shows at h
  generalize pages.flatten = items at h ⊢
  induction h with
  | nil => rfl
  | cons hitem _ ih =>
    obtain ⟨page, rfl⟩ := hitem
    rw [List.map_cons, List.map_cons, ih]
    rfl

/-- Two credentials of one time. -/
def tiedRows : Rows where
  rows := [sampleCredential "cred_a" 3, sampleCredential "cred_b" 3]
  nodup := by decide +kernel

/-- The first query comes upon the credentials in one order, the others in the other. -/
def swapped (page : Nat) : Arrangement tiedRows :=
  if page = 0 then ⟨[sampleCredential "cred_a" 3, sampleCredential "cred_b" 3], .refl _⟩
  else ⟨[sampleCredential "cred_b" 3, sampleCredential "cred_a" 3], .swap _ _ _⟩

/-- A number of credentials, created one after another. -/
def countedRows (count : Nat) : Rows where
  rows := (List.range count).map fun n : Nat => sampleCredential (toString n) n
  nodup := by
    rw [List.map_map]
    refine List.nodup_range.map fun m n h => ?_
    have hdigits : Nat.toDigits 10 m = Nat.toDigits 10 n := by
      rw [← Nat.toList_repr (n := m), ← Nat.toList_repr (n := n)]
      exact congrArg String.toList h
    exact Numeral.toDigits_inj hdigits

theorem countedRows_length (count : Nat) : (countedRows count).rows.length = count := by
  simp [countedRows]

/-- Of two credentials of one time, the database can show one twice and the other not at all; and
it shows no more credentials than a scan reads. -/
theorem listing_incomplete :
    ¬ (sampleRequests tiedRows swapped).Enumerates tiedRows.rows ∧
      ¬ (sampleRequests (countedRows (scanLimit + 1)) fun _ => ⟨_, .refl _⟩).Enumerates
        (countedRows (scanLimit + 1)).rows := by
  constructor
  · rintro ⟨pages, listed, hlists, hshows, hperm⟩
    have hlimit : listLimit (some one) = .ok 1 := by
      simp [listLimit, floorOf, one, Decimal.toRat, maxListLimit]
    have hscans : D1.scan (swapped 0) = [sampleCredential "cred_a" 3, sampleCredential "cred_b" 3] ∧
        D1.scan (swapped 1) = [sampleCredential "cred_b" 3, sampleCredential "cred_a" 3] := by
      decide +kernel
    have hstart : listOffset none = .ok 0 := rfl
    have hfirst := listManagedMetadata_of_offset (D1.scan (swapped 0)) 0 hlimit hstart
    have hsecond := listManagedMetadata_of_offset (D1.scan (swapped 1)) 0 hlimit
      (listOffset_toString 1)
    rw [hscans.1] at hfirst
    rw [hscans.2] at hsecond
    obtain rfl := hlists.unique (.more hfirst (.last hsecond))
    have hids := hperm.map (·.id)
    rw [hshows.ids] at hids
    revert hids
    decide +kernel
  · generalize hcount : scanLimit + 1 = count
    rintro ⟨pages, listed, hlists, hshows, hperm⟩
    obtain ⟨pages', listed', hlists', hshows', htimes, -⟩ :=
      (sampleRequests (countedRows count) fun _ => ⟨_, .refl _⟩).exists_lists_database
        (fun _ => isListLimit_one) fun _ => ⟨_, rfl⟩
    obtain rfl := hlists.unique hlists'
    have hlength : listed.length = listed'.length :=
      hshows.length_eq.trans hshows'.length_eq.symm
    have htimes := congrArg List.length htimes
    have hscan : (earliest (countedRows count)).length ≤ scanLimit := List.length_take_le _ _
    rw [List.length_map, List.length_map] at htimes
    have hall := hperm.length_eq
    rw [countedRows_length] at hall
    omega

end Groundlane.Credentials
