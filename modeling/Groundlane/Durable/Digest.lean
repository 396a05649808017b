import Groundlane.Durable.Store

/-!
# A digest function without collisions

No two texts with the same SHA-256 digest are known, and much of the repository relies on there
being none. The digest function of a `DigestTable` has no collisions and agrees with SHA-256 on
the texts of the table, so what is proved about digest functions without collisions can be run
on examples (`DigestTable.sha256_injective`).
-/

namespace Groundlane

/-- Some texts with their digests. -/
structure DigestTable where
  entries : List (String × String)
  hex : ∀ entry ∈ entries, entry.2.toList.length = 64 ∧ entry.2.toList.all isHexChar = true
  nodup : (entries.map Prod.snd).Nodup

/-- A character as digits of which only the last is a one. -/
def unary (c : Char) : List Char :=
  .replicate c.toNat '0' ++ ['1']

/-- Digits with ones in different places. -/
private theorem replicate_inj {m n : Nat} {left right : List Char}
    (h : List.replicate m '0' ++ '1' :: left = List.replicate n '0' ++ '1' :: right) :
    m = n ∧ left = right := by
  induction m generalizing n with
  | zero =>
    cases n with
    | zero => simpa using h
    | succ n => simp [List.replicate_succ] at h
  | succ m ih =>
    cases n with
    | zero => simp [List.replicate_succ] at h
    | succ n =>
      obtain ⟨rfl, hrest⟩ := ih (by simpa [List.replicate_succ] using h)
      exact ⟨rfl, hrest⟩

/-- A text can be read back from the digits of its characters. -/
theorem flatMap_unary_inj {left right : List Char} (h : left.flatMap unary = right.flatMap unary) :
    left = right := by
  induction left generalizing right with
  | nil =>
    cases right with
    | nil => rfl
    | cons c right => simp [unary] at h
  | cons c left ih =>
    cases right with
    | nil => simp [unary] at h
    | cons d right =>
      simp only [List.flatMap_cons, unary, List.append_assoc, List.singleton_append] at h
      obtain ⟨hchar, hrest⟩ := replicate_inj h
      rw [ih hrest, Char.toNat_inj.1 hchar]

namespace DigestTable

/-- No text has a digest of the table. -/
def empty : DigestTable := ⟨[], by simp, by simp⟩

variable (table : DigestTable)

/-- The digest of a text that is not in the table: too long to be a digest of the table. -/
def otherDigest (value : String) : String :=
  String.ofList (.replicate 65 '0' ++ value.toList.flatMap unary)

def digest (value : String) : String :=
  (table.entries.lookup value).getD (otherDigest value)

theorem otherDigest_inj {left right : String} (h : otherDigest left = otherDigest right) :
    left = right :=
  String.toList_inj.1 (flatMap_unary_inj (List.append_cancel_left (String.ofList_inj.1 h)))

theorem lookup_mem {entries : List (String × String)} {value digest : String}
    (h : entries.lookup value = some digest) : (value, digest) ∈ entries := by
  obtain ⟨before, after, rfl, -⟩ := List.lookup_eq_some_iff.1 h
  simp

theorem digest_hex (value : String) :
    64 ≤ (table.digest value).toList.length ∧
      (table.digest value).toList.all isHexChar = true := by
  unfold digest
  cases hlookup : table.entries.lookup value with
  | some digest =>
    obtain ⟨hlength, hhex⟩ := table.hex _ (lookup_mem hlookup)
    exact ⟨hlength.ge, hhex⟩
  | none =>
    constructor
    · simp [otherDigest]
    · have hunary : ∀ c, (unary c).all isHexChar = true := fun c => by
        simp [unary, List.all_replicate, show isHexChar '0' = true by decide,
          show isHexChar '1' = true by decide]
      simp only [Option.getD_none, otherDigest, String.toList_ofList, List.all_append,
        List.all_flatMap, Bool.and_eq_true]
      exact ⟨by decide, List.all_eq_true.2 fun c _ => hunary c⟩

/-- The digest function of a table. -/
def sha256 : Sha256 String where
  text := table.digest
  bytes := table.digest
  isHex value := decide (64 ≤ value.toList.length) && value.toList.all isHexChar
  isHex_text value := by simpa using table.digest_hex value
  isHex_bytes value := by simpa using table.digest_hex value
  isHex_chars value h := by
    rw [Bool.and_eq_true] at h
    exact h.2

/-- No two texts have the same digest. -/
theorem sha256_injective : Function.Injective table.sha256.text := by
  intro left right h
  change table.digest left = table.digest right at h
  unfold digest at h
  have hlong : ∀ {value other digest : String}, table.entries.lookup value = some digest →
      digest ≠ otherDigest other := by
    rintro value other digest hlookup rfl
    have hlength := (table.hex _ (lookup_mem hlookup)).1
    simp [otherDigest] at hlength
  cases hleft : table.entries.lookup left with
  | none =>
    cases hright : table.entries.lookup right with
    | none =>
      rw [hleft, hright] at h
      exact otherDigest_inj h
    | some digest =>
      rw [hleft, hright] at h
      exact absurd h.symm (hlong hright)
  | some digest =>
    cases hright : table.entries.lookup right with
    | none =>
      rw [hleft, hright] at h
      exact absurd h (hlong hleft)
    | some digest' =>
      rw [hleft, hright] at h
      have hinj := List.inj_on_of_nodup_map table.nodup (lookup_mem hleft) (lookup_mem hright) h
      exact (Prod.mk.inj hinj).1

end DigestTable

end Groundlane
