import Mathlib.Data.String.Basic
import Groundlane.Corpora.Runtime
import Groundlane.Durable.Digest
import Groundlane.Interleaving.Alone

/-!
# Evaluating the runtime

What a read of the repository comes to when nobody else moves (`settle_present`).
-/

namespace Groundlane.Corpora

open Calendar Fenced Interleaving Interleaving.Program Sequential

/-- What a read finds. -/
def look (dates : DateParser) (records : Store String DurableCorpusRecord) (corpusId : String)
    (binding : DurableCorpusBinding) (nowMs : Int) (includeRevoked : Bool) :
    Except Fault DurableCorpusView := do
  assertTimestamp nowMs "corpus read time"
  let key ← keyFor corpusId
  validateDurableKey key
  match records.get key with
  | none => .error (.error "durable corpus is missing")
  | some stored => do
    let record ← decode dates stored
    DurableCorpusRepository.checkRead binding nowMs includeRevoked record
    pure ⟨record, stored.revision⟩

section Reads

variable {dates : DateParser} {ranking : Ranking} {oracle : Oracle} {stores : Stores}
  {corpusId : String} {binding : DurableCorpusBinding} {nowMs : Int} {includeRevoked : Bool}
  {view : DurableCorpusView}

/-- A read finds what the stores hold, and leaves them as they are. -/
theorem settle_present :
    (DurableCorpusRepository.present dates corpusId binding nowMs includeRevoked).settle
        (exec ranking oracle) stores =
      (look dates stores.records corpusId binding nowMs includeRevoked, stores) := by
  unfold DurableCorpusRepository.present DurableCorpusRepository.get look DurableRecordStore.get
  simp only [bind_eq, liftM_eq, Program.bind_assoc, pure_eq]
  refine settle_check_pure fun _ => settle_check_pure fun key => settle_check_pure fun _ => ?_
  rw [request_bind, settle_perform]
  show settle _ (Program.bind (match stores.records.get key with
    | none => _
    | some stored => _) _) stores = _
  cases hget : stores.records.get key with
  | none =>
    dsimp only
    rw [done_bind]
    rfl
  | some stored =>
    simp only [Program.bind_assoc]
    refine settle_check_pure fun record => settle_check_pure fun _ => ?_
    rw [done_bind]
    rfl

end Reads

/-! ## A sample -/

/-- Documents match a query of one letter that they contain, and are listed by their IDs. -/
def sampleRanking : Ranking where
  check := fun _ limit => throwIf (limit < 1 ∨ 50 < limit) (.error "corpus search limit is invalid")
  hit := fun query document =>
    if query.toList.all document.text.toList.contains then some (document.text, 1) else none
  before := fun first second => decide (first.sourceId ≤ second.sourceId)
  trans := fun _ _ _ hfirst hsecond => decide_eq_true
    ((of_decide_eq_true hfirst).trans (of_decide_eq_true hsecond))
  total := fun first second => (le_total first.sourceId second.sourceId).imp
    decide_eq_true decide_eq_true

/-- A runtime over texts that are normalized already. -/
def sampleRuntime : DurableCorpusRuntime where
  dates := .iso
  sha256 := DigestTable.empty.sha256
  normalize := id
  localeBefore := fun left right => decide (left ≤ right)
  ranking := sampleRanking
  hasCache := false
  maxSourceBytes := 1000000
  bounded := by decide

end Groundlane.Corpora
