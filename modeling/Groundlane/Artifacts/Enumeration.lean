import Groundlane.Artifacts.Lifecycle
import Groundlane.Artifacts.Sources

/-!
# Every registered output is enumerated

The outputs derived from an external source hang on a list that is edited by concurrent calls:
registrations link edges, acknowledgements unlink them, and a crash between the creation of an
edge and its linking leaves an orphan. `Edges` says where the edges of all calls are in this
life, and `Index` that the list of a source consists of exactly the edges that were linked and
not acknowledged. `registrations_enumerated` says it over whole runs, and that a source once
revoked stays so and takes no further outputs.
-/

namespace Groundlane.Artifacts.Sources

open Fenced Interleaving Interleaving.System

variable {B : Type}

/-! ## Runs -/

/-- Every call is about external sources. -/
def sourceCalls (_ : Nat) (event : ArtifactEvent B) (_ : ArtifactWorld B) : Bool :=
  match event with
  | .invoke call => onSource call
  | _ => true

/-- The generated ids so far. -/
def uuids (history : ArtifactHistory B) : List String :=
  history.filterMap fun
    | (_, .effect (.port .randomUUID) uuid) => some uuid
    | _ => none

/-- `randomUUID` answers with a well-formed id that it has not given to anyone before. -/
def freshUUID (_ : Nat) (event : ArtifactEvent B) (world : ArtifactWorld B) : Bool :=
  match event with
  | .effect (.port .randomUUID) uuid =>
    isEdgePointer ("output-edge:" ++ uuid) && !(uuids world.history).contains uuid
  | _ => true

/-- Call `i` was given a random id. -/
def Asked (i : Nat) (uuid : String) (history : ArtifactHistory B) : Prop :=
  (i, .effect (.port .randomUUID) uuid) ∈ history

variable {history : ArtifactHistory B}

theorem Asked.mem_uuids {i : Nat} {uuid : String} (h : Asked i uuid history) :
    uuid ∈ uuids history :=
  List.mem_filterMap.2 ⟨_, h, rfl⟩

/-- Call `i` has tried to link an edge. -/
def Tried (i : Nat) (edge : String) (history : ArtifactHistory B) : Prop :=
  ∃ source revision nowMs expiresAt answer, (i, .effect (.compareAndSwap source revision
    (.sourceHead false (some edge)) nowMs expiresAt) answer) ∈ history

theorem Linked.tried {i : Nat} {source edge : String} (h : Linked i source edge history) :
    Tried i edge history := by
  obtain ⟨revision, nowMs, expiresAt, _, h⟩ := h
  exact ⟨source, revision, nowMs, expiresAt, _, h⟩

/-! ## Lists in the record store -/

/-- From `head` on, the records form a list of edges with the outputs that they name. -/
inductive Chain (records : Store String ArtifactValue) :
    Option String → List (String × String) → Prop where
  | nil : Chain records none []
  | cons {edge record outputRefId next edges} : records.get edge = some record →
    decodeOutputSourceEdge record.value = .ok (outputRefId, next) →
    Chain records next edges → Chain records (some edge) ((edge, outputRefId) :: edges)

/-- A list stays while its edges do. -/
theorem Chain.frame {records later : Store String ArtifactValue} {head : Option String}
    {edges : List (String × String)} (h : Chain records head edges)
    (hsame : ∀ edge ∈ edges.map Prod.fst, later.get edge = records.get edge) :
    Chain later head edges := by
  induction h with
  | nil => exact .nil
  | cons hget hdecode hrest ih =>
    rw [List.map_cons, List.forall_mem_cons] at hsame
    exact .cons (hsame.1.trans hget) hdecode (ih hsame.2)

variable {edge outputRefId : String} {world : ArtifactWorld B} {j : Nat}

/-- Every edge of a list is stored with its output. -/
theorem Chain.stored {records : Store String ArtifactValue} {head : Option String}
    {edges : List (String × String)} (h : Chain records head edges)
    (hmem : (edge, outputRefId) ∈ edges) : ∃ record next, records.get edge = some record ∧
      decodeOutputSourceEdge record.value = .ok (outputRefId, next) := by
  induction h with
  | nil => cases hmem
  | cons hget hdecode hrest ih =>
    rcases List.mem_cons.1 hmem with heq | hmem
    · cases heq
      exact ⟨_, _, hget, hdecode⟩
    · exact ih hmem

/-- The output is found under the edge by following the list from the index of the source. -/
def Enumerable (records : Store String ArtifactValue) (source edge outputRefId : String) : Prop :=
  ∃ index revoked head edges, records.get source = some index ∧
    decodeOutputSourceHead index.value = .ok (revoked, head) ∧ Chain records head edges ∧
    (edge, outputRefId) ∈ edges

/-- The index of the source says that the source is revoked. -/
def Revoked (records : Store String ArtifactValue) (source : String) : Prop :=
  ∃ index head, records.get source = some index ∧
    decodeOutputSourceHead index.value = .ok (true, head)

/-! ## Edges -/

/-- Where the edges are: an edge is made by the call that was given its id; it is not linked
before it is made, nor while it is the last thing that its call made, nor once linking it has
failed; and every stored or read edge is as it was made. -/
structure Edges (world : ArtifactWorld B) : Prop where
  calls : ∀ i call, (i, .invoke call) ∈ world.history → onSource call = true
  asked : ∀ i uuid, Asked i uuid world.history → isEdgePointer ("output-edge:" ++ uuid) = true
  askedOnce : ∀ i j uuid, Asked i uuid world.history → Asked j uuid world.history → i = j
  made : ∀ i edge outputRefId next, Made i edge outputRefId next world.history →
    (∃ uuid, edge = "output-edge:" ++ uuid ∧ Asked i uuid world.history) ∧
      decodeOutputSourceEdge (.sourceEdge outputRefId next) = .ok (outputRefId, next)
  madeOnce : ∀ i j edge outputRefId next outputRefId' next',
    Made i edge outputRefId next world.history → Made j edge outputRefId' next' world.history →
      outputRefId = outputRefId' ∧ next = next'
  tried : ∀ i edge, Tried i edge world.history →
    ∃ outputRefId next, Made i edge outputRefId next world.history
  linkedOnce : ∀ i j source source' edge, Linked i source edge world.history →
    Linked j source' edge world.history → source = source'
  stored : ∀ edge record, IsEdge edge → world.state.records.get edge = some record →
    ∃ i outputRefId next, record.value = .sourceEdge outputRefId next ∧
      Made i edge outputRefId next world.history
  read : ∀ i edge record, IsEdge edge →
    (i, .effect (.get edge) (some record)) ∈ world.history →
    ∃ j outputRefId next, record.value = .sourceEdge outputRefId next ∧
      Made j edge outputRefId next world.history
  unmade : ∀ i uuid, Latest i (.effect (.port .randomUUID) uuid) world.history →
    ∀ j outputRefId next, ¬ Made j ("output-edge:" ++ uuid) outputRefId next world.history
  unlinked : ∀ i edge outputRefId next nowMs expiresAt answer,
    Latest i (.effect (.createIfAbsent edge (.sourceEdge outputRefId next) nowMs expiresAt)
      answer) world.history →
    (∃ record, world.state.records.get edge = some record ∧
      record.value = .sourceEdge outputRefId next) ∧
    ∀ j source, ¬ Linked j source edge world.history
  failed : ∀ i source revision edge nowMs expiresAt answer,
    Latest i (.effect (.compareAndSwap source revision (.sourceHead false (some edge)) nowMs
      expiresAt) answer) world.history → (∀ record, answer ≠ .updated record) →
    ∀ j source', ¬ Linked j source' edge world.history

theorem edges_initial [ByteString B] : Edges (initial : Config (Call B) _ _ _ _ _).toWorld where
  calls := by simp [initial, Config.initial]
  asked := by simp [initial, Config.initial, Asked]
  askedOnce := by simp [initial, Config.initial, Asked]
  made := by simp [initial, Config.initial, Made]
  madeOnce := by simp [initial, Config.initial, Made]
  tried := by simp [initial, Config.initial, Tried]
  linkedOnce := by simp [initial, Config.initial, Linked]
  stored := by simp [initial, Config.initial, Disk.empty]
  read := by simp [initial, Config.initial]
  unmade := by simp [initial, Config.initial, Made]
  unlinked i edge outputRefId next nowMs expiresAt answer h := by
    simpa [initial, Config.initial] using h.mem
  failed := by simp [initial, Config.initial, Linked]

section Step

variable [ByteString B] {sha256 : Sha256 B} {i : Nat} {event : ArtifactEvent B}
  {before after : ArtifactWorld B}

omit [ByteString B] in
/-- An edge has one maker. -/
theorem Edges.maker (h : Edges before) {edge outputRefId outputRefId' : String}
    {next next' : Option String} (hmade : Made i edge outputRefId next before.history)
    (hmade' : Made j edge outputRefId' next' before.history) : i = j := by
  obtain ⟨uuid, rfl, hasked⟩ := (h.made _ _ _ _ hmade).1
  obtain ⟨_, heq, hasked'⟩ := (h.made _ _ _ _ hmade').1
  rw [String.append_right_inj] at heq
  subst heq
  exact h.askedOnce i j uuid hasked hasked'

variable {expiresAt : Option Int} {revision : Nat} {next : Option String} {nowMs : Int}

theorem made_after (hstep : (repository sha256).Step i event before after)
    (h : Made j edge outputRefId next after.history) : Made j edge outputRefId next before.history ∨
      j = i ∧ ∃ nowMs expiresAt answer, event = .effect (.createIfAbsent edge
        (.sourceEdge outputRefId next) nowMs expiresAt) answer := by
  obtain ⟨nowMs, expiresAt, answer, h⟩ := h
  rcases hstep.mem_history.1 h with heq | h
  · obtain ⟨rfl, rfl⟩ := Prod.mk.inj heq
    exact .inr ⟨rfl, nowMs, expiresAt, answer, rfl⟩
  · exact .inl ⟨nowMs, expiresAt, answer, h⟩

theorem tried_after (hstep : (repository sha256).Step i event before after) {edge : String}
    (h : Tried j edge after.history) :
    Tried j edge before.history ∨ j = i ∧ ∃ source revision nowMs expiresAt answer,
      event = .effect (.compareAndSwap source revision (.sourceHead false (some edge)) nowMs
        expiresAt) answer := by
  obtain ⟨source, revision, nowMs, expiresAt, answer, h⟩ := h
  rcases hstep.mem_history.1 h with heq | h
  · obtain ⟨rfl, rfl⟩ := Prod.mk.inj heq
    exact .inr ⟨rfl, source, revision, nowMs, expiresAt, answer, rfl⟩
  · exact .inl ⟨source, revision, nowMs, expiresAt, answer, h⟩

theorem linked_after (hstep : (repository sha256).Step i event before after) {source edge : String}
    (h : Linked j source edge after.history) :
    Linked j source edge before.history ∨ j = i ∧ ∃ revision nowMs expiresAt record,
      event = .effect (.compareAndSwap source revision (.sourceHead false (some edge)) nowMs
        expiresAt) (.updated record) := by
  obtain ⟨revision, nowMs, expiresAt, record, h⟩ := h
  rcases hstep.mem_history.1 h with heq | h
  · obtain ⟨rfl, rfl⟩ := Prod.mk.inj heq
    exact .inr ⟨rfl, revision, nowMs, expiresAt, record, rfl⟩
  · exact .inl ⟨revision, nowMs, expiresAt, record, h⟩

omit [ByteString B] in
/-- What happens when a call makes an edge. -/
theorem making (hG : Guarantee sha256 i event before) (hedges : Edges before)
    {answer : CreateResult String ArtifactValue}
    (hevent : event = .effect (.createIfAbsent edge (.sourceEdge outputRefId next) nowMs expiresAt)
      answer) : (∃ uuid, edge = "output-edge:" ++ uuid ∧
        Latest i (.effect (.port .randomUUID) uuid) before.history) ∧
      decodeOutputSourceEdge (.sourceEdge outputRefId next) = .ok (outputRefId, next) ∧
      ∀ j outputRefId' next', ¬ Made j edge outputRefId' next' before.history := by
  subst hevent
  obtain ⟨⟨uuid, rfl, huuid⟩, hdecode⟩ := hG (hedges.calls i)
  exact ⟨⟨uuid, rfl, huuid⟩, hdecode, hedges.unmade i uuid huuid⟩

omit [ByteString B] in
/-- What happens when a call tries to link an edge. -/
theorem linking (hG : Guarantee sha256 i event before) (hedges : Edges before)
    {source edge : String} {answer : CasResult String ArtifactValue}
    (hevent : event = .effect (.compareAndSwap source revision (.sourceHead false (some edge))
      nowMs expiresAt) answer) : IsSource source ∧ ∃ outputRefId next, IsEdge edge ∧
      ReadHead i source revision false next before.history ∧
      Made i edge outputRefId next before.history ∧
      (∃ record, before.state.records.get edge = some record ∧
        record.value = .sourceEdge outputRefId next) ∧
      ∀ j source', ¬ Linked j source' edge before.history := by
  subst hevent
  obtain ⟨hsource, _, outputRefId, next, _, _, _, heq, hedge, hread,
    hlatest⟩ := hG (hedges.calls i)
  cases heq
  obtain ⟨hstored, hunlinked⟩ := hedges.unlinked i edge outputRefId next _ _ _ hlatest
  exact ⟨hsource, outputRefId, next, hedge, hread, ⟨_, _, _, hlatest.mem⟩, hstored, hunlinked⟩

/-- What a step does to the record of an edge: nothing, or it makes the edge, or it deletes an
edge that is not linked or has been acknowledged. -/
theorem edge_cases (hstep : (repository sha256).Step i event before after)
    (hG : Guarantee sha256 i event before) (hedges : Edges before) {edge : String}
    (hedge : IsEdge edge) :
    after.state.records.get edge = before.state.records.get edge ∨
      (∃ outputRefId next nowMs expiresAt answer,
        event = .effect (.createIfAbsent edge (.sourceEdge outputRefId next) nowMs expiresAt)
          answer ∧ before.state.records.get edge = none ∧
        ∃ record, after.state.records.get edge = some record ∧
          record.value = .sourceEdge outputRefId next) ∨
      (∃ revision, event = .effect (.deleteIfRevision edge revision) .deleted) ∧
        after.state.records.get edge = none ∧
        ((Tried i edge before.history ∧ ∀ j source, ¬ Linked j source edge before.history) ∨
          ∃ source, Acknowledged sha256 source edge before.history) := by
  rcases Step.record_cases hstep edge with
    hsame | ⟨value, nowMs, expiresAt, rfl, hnone, hafter⟩ |
    ⟨_, value, nowMs, expiresAt, rfl, _, hafter⟩ | ⟨_, rfl, _, hafter⟩
  · exact .inl hsame
  · have hcreate := hG (hedges.calls i)
    cases value with
    | metadata metadata => exact hcreate.elim
    | sourceHead revoked head => exact absurd rfl (hcreate.1.ne_edge hedge)
    | sourceEdge outputRefId next =>
      exact .inr (.inl ⟨outputRefId, next, nowMs, expiresAt, _, rfl, hnone, _, hafter, rfl⟩)
  · exact absurd rfl ((hG (hedges.calls i)).1.ne_edge hedge)
  · refine .inr (.inr ⟨⟨_, rfl⟩, hafter, ?_⟩)
    obtain ⟨-, ⟨source, revision, nowMs, expiresAt, answer, hlatest, hfailed⟩ | ⟨source, h⟩⟩ :=
      hG (hedges.calls i)
    · exact .inl ⟨⟨source, revision, nowMs, expiresAt, answer, hlatest.mem⟩,
        hedges.failed i source revision edge nowMs expiresAt answer hlatest hfailed⟩
    · exact .inr ⟨source, i, h⟩

/-- One step keeps track of the edges, given that only linked edges were acknowledged. -/
theorem edges_step (hstep : (repository sha256).Step i event before after)
    (hG : Guarantee sha256 i event before) (hcall : sourceCalls i event before = true)
    (hfresh : freshUUID i event before = true) (hedges : Edges before)
    (hacknowledged : ∀ source edge, Acknowledged sha256 source edge before.history →
      ∃ j, Linked j source edge before.history) : Edges after := by
  have hmono : before.history ⊆ after.history := fun _ h => hstep.history_mono h
  -- A new id was not given to anyone before.
  have hnew : ∀ j uuid, Asked j uuid after.history → Asked j uuid before.history ∨
      j = i ∧ event = .effect (.port .randomUUID) uuid ∧
        isEdgePointer ("output-edge:" ++ uuid) = true ∧
        ∀ k, ¬ Asked k uuid before.history := by
    intro j uuid h
    rcases hstep.mem_history.1 h with heq | h
    · obtain ⟨rfl, rfl⟩ := Prod.mk.inj heq
      simp only [freshUUID, Bool.and_eq_true, Bool.not_eq_true', List.contains_eq_mem,
        decide_eq_false_iff_not] at hfresh
      exact .inr ⟨rfl, rfl, hfresh.1, fun k hk => hfresh.2 hk.mem_uuids⟩
    · exact .inl h
  constructor
  case calls =>
    intro j call h
    rcases hstep.mem_history.1 h with heq | h
    · obtain ⟨rfl, rfl⟩ := Prod.mk.inj heq
      exact hcall
    · exact hedges.calls j call h
  case asked =>
    intro j uuid h
    rcases hnew j uuid h with h | ⟨-, -, hpointer, -⟩
    · exact hedges.asked j uuid h
    · exact hpointer
  case askedOnce =>
    intro j k uuid hj hk
    rcases hnew j uuid hj with hj | ⟨rfl, -, -, hj⟩ <;>
      rcases hnew k uuid hk with hk | ⟨rfl, -, -, hk⟩
    · exact hedges.askedOnce j k uuid hj hk
    · exact absurd hj (hk j)
    · exact absurd hk (hj k)
    · rfl
  case made =>
    intro j edge outputRefId next h
    rcases made_after hstep h with h | ⟨rfl, nowMs, expiresAt, answer, hevent⟩
    · obtain ⟨⟨uuid, heq, hasked⟩, hdecode⟩ := hedges.made j edge outputRefId next h
      exact ⟨⟨uuid, heq, hmono hasked⟩, hdecode⟩
    · obtain ⟨⟨uuid, heq, hlatest⟩, hdecode, -⟩ := making hG hedges hevent
      exact ⟨⟨uuid, heq, hmono hlatest.mem⟩, hdecode⟩
  case madeOnce =>
    intro j k edge outputRefId next outputRefId' next' hj hk
    rcases made_after hstep hj with hj | ⟨rfl, _, _, _, hevent⟩ <;>
      rcases made_after hstep hk with hk | ⟨rfl, _, _, _, hevent'⟩
    · exact hedges.madeOnce j k edge _ _ _ _ hj hk
    · exact absurd hj ((making hG hedges hevent').2.2 j _ _)
    · exact absurd hk ((making hG hedges hevent).2.2 k _ _)
    · cases hevent.symm.trans hevent'
      exact ⟨rfl, rfl⟩
  case tried =>
    intro j edge h
    rcases tried_after hstep h with h | ⟨rfl, source, revision, nowMs, expiresAt, answer, hevent⟩
    · obtain ⟨outputRefId, next, hmade⟩ := hedges.tried j edge h
      exact ⟨outputRefId, next, hmade.mono hmono⟩
    · obtain ⟨-, outputRefId, next, -, -, hmade, -⟩ := linking hG hedges hevent
      exact ⟨outputRefId, next, hmade.mono hmono⟩
  case linkedOnce =>
    intro j k source source' edge hj hk
    rcases linked_after hstep hj with hj | ⟨rfl, _, _, _, _, hevent⟩ <;>
      rcases linked_after hstep hk with hk | ⟨rfl, _, _, _, _, hevent'⟩
    · exact hedges.linkedOnce j k source source' edge hj hk
    · obtain ⟨-, _, _, -, -, -, -, hunlinked⟩ := linking hG hedges hevent'
      exact absurd hj (hunlinked j source)
    · obtain ⟨-, _, _, -, -, -, -, hunlinked⟩ := linking hG hedges hevent
      exact absurd hk (hunlinked k source')
    · cases hevent.symm.trans hevent'
      rfl
  case stored =>
    intro edge record hedge hget
    rcases edge_cases hstep hG hedges hedge with
      hsame | ⟨outputRefId, next, nowMs, expiresAt, answer, rfl, -, _, hafter, hvalue⟩ |
      ⟨-, hafter, -⟩
    · obtain ⟨j, outputRefId, next, hvalue, hmade⟩ :=
        hedges.stored edge record hedge (hsame.symm.trans hget)
      exact ⟨j, outputRefId, next, hvalue, hmade.mono hmono⟩
    · obtain rfl := Option.some.inj (hafter.symm.trans hget)
      exact ⟨i, outputRefId, next, hvalue, nowMs, expiresAt, answer, hstep.mem_history.2 (.inl rfl)⟩
    · simp [hafter] at hget
  case read =>
    intro j edge record hedge h
    rcases hstep.mem_history.1 h with heq | h
    · obtain ⟨rfl, rfl⟩ := Prod.mk.inj heq
      obtain ⟨k, outputRefId, next, hvalue, hmade⟩ :=
        hedges.stored edge record hedge (Step.get_answer hstep).1.symm
      exact ⟨k, outputRefId, next, hvalue, hmade.mono hmono⟩
    · obtain ⟨k, outputRefId, next, hvalue, hmade⟩ := hedges.read j edge record hedge h
      exact ⟨k, outputRefId, next, hvalue, hmade.mono hmono⟩
  case unmade =>
    intro j uuid hlatest k outputRefId next hmade
    by_cases hj : i = j
    · subst hj
      obtain rfl := hstep.latest_eq hlatest
      rcases made_after hstep hmade with hmade | ⟨-, _, _, _, hevent⟩
      · obtain ⟨uuid', heq, hasked⟩ := (hedges.made k _ _ _ hmade).1
        rw [String.append_right_inj] at heq
        subst heq
        rcases hnew i uuid hlatest.mem with hold | ⟨-, -, -, hnone⟩
        · simp only [freshUUID, Bool.and_eq_true, Bool.not_eq_true', List.contains_eq_mem,
            decide_eq_false_iff_not] at hfresh
          exact hfresh.2 hold.mem_uuids
        · exact hnone k hasked
      · cases hevent
    · have hlatest := (hstep.latest_iff hj).1 hlatest
      rcases made_after hstep hmade with hmade | ⟨rfl, _, _, _, hevent⟩
      · exact hedges.unmade j uuid hlatest k outputRefId next hmade
      · obtain ⟨⟨_, heq, hasked⟩, -⟩ := making hG hedges hevent
        rw [String.append_right_inj] at heq
        subst heq
        exact hj (hedges.askedOnce _ _ uuid hasked.mem hlatest.mem)
  case unlinked =>
    intro j edge outputRefId next nowMs expiresAt answer hlatest
    by_cases hj : i = j
    · subst hj
      obtain rfl := hstep.latest_eq hlatest
      obtain ⟨⟨uuid, heq, -⟩, -, hunmade⟩ := making hG hedges rfl
      constructor
      · obtain ⟨hafter, ⟨record, rfl, hbefore⟩ | ⟨rfl, -⟩⟩ := Step.createIfAbsent_answer hstep
        · obtain ⟨k, _, _, -, hmade⟩ := hedges.stored edge record ⟨uuid, heq⟩ hbefore
          exact absurd hmade (hunmade k _ _)
        · exact ⟨_, hafter, rfl⟩
      · intro k source hlinked
        rcases linked_after hstep hlinked with hlinked | ⟨-, _, _, _, _, hevent⟩
        · obtain ⟨_, _, hmade⟩ := hedges.tried k edge hlinked.tried
          exact hunmade k _ _ hmade
        · cases hevent
    · have hlatest := (hstep.latest_iff hj).1 hlatest
      have hmade : Made j edge outputRefId next before.history := ⟨_, _, _, hlatest.mem⟩
      obtain ⟨⟨record, hbefore, hvalue⟩, hunlinked⟩ := hedges.unlinked j edge _ _ _ _ _ hlatest
      obtain ⟨⟨uuid, heq, -⟩, -⟩ := hedges.made j edge _ _ hmade
      constructor
      · rcases edge_cases hstep hG hedges ⟨uuid, heq⟩ with
          hsame | ⟨_, _, _, _, _, -, hnone, -⟩ | ⟨-, -, ⟨htried, -⟩ | ⟨source, hacked⟩⟩
        · exact ⟨record, hsame.trans hbefore, hvalue⟩
        · simp [hnone] at hbefore
        · obtain ⟨_, _, hmade'⟩ := hedges.tried i edge htried
          exact absurd (hedges.maker hmade' hmade) hj
        · obtain ⟨k, hlinked⟩ := hacknowledged source edge hacked
          exact absurd hlinked (hunlinked k source)
      · intro k source hlinked
        rcases linked_after hstep hlinked with hlinked | ⟨rfl, _, _, _, _, hevent⟩
        · exact hunlinked k source hlinked
        · obtain ⟨-, _, _, -, -, hmade', -⟩ := linking hG hedges hevent
          exact hj (hedges.maker hmade' hmade)
  case failed =>
    intro j source revision edge nowMs expiresAt answer hlatest hanswer k source' hlinked
    by_cases hj : i = j
    · subst hj
      obtain rfl := hstep.latest_eq hlatest
      obtain ⟨-, _, _, -, -, -, -, hunlinked⟩ := linking hG hedges rfl
      rcases linked_after hstep hlinked with hlinked | ⟨-, _, _, _, record, hevent⟩
      · exact hunlinked k source' hlinked
      · cases hevent
        exact hanswer record rfl
    · have hlatest := (hstep.latest_iff hj).1 hlatest
      rcases linked_after hstep hlinked with hlinked | ⟨rfl, _, _, _, _, hevent⟩
      · exact hedges.failed j source revision edge _ _ _ hlatest hanswer k source' hlinked
      · obtain ⟨-, _, _, -, -, hmade, -⟩ := linking hG hedges hevent
        obtain ⟨_, _, hmade'⟩ := hedges.tried j edge ⟨_, _, _, _, _, hlatest.mem⟩
        exact hj (hedges.maker hmade hmade')

/-! ## The list of a source -/

/-- From `head` on hang the edges of the source that were linked and not acknowledged. -/
structure Listed (sha256 : Sha256 B) (source : String) (head : Option String)
    (edges : List (String × String)) (world : ArtifactWorld B) : Prop where
  chain : Chain world.state.records head edges
  nodup : (edges.map Prod.fst).Nodup
  mem : ∀ edge, edge ∈ edges.map Prod.fst ↔ (∃ i, Linked i source edge world.history) ∧
    ¬ Acknowledged sha256 source edge world.history

/-- What holds of the index of a source: whoever has read it finds it again or a later version;
its list consists of the edges that were linked and not acknowledged; nothing is linked before
it is there; only linked edges were acknowledged; and once found empty when revoked it stays
so. -/
structure Index (sha256 : Sha256 B) (source : String) (world : ArtifactWorld B) : Prop where
  read : ∀ i record, (i, .effect (.get source) (some record)) ∈ world.history →
    record.key = source ∧ Store.Seen record world.state.records
  absent : world.state.records.get source = none → ∀ i edge, ¬ Linked i source edge world.history
  listed : ∀ index, world.state.records.get source = some index → ∃ revoked head edges,
    decodeOutputSourceHead index.value = .ok (revoked, head) ∧
    Listed sha256 source head edges world
  acknowledged : ∀ edge, Acknowledged sha256 source edge world.history →
    ∃ i, Linked i source edge world.history
  drained : ∀ i, Drained i source world.history → ∃ index,
    world.state.records.get source = some index ∧ index.value = .sourceHead true none

/-- The event swaps the index of the source. -/
def Swaps (source : String) (event : ArtifactEvent B) : Prop :=
  ∃ revision value nowMs expiresAt record, event =
    .effect (.compareAndSwap source revision value nowMs expiresAt) (.updated record)

omit [ByteString B] in
/-- What a call has read of the index is what the index says when it is swapped at the revision
that was read. -/
theorem Index.current {source : String} (h : Index sha256 source before) {revoked : Bool}
    {head : Option String} (hread : ReadHead i source revision revoked head before.history)
    {current : Record String ArtifactValue} (hget : before.state.records.get source = some current)
    (hrevision : current.revision = revision) :
    current.value = .sourceHead revoked head ∧ WellFormed head := by
  obtain ⟨record, hmem, rfl, hvalue, hwell⟩ := hread
  obtain ⟨rfl, hseen⟩ := h.read i record hmem
  obtain rfl := hseen.of_swap hget hrevision
  exact ⟨hvalue, hwell⟩

/-- A swap of the index links an edge, marks the source revoked or unlinks the first edge. -/
theorem swapping (hstep : (repository sha256).Step i event before after)
    (hG : Guarantee sha256 i event before) (hedges : Edges before) {source : String}
    (hindex : Index sha256 source before) (hswaps : Swaps source event) :
    ∃ current, before.state.records.get source = some current ∧
      ((∃ edge outputRefId next index revision nowMs expiresAt record,
        event = .effect (.compareAndSwap source revision (.sourceHead false (some edge)) nowMs
          expiresAt) (.updated record) ∧
        after.state.records.get source = some index ∧
        index.value = .sourceHead false (some edge) ∧
        current.value = .sourceHead false next ∧ Made i edge outputRefId next before.history ∧
        (∃ record, before.state.records.get edge = some record ∧
          record.value = .sourceEdge outputRefId next) ∧
        ∀ j source', ¬ Linked j source' edge before.history) ∨
      ∃ revision head nowMs expiresAt record index,
        event = .effect (.compareAndSwap source revision (.sourceHead true head) nowMs expiresAt)
          (.updated record) ∧
        after.state.records.get source = some index ∧ index.value = .sourceHead true head ∧
        WellFormed head ∧
        ((Enumerates i before.history ∧ current.value = .sourceHead false head) ∨
          ∃ edge outputRefId, Acknowledges sha256 i source edge before.history ∧
            current.value = .sourceHead true (some edge) ∧
            ReadEdge i edge outputRefId head before.history)) := by
  obtain ⟨revision, value, nowMs, expiresAt, record, rfl⟩ := hswaps
  rcases Step.compareAndSwap_answer hstep with
    ⟨heq, -⟩ | ⟨_, heq, -⟩ | ⟨current, -, hget, hrevision, hafter⟩
  · cases heq
  · cases heq
  refine ⟨current, hget, ?_⟩
  have hswap := hG (hedges.calls i)
  cases value with
  | metadata metadata => exact hswap.2.elim
  | sourceEdge outputRefId next => exact hswap.2.elim
  | sourceHead revoked head =>
    cases revoked with
    | false =>
      obtain ⟨-, edge, -, -, -, -, -, rfl, -⟩ := hswap
      obtain ⟨-, outputRefId, next, -, hread, hmade, hstored, hunlinked⟩ :=
        linking hG hedges rfl
      obtain ⟨hcurrent, -⟩ := hindex.current hread hget hrevision
      exact .inl ⟨edge, outputRefId, next, _, revision, nowMs, expiresAt, record, rfl, hafter,
        rfl, hcurrent, hmade, hstored, hunlinked⟩
    | true =>
      refine .inr ⟨revision, head, nowMs, expiresAt, record, _, rfl, hafter, rfl, ?_⟩
      obtain ⟨-, ⟨henumerates, hread⟩ | ⟨edge, outputRefId, hacknowledges, hread, hedge⟩⟩ :=
        hswap
      · obtain ⟨hcurrent, hwell⟩ := hindex.current hread hget hrevision
        exact ⟨hwell, .inl ⟨henumerates, hcurrent⟩⟩
      · obtain ⟨hcurrent, -⟩ := hindex.current hread hget hrevision
        have ⟨_, _, _, hwell⟩ := hedge
        exact ⟨hwell, .inr ⟨edge, outputRefId, hacknowledges, hcurrent, hedge⟩⟩

omit [ByteString B] in
/-- An edge is newly acknowledged by the swap that unlinks it. -/
theorem acknowledged_after [ByteString B] (hstep : (repository sha256).Step i event before after)
    {source edge : String} (h : Acknowledged sha256 source edge after.history) :
    Acknowledged sha256 source edge before.history ∨
      Acknowledges sha256 i source edge before.history ∧
        ∃ revision next nowMs expiresAt record, event = .effect (.compareAndSwap source revision
          (.sourceHead true next) nowMs expiresAt) (.updated record) := by
  obtain ⟨j, ⟨refId, caller, asked, hcall, hkey⟩, revision, next, nowMs, expiresAt, record, hmem⟩ :=
    h
  rcases hstep.mem_history.1 hmem with heq | hmem
  · obtain ⟨rfl, rfl⟩ := Prod.mk.inj heq
    rcases hstep.mem_history.1 hcall with heq | hcall
    · cases heq
    · exact .inr ⟨⟨refId, caller, asked, hcall, hkey⟩, revision, next, nowMs, expiresAt, record,
        rfl⟩
  · exact .inl ⟨j, ⟨refId, caller, asked, hstep.mem_of_invoke hmem hcall, hkey⟩, revision, next,
      nowMs, expiresAt, record, hmem⟩

/-- A call that acknowledges an edge acknowledges no other edge. -/
theorem Acknowledges.unique (haccounted : (repository sha256).Accounted after)
    {source source' edge edge' : String} (h : Acknowledges sha256 i source edge after.history)
    (h' : Acknowledges sha256 i source' edge' after.history) : edge = edge' := by
  obtain ⟨_, _, _, hcall, -⟩ := h
  obtain ⟨_, _, _, hcall', -⟩ := h'
  cases haccounted.invoke_unique hcall hcall'
  rfl

/-- A call that asks for the next output acknowledges none. -/
theorem Enumerates.not_acknowledges (haccounted : (repository sha256).Accounted after)
    (h : Enumerates i after.history) {source edge : String} :
    ¬ Acknowledges sha256 i source edge after.history := by
  rintro ⟨_, _, _, hcall', -⟩
  obtain ⟨_, _, _, hcall⟩ := h
  cases haccounted.invoke_unique hcall hcall'

/-- The record of an edge on the list stays. -/
theorem listed_kept (hstep : (repository sha256).Step i event before after)
    (hG : Guarantee sha256 i event before) (hedges : Edges before)
    (hacknowledged : ∀ source edge, Acknowledged sha256 source edge before.history →
      ∃ j, Linked j source edge before.history) {source edge : String}
    (hlinked : Linked j source edge before.history)
    (hnot : ¬ Acknowledged sha256 source edge before.history) :
    after.state.records.get edge = before.state.records.get edge := by
  obtain ⟨outputRefId, next, hmade⟩ := hedges.tried j edge hlinked.tried
  obtain ⟨⟨uuid, huuid, -⟩, -⟩ := hedges.made j edge outputRefId next hmade
  rcases edge_cases hstep hG hedges ⟨uuid, huuid⟩ with
    hsame | ⟨_, _, _, _, _, hevent, -⟩ | ⟨-, -, ⟨-, hunlinked⟩ | ⟨source', hacked⟩⟩
  · exact hsame
  · exact absurd hmade ((making hG hedges hevent).2.2 j _ _)
  · exact absurd hlinked (hunlinked j source)
  · obtain ⟨k, hlinked'⟩ := hacknowledged source' edge hacked
    obtain rfl := hedges.linkedOnce k j source' source edge hlinked' hlinked
    exact absurd hacked hnot

/-- Without a swap the index stays as it is or is created, and nothing is linked to the source
and nothing acknowledged. -/
theorem unswapped (hstep : (repository sha256).Step i event before after)
    (hG : Guarantee sha256 i event before) (hedges : Edges before) {source : String}
    (hsource : IsSource source) (hswaps : ¬ Swaps source event) :
    (after.state.records.get source = before.state.records.get source ∨
      before.state.records.get source = none ∧ ∃ index revoked,
        after.state.records.get source = some index ∧ index.value = .sourceHead revoked none) ∧
    (∀ j edge, Linked j source edge after.history → Linked j source edge before.history) ∧
    ∀ edge, Acknowledged sha256 source edge after.history →
      Acknowledged sha256 source edge before.history := by
  refine ⟨?_, fun j edge h => ?_, fun edge h => ?_⟩
  · rcases Step.record_cases hstep source with
      hsame | ⟨value, nowMs, expiresAt, rfl, hnone, hafter⟩ |
      ⟨_, value, nowMs, expiresAt, heq, -⟩ | ⟨_, rfl, -⟩
    · exact .inl hsame
    · have hcreate := hG (hedges.calls i)
      cases value with
      | metadata metadata => exact hcreate.elim
      | sourceHead revoked head =>
        obtain ⟨-, rfl⟩ := hcreate
        exact .inr ⟨hnone, _, revoked, hafter, rfl⟩
      | sourceEdge outputRefId next =>
        obtain ⟨⟨uuid, rfl, -⟩, -⟩ := hcreate
        exact absurd rfl (hsource.ne_edge ⟨uuid, rfl⟩)
    · exact absurd ⟨_, value, nowMs, expiresAt, _, heq⟩ hswaps
    · exact absurd rfl (hsource.ne_edge (hG (hedges.calls i)).1)
  · rcases linked_after hstep h with h | ⟨-, revision, nowMs, expiresAt, record, heq⟩
    · exact h
    · exact absurd ⟨revision, _, nowMs, expiresAt, record, heq⟩ hswaps
  · rcases acknowledged_after hstep h with h | ⟨-, revision, _, nowMs, expiresAt, record, heq⟩
    · exact h
    · exact absurd ⟨revision, _, nowMs, expiresAt, record, heq⟩ hswaps

section Listed

variable (hstep : (repository sha256).Step i event before after)
  (hG : Guarantee sha256 i event before) (hedges : Edges before)
  (hacknowledged : ∀ source edge, Acknowledged sha256 source edge before.history →
    ∃ j, Linked j source edge before.history)
  {source : String} {head : Option String} {edges : List (String × String)}

include hstep hG hedges hacknowledged

/-- The records of the list stay in a step. -/
theorem Listed.chain_after (h : Listed sha256 source head edges before) :
    Chain after.state.records head edges :=
  h.chain.frame fun edge hedge => by
    obtain ⟨⟨j, hlinked⟩, hnot⟩ := (h.mem edge).1 hedge
    exact listed_kept hstep hG hedges hacknowledged hlinked hnot

/-- A step that neither links nor acknowledges an edge of the source keeps the list. -/
theorem Listed.keep (h : Listed sha256 source head edges before)
    (hlinked : ∀ j edge, Linked j source edge after.history → Linked j source edge before.history)
    (hunlinked : ∀ edge, Acknowledged sha256 source edge after.history →
      Acknowledged sha256 source edge before.history) :
    Listed sha256 source head edges after where
  chain := h.chain_after hstep hG hedges hacknowledged
  nodup := h.nodup
  mem edge := by
    have hmono : before.history ⊆ after.history := fun _ h => hstep.history_mono h
    rw [h.mem]
    constructor
    · rintro ⟨⟨j, hj⟩, hnot⟩
      exact ⟨⟨j, hj.mono hmono⟩, fun hacked => hnot (hunlinked edge hacked)⟩
    · rintro ⟨⟨j, hj⟩, hnot⟩
      exact ⟨⟨j, hlinked j edge hj⟩, fun hacked => hnot (hacked.mono hmono)⟩

variable {record : Record String ArtifactValue}

/-- An edge is linked in front of the list. -/
theorem Listed.link (h : Listed sha256 source head edges before)
    (hevent : event = .effect (.compareAndSwap source revision (.sourceHead false (some edge))
      nowMs expiresAt) (.updated record)) (hmade : Made i edge outputRefId head before.history)
    (hstored : ∃ record, before.state.records.get edge = some record ∧
      record.value = .sourceEdge outputRefId head)
    (hnew : ∀ j source', ¬ Linked j source' edge before.history) :
    Listed sha256 source (some edge) ((edge, outputRefId) :: edges) after := by
  have hmono : before.history ⊆ after.history := fun _ h => hstep.history_mono h
  obtain ⟨⟨uuid, huuid, -⟩, hdecode⟩ := hedges.made i edge outputRefId head hmade
  obtain ⟨_, hstored, hvalue⟩ := hstored
  have hsame : after.state.records.get edge = before.state.records.get edge := by
    rcases edge_cases hstep hG hedges ⟨uuid, huuid⟩ with
      hsame | ⟨_, _, _, _, _, heq, -⟩ | ⟨⟨_, heq⟩, -⟩
    · exact hsame
    · cases hevent.symm.trans heq
    · cases hevent.symm.trans heq
  have hself : Linked i source edge after.history :=
    ⟨revision, nowMs, expiresAt, record, hstep.mem_history.2 (.inl (hevent ▸ rfl))⟩
  have hunlinked : ∀ other, Acknowledged sha256 source other after.history →
      Acknowledged sha256 source other before.history := by
    intro other hother
    rcases acknowledged_after hstep hother with hother | ⟨-, _, _, _, _, _, heq⟩
    · exact hother
    · cases hevent.symm.trans heq
  constructor
  case chain =>
    exact .cons (hsame.trans hstored) (hvalue ▸ hdecode)
      (h.chain_after hstep hG hedges hacknowledged)
  case nodup =>
    refine List.nodup_cons.2 ⟨fun hmem => ?_, h.nodup⟩
    obtain ⟨⟨j, hlinked⟩, -⟩ := (h.mem edge).1 hmem
    exact hnew j source hlinked
  case mem =>
    intro other
    rw [List.map_cons, List.mem_cons, h.mem]
    constructor
    · rintro (rfl | ⟨⟨j, hj⟩, hnot⟩)
      · refine ⟨⟨i, hself⟩, fun hacked => ?_⟩
        obtain ⟨j, hj⟩ := hacknowledged source other (hunlinked other hacked)
        exact hnew j source hj
      · exact ⟨⟨j, hj.mono hmono⟩, fun hacked => hnot (hunlinked other hacked)⟩
    · rintro ⟨⟨j, hj⟩, hnot⟩
      rcases linked_after hstep hj with hj | ⟨-, _, _, _, _, heq⟩
      · exact .inr ⟨⟨j, hj⟩, fun hacked => hnot (hacked.mono hmono)⟩
      · cases hevent.symm.trans heq
        exact .inl rfl

/-- The first edge of the list is unlinked by the call that acknowledges it. -/
theorem Listed.unlink (haccounted : (repository sha256).Accounted after) {edge : String}
    (h : Listed sha256 source (some edge) edges before) {outputRefId : String}
    (hevent : event = .effect (.compareAndSwap source revision (.sourceHead true next) nowMs
      expiresAt) (.updated record))
    (hacknowledges : Acknowledges sha256 i source edge before.history)
    (hread : ReadEdge i edge outputRefId next before.history) :
    (∃ j, Linked j source edge before.history) ∧ ∃ rest, Listed sha256 source next rest after := by
  have hmono : before.history ⊆ after.history := fun _ h => hstep.history_mono h
  obtain ⟨hchain, hnodup, hmem⟩ := h
  cases hchain with
  | @cons _ stored outputRefId' next' rest hget hdecode hrest =>
    obtain ⟨hvalue, -⟩ := decodeEdge_ok hdecode
    obtain ⟨⟨j, hlinked⟩, _⟩ := (hmem edge).1 (List.mem_cons_self ..)
    refine ⟨⟨j, hlinked⟩, rest, ?_⟩
    -- The edge was read as it was made, and so it is still stored.
    obtain rfl : next' = next := by
      obtain ⟨_, _, hmade⟩ := hedges.tried j edge hlinked.tried
      obtain ⟨⟨uuid, huuid, -⟩, -⟩ := hedges.made j edge _ _ hmade
      obtain ⟨found, hfound, hfoundValue, -⟩ := hread
      obtain ⟨_, _, _, heq, hmade⟩ := hedges.read i edge found ⟨uuid, huuid⟩ hfound
      obtain ⟨_, _, _, heq', hmade'⟩ := hedges.stored edge stored ⟨uuid, huuid⟩ hget
      cases hfoundValue.symm.trans heq
      cases hvalue.symm.trans heq'
      exact (hedges.madeOnce _ _ edge _ _ _ _ hmade' hmade).2
    have hnew : Acknowledged sha256 source edge after.history :=
      ⟨i, hacknowledges.mono hmono, revision, next', nowMs, expiresAt, record,
        hstep.mem_history.2 (.inl (hevent ▸ rfl))⟩
    rw [List.map_cons, List.nodup_cons] at hnodup
    refine ⟨hrest.frame fun other hother => ?_, hnodup.2, fun other => ?_⟩
    · obtain ⟨⟨k, hk⟩, hnotOther⟩ := (hmem other).1 (List.mem_cons_of_mem _ hother)
      exact listed_kept hstep hG hedges hacknowledged hk hnotOther
    constructor
    · intro hother
      obtain ⟨⟨k, hk⟩, hnotOther⟩ := (hmem other).1 (List.mem_cons_of_mem _ hother)
      refine ⟨⟨k, hk.mono hmono⟩, fun hacked => ?_⟩
      rcases acknowledged_after hstep hacked with hacked | ⟨hother', -⟩
      · exact hnotOther hacked
      · obtain rfl := Acknowledges.unique haccounted (hacknowledges.mono hmono)
          (hother'.mono hmono)
        exact hnodup.1 hother
    · rintro ⟨⟨k, hk⟩, hnotOther⟩
      rcases linked_after hstep hk with hk | ⟨-, _, _, _, _, heq⟩
      · rcases List.mem_cons.1 ((hmem other).2 ⟨⟨k, hk⟩, fun hacked =>
          hnotOther (hacked.mono hmono)⟩) with rfl | hother
        · exact absurd hnew hnotOther
        · exact hother
      · cases hevent.symm.trans heq

end Listed

/-- One step keeps what holds of an index. -/
theorem index_step (haccounted : (repository sha256).Accounted after)
    (hstep : (repository sha256).Step i event before after)
    (hG : Guarantee sha256 i event before) (hedges : Edges before)
    (hacknowledged : ∀ source edge, Acknowledged sha256 source edge before.history →
      ∃ j, Linked j source edge before.history) {source : String} (hsource : IsSource source)
    (hindex : Index sha256 source before) : Index sha256 source after := by
  have hmono : before.history ⊆ after.history := fun _ h => hstep.history_mono h
  constructor
  case read =>
    intro j record h
    rcases hstep.mem_history.1 h with heq | h
    · obtain ⟨rfl, rfl⟩ := Prod.mk.inj heq
      obtain ⟨hget, hstate⟩ := Step.get_answer hstep
      rw [hstate]
      exact ⟨Store.get_key hget.symm, .of_get hget.symm⟩
    · obtain ⟨rfl, hseen⟩ := hindex.read j record h
      refine ⟨rfl, Step.seen hstep hseen fun revision hevent => ?_⟩
      subst hevent
      exact hsource.ne_edge (hG (hedges.calls i)).1 rfl
  case absent =>
    intro hafter j edge hlinked
    by_cases hswaps : Swaps source event
    · obtain ⟨_, -, ⟨_, _, _, _, _, _, _, _, -, hget, -⟩ | ⟨_, _, _, _, _, _, -, hget, -⟩⟩ :=
        swapping hstep hG hedges hindex hswaps
      · simp [hafter] at hget
      · simp [hafter] at hget
    · obtain ⟨hsame | ⟨hnone, -⟩, hold, -⟩ := unswapped hstep hG hedges hsource hswaps
      · exact hindex.absent (hsame.symm.trans hafter) j edge (hold j edge hlinked)
      · exact hindex.absent hnone j edge (hold j edge hlinked)
  case listed =>
    intro index hget
    by_cases hswaps : Swaps source event
    · obtain ⟨current, hbefore, hcases⟩ := swapping hstep hG hedges hindex hswaps
      obtain ⟨revoked, head, edges, hdecode, hlisted⟩ := hindex.listed current hbefore
      obtain ⟨hvalue, hwell⟩ := decodeHead_ok hdecode
      rcases hcases with ⟨edge, outputRefId, next, index', revision, nowMs, expiresAt, record,
        hevent, hafter, hindexValue, hcurrent, hmade, hstored, hunlinked⟩ |
        ⟨revision, newHead, nowMs, expiresAt, record, index', hevent, hafter, hindexValue, hnew,
          ⟨henumerates, hcurrent⟩ | ⟨edge, outputRefId, hacknowledges, hcurrent, hread⟩⟩
      · obtain rfl := Option.some.inj (hafter.symm.trans hget)
        cases hvalue.symm.trans hcurrent
        obtain ⟨⟨uuid, rfl, huuid⟩, -⟩ := hedges.made i edge outputRefId _ hmade
        refine ⟨false, _, _, ?_, hlisted.link hstep hG hedges hacknowledged hevent hmade hstored
          hunlinked⟩
        rw [hindexValue]
        refine decodeHead_eq ?_ false
        rintro _ ⟨⟩
        exact hedges.asked i uuid huuid
      · obtain rfl := Option.some.inj (hafter.symm.trans hget)
        cases hvalue.symm.trans hcurrent
        refine ⟨true, _, edges, hindexValue ▸ decodeHead_eq hnew true,
          hlisted.keep hstep hG hedges hacknowledged (fun j edge h => ?_) fun edge h => ?_⟩
        · rcases linked_after hstep h with h | ⟨-, _, _, _, _, heq⟩
          · exact h
          · cases hevent.symm.trans heq
        · rcases acknowledged_after hstep h with h | ⟨hacknowledges, -⟩
          · exact h
          · exact absurd (hacknowledges.mono hmono)
              ((henumerates.mono hmono).not_acknowledges haccounted)
      · obtain rfl := Option.some.inj (hafter.symm.trans hget)
        cases hvalue.symm.trans hcurrent
        obtain ⟨-, rest, hrest⟩ := hlisted.unlink hstep hG hedges hacknowledged haccounted hevent
          hacknowledges hread
        exact ⟨true, newHead, rest, hindexValue ▸ decodeHead_eq hnew true, hrest⟩
    · obtain ⟨hsame | ⟨hnone, _, revoked, hafter, hvalue⟩, hlinked, hunlinked⟩ :=
        unswapped hstep hG hedges hsource hswaps
      · obtain ⟨revoked, head, edges, hdecode, hlisted⟩ :=
          hindex.listed index (hsame.symm.trans hget)
        exact ⟨revoked, head, edges, hdecode,
          hlisted.keep hstep hG hedges hacknowledged hlinked hunlinked⟩
      · obtain rfl := Option.some.inj (hafter.symm.trans hget)
        refine ⟨revoked, none, [], hvalue ▸ rfl, .nil, List.nodup_nil, fun edge => ?_⟩
        simp only [List.map_nil, List.not_mem_nil, false_iff, not_and]
        rintro ⟨j, hj⟩
        exact absurd (hlinked j edge hj) (hindex.absent hnone j edge)
  case acknowledged =>
    intro edge h
    rcases acknowledged_after hstep h with h | ⟨hacknowledges, revision, _, nowMs, expiresAt,
      record, hevent⟩
    · obtain ⟨j, hj⟩ := hacknowledged source edge h
      exact ⟨j, hj.mono hmono⟩
    · obtain ⟨current, hbefore, hcases⟩ := swapping hstep hG hedges hindex
        ⟨revision, _, nowMs, expiresAt, record, hevent⟩
      obtain ⟨_, _, _, hdecode, hlisted⟩ := hindex.listed current hbefore
      obtain ⟨hvalue, -⟩ := decodeHead_ok hdecode
      rcases hcases with ⟨_, _, _, _, _, _, _, _, hevent', -⟩ |
        ⟨_, _, _, _, _, _, hevent', -, -, -, ⟨henumerates, -⟩ | ⟨_, _, hedge', hcurrent,
          hread⟩⟩
      · cases hevent.symm.trans hevent'
      · exact absurd (hacknowledges.mono hmono)
          ((henumerates.mono hmono).not_acknowledges haccounted)
      · obtain rfl := Acknowledges.unique haccounted (hedge'.mono hmono) (hacknowledges.mono hmono)
        cases hvalue.symm.trans hcurrent
        obtain ⟨⟨j, hj⟩, -⟩ := hlisted.unlink hstep hG hedges hacknowledged haccounted hevent'
          hedge' hread
        exact ⟨j, hj.mono hmono⟩
  case drained =>
    intro j h
    have hcases : Drained j source before.history ∨ ∃ index,
        after.state.records.get source = some index ∧ index.value = .sourceHead true none := by
      rcases h with ⟨revision, record, h, hrevision, hvalue, hwell⟩ |
        ⟨revision, nowMs, expiresAt, record, h⟩ <;> rcases hstep.mem_history.1 h with heq | h
      · obtain ⟨rfl, rfl⟩ := Prod.mk.inj heq
        obtain ⟨hget, hstate⟩ := Step.get_answer hstep
        exact .inr ⟨record, hstate ▸ hget.symm, hvalue⟩
      · exact .inl (.inl ⟨revision, record, h, hrevision, hvalue, hwell⟩)
      · obtain ⟨rfl, rfl⟩ := Prod.mk.inj heq
        rcases Step.compareAndSwap_answer hstep with ⟨heq, -⟩ | ⟨_, heq, -⟩ | ⟨_, -, -, -, hafter⟩
        · cases heq
        · cases heq
        · exact .inr ⟨_, hafter, rfl⟩
      · exact .inl (.inr ⟨revision, nowMs, expiresAt, record, h⟩)
    rcases hcases with h | h
    · obtain ⟨index, hget, hvalue⟩ := hindex.drained j h
      by_cases hswaps : Swaps source event
      · obtain ⟨_, hbefore, hcases⟩ := swapping hstep hG hedges hindex hswaps
        obtain rfl := Option.some.inj (hbefore.symm.trans hget)
        rcases hcases with ⟨_, _, _, _, _, _, _, _, -, -, -, hcurrent, -⟩ |
          ⟨_, _, _, _, _, _, -, -, -, -, ⟨-, hcurrent⟩ | ⟨_, _, -, hcurrent, -⟩⟩ <;>
          cases hvalue.symm.trans hcurrent
      · obtain ⟨hsame | ⟨hnone, -⟩, -⟩ := unswapped hstep hG hedges hsource hswaps
        · exact ⟨index, hsame.trans hget, hvalue⟩
        · simp [hnone] at hget
    · exact h

end Step

/-! ## Whole runs -/

/-- The lists of all sources are in order, and every reply given was entitled to. -/
structure InOrder (sha256 : Sha256 B) (world : ArtifactWorld B) : Prop where
  edges : Edges world
  index : ∀ source, IsSource source → Index sha256 source world
  answered : ∀ i reply, (i, .response (.ok reply)) ∈ world.history →
    ResponseAllowed sha256 i reply world.history

theorem InOrder.acknowledged {sha256 : Sha256 B} (h : InOrder sha256 world) (source edge : String)
    (hacknowledged : Acknowledged sha256 source edge world.history) :
    ∃ j, Linked j source edge world.history := by
  have ⟨_, ⟨_, _, _, _, hkey⟩, _⟩ := hacknowledged
  exact (h.index source (isSource_of_key hkey)).acknowledged edge hacknowledged

variable [ByteString B]

theorem inOrder_initial (sha256 : Sha256 B) :
    InOrder sha256 (initial : Config (Call B) _ _ _ _ _).toWorld where
  edges := edges_initial
  index source _ :=
    { read := by simp [initial, Config.initial]
      absent := by simp [initial, Config.initial, Linked]
      listed := by simp [initial, Config.initial, Disk.empty]
      acknowledged := by simp [initial, Config.initial, Acknowledged, Unlinked, Acknowledges]
      drained := by simp [initial, Config.initial, Drained, ReadHead] }
  answered := by simp [initial, Config.initial]

variable {sha256 : Sha256 B}

/-- A reply stays entitled to. -/
theorem answered_step {i : Nat} {event : ArtifactEvent B} {before after : ArtifactWorld B}
    (hstep : (repository sha256).Step i event before after) (hG : Guarantee sha256 i event before)
    (h : InOrder sha256 before) {reply : Reply B}
    (hreply : (j, .response (.ok reply)) ∈ after.history) :
    ResponseAllowed sha256 j reply after.history := by
  have hmono : before.history ⊆ after.history := fun _ h => hstep.history_mono h
  have hcall : ∀ call, (j, .invoke call) ∈ after.history → (j, .invoke call) ∈ before.history := by
    intro call hcall
    rcases hstep.mem_history.1 hcall with heq | hcall
    · obtain ⟨rfl, rfl⟩ := Prod.mk.inj heq
      rcases hstep.mem_history.1 hreply with heq | hreply
      · cases heq
      · exact absurd hreply (hstep.fresh call rfl _)
    · exact hcall
  have hallowed : ResponseAllowed sha256 j reply before.history := by
    rcases hstep.mem_history.1 hreply with heq | hreply
    · obtain ⟨rfl, rfl⟩ := Prod.mk.inj heq
      exact hG (h.edges.calls j)
    · exact h.answered j reply hreply
  cases reply with
  | nothing =>
    intro refId outputRefId caller nowMs hinvoke
    obtain ⟨source, edge, hkey, hregistered⟩ :=
      hallowed refId outputRefId caller nowMs (hcall _ hinvoke)
    exact ⟨source, edge, hkey, hregistered.mono hmono⟩
  | edge edge =>
    cases edge with
    | none =>
      intro refId caller nowMs hinvoke
      obtain ⟨source, hkey, hdrained⟩ := hallowed refId caller nowMs (hcall _ hinvoke)
      exact ⟨source, hkey, hdrained.mono hmono⟩
    | some edge => trivial
  | _ => trivial

theorem inOrder_step {i : Nat} {event : ArtifactEvent B} {before after : ArtifactWorld B}
    (haccounted : (repository sha256).Accounted after)
    (hstep : (repository sha256).Step i event before after)
    (hG : Guarantee sha256 i event before)
    (hmeets : (sourceCalls i event before && freshUUID i event before) = true)
    (h : InOrder sha256 before) : InOrder sha256 after := by
  rw [Bool.and_eq_true] at hmeets
  exact ⟨edges_step hstep hG hmeets.1 hmeets.2 h.edges h.acknowledged, fun source hsource =>
    index_step haccounted hstep hG h.edges h.acknowledged hsource (h.index source hsource),
    fun _ _ => answered_step hstep hG h⟩

theorem ready (sha256 : Sha256 B) :
    Ready (repository sha256) (Guarantee sha256) (fun _ => True) initial :=
  ready_initial trivial

/-- The runs of calls about external sources. -/
def SourceRun (sha256 : Sha256 B) (config : Config (Call B) (Op ArtifactValue B Request)
    (Op.Res Answer) Fault (Reply B) (Disk ArtifactValue B))
    (actions : List (Action (Call B) (Oracle Answer))) : Prop :=
  (repository sha256).Meets
    (fun i event world => (sourceCalls i event world && freshUUID i event world) = true)
    config actions

theorem inOrder_run {actions : List (Action (Call B) (Oracle Answer))}
    (hrun : SourceRun sha256 initial actions) :
    InOrder sha256 ((repository sha256).run initial actions).toWorld :=
  (ready sha256).preserves (verified sha256) hrun
    (fun _ _ _ _ _ haccounted hstep hG hmeets h => inOrder_step haccounted hstep hG hmeets h)
    (inOrder_initial sha256)

/-- One step keeps a revoked source revoked and links nothing to it. -/
theorem revoked_step {i : Nat} {event : ArtifactEvent B} {before after : ArtifactWorld B}
    (hstep : (repository sha256).Step i event before after)
    (hG : Guarantee sha256 i event before) (h : InOrder sha256 before) {source : String}
    (hsource : IsSource source) (hrevoked : Revoked before.state.records source) :
    Revoked after.state.records source ∧
      ∀ j edge, Linked j source edge after.history → Linked j source edge before.history := by
  have hindex := h.index source hsource
  obtain ⟨index, head, hget, hdecode⟩ := hrevoked
  obtain ⟨hvalue, -⟩ := decodeHead_ok hdecode
  by_cases hswaps : Swaps source event
  · obtain ⟨_, hbefore, hcases⟩ := swapping hstep hG h.edges hindex hswaps
    obtain rfl := Option.some.inj (hbefore.symm.trans hget)
    rcases hcases with ⟨_, _, _, _, _, _, _, _, -, -, -, hcurrent, -⟩ |
      ⟨_, newHead, _, _, _, index', hevent, hafter, hindexValue, hnew, -⟩
    · cases hvalue.symm.trans hcurrent
    · refine ⟨⟨index', newHead, hafter, hindexValue ▸ decodeHead_eq hnew true⟩, ?_⟩
      intro j edge hlinked
      rcases linked_after hstep hlinked with hlinked | ⟨-, _, _, _, _, heq⟩
      · exact hlinked
      · cases hevent.symm.trans heq
  · obtain ⟨hsame | ⟨hnone, -⟩, hlinked, -⟩ := unswapped hstep hG h.edges hsource hswaps
    · exact ⟨⟨index, head, hsame.trans hget, hdecode⟩, hlinked⟩
    · simp [hnone] at hget

omit [ByteString B] in
/-- A registered output is on the list of its source until it is acknowledged. -/
theorem InOrder.enumerable (h : InOrder sha256 world) {i : Nat} {source edge outputRefId : String}
    (hsource : IsSource source) (hregistered : Registered i source edge outputRefId world.history) :
    Enumerable world.state.records source edge outputRefId ∨
      Acknowledged sha256 source edge world.history := by
  have hindex := h.index source hsource
  obtain ⟨⟨_, hmade⟩, hlinked⟩ := hregistered
  by_cases hacknowledged : Acknowledged sha256 source edge world.history
  · exact .inr hacknowledged
  · left
    cases hget : world.state.records.get source with
    | none => exact absurd hlinked (hindex.absent hget i edge)
    | some index =>
      obtain ⟨revoked, head, edges, hdecode, hlisted⟩ := hindex.listed index hget
      obtain ⟨⟨_, _⟩, hmem, rfl⟩ :=
        List.mem_map.1 ((hlisted.mem edge).2 ⟨⟨i, hlinked⟩, hacknowledged⟩)
      -- The output under which the edge is listed is the one it was made for.
      obtain ⟨record, _, hstored, hedge⟩ := hlisted.chain.stored hmem
      obtain ⟨⟨uuid, huuid, -⟩, -⟩ := h.edges.made i _ _ _ hmade
      obtain ⟨j, _, _, hvalue, hmade'⟩ := h.edges.stored _ record ⟨uuid, huuid⟩ hstored
      cases (decodeEdge_ok hedge).1.symm.trans hvalue
      obtain ⟨rfl, -⟩ := h.edges.madeOnce i j _ _ _ _ _ hmade hmade'
      exact ⟨index, revoked, head, edges, hget, hdecode, hlisted.chain, hmem⟩

omit [ByteString B] in
/-- When the list of a revoked source has been found empty, all its edges were acknowledged. -/
theorem InOrder.drained (h : InOrder sha256 world) {i j : Nat} {source edge : String}
    (hsource : IsSource source) (hdrained : Drained i source world.history)
    (hlinked : Linked j source edge world.history) :
    Acknowledged sha256 source edge world.history := by
  have hindex := h.index source hsource
  obtain ⟨index, hget, hvalue⟩ := hindex.drained i hdrained
  obtain ⟨_, _, _, hdecode, hlisted⟩ := hindex.listed index hget
  cases hvalue.symm.trans (decodeHead_ok hdecode).1
  by_contra hnot
  have hmem := (hlisted.mem edge).2 ⟨⟨j, hlinked⟩, hnot⟩
  cases hlisted.chain with
  | nil => simp at hmem

/-- In every run of calls about external sources, for every source: a registration that has
returned has linked an edge for its output; a registered output is found by following the list
from the stored index, or it has been acknowledged; once the source is revoked it stays revoked
and no further edge is linked; and when there is no next output, all of them have been
acknowledged. -/
theorem registrations_enumerated (sha256 : Sha256 B)
    (actions later : List (Action (Call B) (Oracle Answer)))
    (hrun : SourceRun sha256 initial (actions ++ later))
    (refId source : String) (caller : DurableArtifactCaller)
    (hkey : externalSourceKey sha256 refId caller = .ok source) :
    let before := (repository sha256).run initial actions
    let after := (repository sha256).run initial (actions ++ later)
    (∀ i outputRefId nowMs,
      (i, .invoke (.registerExternalOutput refId outputRefId caller nowMs)) ∈ after.history →
      (i, .response (.ok .nothing)) ∈ after.history →
      ∃ edge, Registered i source edge outputRefId after.history) ∧
    (∀ i edge outputRefId, Registered i source edge outputRefId after.history →
      Enumerable after.state.records source edge outputRefId ∨
        Acknowledged sha256 source edge after.history) ∧
    (Revoked before.state.records source → Revoked after.state.records source ∧
      ∀ i edge, Linked i source edge after.history → Linked i source edge before.history) ∧
    ∀ i nowMs,
      (i, .invoke (.nextRevokedExternalOutput refId caller nowMs)) ∈ after.history →
      (i, .response (.ok (.edge none))) ∈ after.history →
      ∀ j edge, Linked j source edge after.history →
        Acknowledged sha256 source edge after.history := by
  intro before after
  have hsource := isSource_of_key hkey
  have horder : InOrder sha256 after.toWorld := inOrder_run hrun
  refine ⟨?_, fun i edge outputRefId h => horder.enumerable hsource h, ?_, ?_⟩
  · intro i outputRefId nowMs hcall hreturn
    obtain ⟨source', edge, hkey', hregistered⟩ :=
      horder.answered i _ hreturn refId outputRefId caller nowMs hcall
    obtain rfl := Except.ok.inj (hkey.symm.trans hkey')
    exact ⟨edge, hregistered⟩
  · intro hrevoked
    obtain ⟨hfirst, hsecond⟩ := System.meets_append.1 hrun
    have hlater : InOrder sha256 after.toWorld ∧ Revoked after.state.records source ∧
        ∀ i edge, Linked i source edge after.history → Linked i source edge before.history := by
      have hsplit : after = (repository sha256).run before later := System.run_append ..
      rw [hsplit]
      refine ((ready sha256).run (verified sha256) actions).preserves (verified sha256) hsecond
        (P := fun world => InOrder sha256 world ∧ Revoked world.state.records source ∧
          ∀ i edge, Linked i source edge world.history → Linked i source edge before.history)
        ?_ ⟨inOrder_run hfirst, hrevoked, fun _ _ h => h⟩
      rintro i event now next - haccounted hstep hG hmeets ⟨h, hrevoked, hlinked⟩
      obtain ⟨hrevoked, hold⟩ := revoked_step hstep hG h hsource hrevoked
      exact ⟨inOrder_step haccounted hstep hG hmeets h, hrevoked,
        fun j edge hj => hlinked j edge (hold j edge hj)⟩
    exact hlater.2
  · intro i nowMs hcall hreturn j edge hlinked
    obtain ⟨source', hkey', hdrained⟩ := horder.answered i _ hreturn refId caller nowMs hcall
    obtain rfl := Except.ok.inj (hkey.symm.trans hkey')
    exact horder.drained hsource hdrained hlinked

/-! ### A sample run -/

/-- The digests that the sample needs. -/
def sourceDigests : DigestTable where
  entries := [
    ("b", "3e23e8160039594a33894f6564e1b1348bbd7a0088d42c4acb73eeaed59c009d"),
    ("[\"t\",\"o\",\"3e23e8160039594a33894f6564e1b1348bbd7a0088d42c4acb73eeaed59c009d\",\"r\"]",
      "07114a43009d78fc521a40ec59f89c9cedf7d53f508751bca0fcfa60a657d7a6")]
  hex := by decide +kernel
  nodup := by decide +kernel

/-- Call `i` takes `count` steps and is given this id. -/
def sourceSteps (i count : Nat) : List (Action (Call String) (Oracle Answer)) :=
  .replicate count (.advance i ⟨fun | .randomUUID => "00000000-0000-4000-8000-000000000000", true⟩)

/-- An output is registered. -/
def sampleRegistration : List (Action (Call String) (Oracle Answer)) :=
  .invoke (.registerExternalOutput "r" "out" sampleCaller 1000) :: sourceSteps 0 6

/-- The source is revoked, and the next output is asked for. -/
def sampleRevocation : List (Action (Call String) (Oracle Answer)) :=
  .invoke (.nextRevokedExternalOutput "r" sampleCaller 2000) :: sourceSteps 1 5

/-- An output is registered, the source is revoked, and the output is on its list. -/
theorem registrations_enumerated_sample :
    ∃ source edge, Enumerable ((repository sourceDigests.sha256).run initial
        (sampleRegistration ++ sampleRevocation)).state.records source edge "out" ∨
      Acknowledged sourceDigests.sha256 source edge ((repository sourceDigests.sha256).run initial
        (sampleRegistration ++ sampleRevocation)).history := by
  have hrun : ((repository sourceDigests.sha256).checks
        (fun i event world => sourceCalls i event world && freshUUID i event world) initial
        (sampleRegistration ++ sampleRevocation) &&
      System.called 0 (.registerExternalOutput "r" "out" sampleCaller 1000)
        ((repository sourceDigests.sha256).run initial
          (sampleRegistration ++ sampleRevocation)).history &&
      System.returned 0 .nothing ((repository sourceDigests.sha256).run initial
        (sampleRegistration ++ sampleRevocation)).history &&
      (externalSourceKey sourceDigests.sha256 "r" sampleCaller).toBool) = true := by
    decide +kernel
  simp only [Bool.and_eq_true] at hrun
  obtain ⟨⟨⟨hchecks, hcall⟩, hreturn⟩, hkey⟩ := hrun
  cases hsource : externalSourceKey sourceDigests.sha256 "r" sampleCaller with
  | error error => simp [hsource, Except.toBool] at hkey
  | ok source =>
      obtain ⟨hreturned, henumerable, -⟩ := registrations_enumerated sourceDigests.sha256
        sampleRegistration sampleRevocation (System.meets_of_checks hchecks) "r" source sampleCaller
        hsource
      obtain ⟨edge, hregistered⟩ := hreturned 0 "out" 1000 (System.mem_of_called hcall)
        (System.mem_of_returned hreturn)
      exact ⟨source, edge, henumerable 0 edge "out" hregistered⟩

end Groundlane.Artifacts.Sources
