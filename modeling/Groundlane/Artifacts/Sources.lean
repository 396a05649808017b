import Groundlane.Artifacts.Guarantee

/-!
# What the calls about external sources promise

The outputs derived from an external source form a linked list: an index record points to the
first edge, and each edge names an output and points to the next edge. `Guarantee` says under
which circumstances a call about external sources touches these records, in terms of what it has
done before: an edge is created under a random key that the call has just been given, linked
right after its creation into the index that the call has read, and deleted either right after
linking it has failed or once the call has unlinked it.

`verified` shows that every such call keeps the guarantee. Of the other calls of the repository
it says nothing.
-/

namespace Groundlane.Artifacts.Sources

open Fenced Interleaving Interleaving.System

variable {B : Type}

/-! ## Keys -/

/-- The key is that of the index of an external source. -/
def IsSource (key : String) : Prop := ∃ digest, key = "output-source:" ++ digest

/-- The key is that of an edge. -/
def IsEdge (key : String) : Prop := ∃ uuid, key = "output-edge:" ++ uuid

theorem IsSource.ne_edge {source edge : String} (h : IsSource source) (hedge : IsEdge edge) :
    source ≠ edge := by
  obtain ⟨digest, rfl⟩ := h
  obtain ⟨uuid, rfl⟩ := hedge
  exact append_ne_append (by decide) digest uuid

theorem isEdge_of_pointer {pointer : String} (h : isEdgePointer pointer = true) :
    IsEdge pointer := by
  simp only [isEdgePointer, Bool.and_eq_true] at h
  obtain ⟨rest, hrest⟩ := List.isPrefixOf_iff_prefix.1 h.1.1
  exact ⟨String.ofList rest, String.toList_inj.1 (hrest.symm.trans (by simp))⟩

variable {value : ArtifactValue} {outputRefId : String} {caller : DurableArtifactCaller}
  {revision : Nat}

theorem isSource_of_key {sha256 : Sha256 B} {refId source : String}
    (h : externalSourceKey sha256 refId caller = .ok source) : IsSource source := by
  simp only [externalSourceKey, bind, Except.bind, pure, Except.pure] at h
  split at h
  · cases h
  · split at h
    · cases h
    · split at h
      · cases h
      · exact ⟨_, (Except.ok.inj h).symm⟩

/-- The pointer, if there is one, is well formed. -/
def WellFormed (pointer : Option String) : Prop :=
  ∀ edge, pointer = some edge → isEdgePointer edge = true

theorem decodeHead_ok {state : Bool × Option String} (h : decodeOutputSourceHead value = .ok state) :
    value = .sourceHead state.1 state.2 ∧ WellFormed state.2 := by
  refine ⟨?_, decodeOutputSourceHead_ok h⟩
  unfold decodeOutputSourceHead at h
  split at h
  · split at h
    · cases h
    · obtain rfl := Except.ok.inj h
      rfl
  · cases h
  · cases h

variable {head : Option String} {next : Option String}

theorem decodeHead_eq (h : WellFormed head) (revoked : Bool) :
    decodeOutputSourceHead (.sourceHead revoked head) = .ok (revoked, head) := by
  have hhead : (head.any fun pointer => !isEdgePointer pointer) = false := by
    cases head with
    | none => rfl
    | some edge => simp [h edge rfl]
  simp [decodeOutputSourceHead, hhead]

theorem decodeEdge_ok {edge : String × Option String} (h : decodeOutputSourceEdge value = .ok edge) :
    value = .sourceEdge edge.1 edge.2 ∧ WellFormed edge.2 := by
  unfold decodeOutputSourceEdge at h
  split at h
  · rename_i outputRefId next
    split at h
    · cases h
    · rename_i hpointer
      simp only [bind, Except.bind, pure, Except.pure] at h
      split at h
      · cases h
      · obtain rfl := Except.ok.inj h
        refine ⟨rfl, ?_⟩
        rintro edge hedge
        obtain rfl : next = some edge := hedge
        simpa using hpointer
  · cases h
  · cases h

theorem decodeEdge_eq (h : WellFormed next) (houtput : assertRefId outputRefId = .ok ()) :
    decodeOutputSourceEdge (.sourceEdge outputRefId next) = .ok (outputRefId, next) := by
  have hnext : (next.any fun pointer => !isEdgePointer pointer) = false := by
    cases next with
    | none => rfl
    | some edge => simp [h edge rfl]
  simp [decodeOutputSourceEdge, hnext, houtput, bind, Except.bind, pure, Except.pure]

/-! ## What a call has done -/

/-- The methods about external sources. -/
def onSource : Call B → Bool
  | .isExternalSourceRevoked .. | .registerExternalOutput .. | .nextRevokedExternalOutput ..
  | .acknowledgeRevokedExternalOutput .. => true
  | _ => false

/-- Call `i` has read the index of a source. -/
def ReadHead (i : Nat) (source : String) (revision : Nat) (revoked : Bool) (head : Option String)
    (history : ArtifactHistory B) : Prop :=
  ∃ record, (i, .effect (.get source) (some record)) ∈ history ∧ record.revision = revision ∧
    record.value = .sourceHead revoked head ∧ WellFormed head

/-- Call `i` has read an edge. -/
def ReadEdge (i : Nat) (edge outputRefId : String) (next : Option String)
    (history : ArtifactHistory B) : Prop :=
  ∃ record, (i, .effect (.get edge) (some record)) ∈ history ∧
    record.value = .sourceEdge outputRefId next ∧ WellFormed next

/-- Call `i` has made an edge. -/
def Made (i : Nat) (edge outputRefId : String) (next : Option String)
    (history : ArtifactHistory B) : Prop :=
  ∃ nowMs expiresAt answer, (i, .effect (.createIfAbsent edge (.sourceEdge outputRefId next) nowMs
    expiresAt) answer) ∈ history

/-- Call `i` has linked an edge into the list of a source. -/
def Linked (i : Nat) (source edge : String) (history : ArtifactHistory B) : Prop :=
  ∃ revision nowMs expiresAt record, (i, .effect (.compareAndSwap source revision
    (.sourceHead false (some edge)) nowMs expiresAt) (.updated record)) ∈ history

/-- Call `i` has registered an output with a source. -/
def Registered (i : Nat) (source edge outputRefId : String) (history : ArtifactHistory B) : Prop :=
  (∃ next, Made i edge outputRefId next history) ∧ Linked i source edge history

section Calls

variable (sha256 : Sha256 B)

/-- Call `i` acknowledges an edge of a source. -/
def Acknowledges (i : Nat) (source edge : String) (history : ArtifactHistory B) : Prop :=
  ∃ refId caller nowMs,
    (i, .invoke (.acknowledgeRevokedExternalOutput refId caller edge nowMs)) ∈ history ∧
      externalSourceKey sha256 refId caller = .ok source

/-- Call `i` has taken an edge that it acknowledges off the list of its source. -/
def Unlinked (i : Nat) (source edge : String) (history : ArtifactHistory B) : Prop :=
  Acknowledges sha256 i source edge history ∧ ∃ revision next nowMs expiresAt record,
    (i, .effect (.compareAndSwap source revision (.sourceHead true next) nowMs expiresAt)
      (.updated record)) ∈ history

/-- An edge has been acknowledged. -/
def Acknowledged (source edge : String) (history : ArtifactHistory B) : Prop :=
  ∃ i, Unlinked sha256 i source edge history

end Calls

/-- Call `i` asks for the next output derived from a revoked source. -/
def Enumerates (i : Nat) (history : ArtifactHistory B) : Prop :=
  ∃ refId caller nowMs, (i, .invoke (.nextRevokedExternalOutput refId caller nowMs)) ∈ history

/-- Call `i` has found the list of a revoked source empty. -/
def Drained (i : Nat) (source : String) (history : ArtifactHistory B) : Prop :=
  (∃ revision, ReadHead i source revision true none history) ∨
    ∃ revision nowMs expiresAt record, (i, .effect (.compareAndSwap source revision
      (.sourceHead true none) nowMs expiresAt) (.updated record)) ∈ history

/-! ## The guarantee -/

/-- What call `i` creates, and where. -/
def CreateAllowed (i : Nat) (key : String) (value : ArtifactValue)
    (history : ArtifactHistory B) : Prop :=
  match value with
  | .metadata _ => False
  | .sourceHead _ head => IsSource key ∧ head = none
  | .sourceEdge outputRefId next =>
    (∃ uuid, key = "output-edge:" ++ uuid ∧
      Latest i (.effect (.port .randomUUID) uuid) history) ∧
    decodeOutputSourceEdge (.sourceEdge outputRefId next) = .ok (outputRefId, next)

section Guarantee

variable (sha256 : Sha256 B)

/-- What call `i` swaps in: it links an edge, marks the source revoked or unlinks an edge. -/
def SwapAllowed (i : Nat) (key : String) (revision : Nat) (value : ArtifactValue)
    (history : ArtifactHistory B) : Prop :=
  IsSource key ∧
    match value with
    | .sourceHead false head => ∃ edge outputRefId next nowMs expiresAt answer, head = some edge ∧
      IsEdge edge ∧ ReadHead i key revision false next history ∧
      Latest i (.effect (.createIfAbsent edge (.sourceEdge outputRefId next) nowMs expiresAt)
        answer) history
    | .sourceHead true head =>
      (Enumerates i history ∧ ReadHead i key revision false head history) ∨
      ∃ edge outputRefId, Acknowledges sha256 i key edge history ∧
        ReadHead i key revision true (some edge) history ∧
        ReadEdge i edge outputRefId head history
    | .metadata _ | .sourceEdge .. => False

/-- What call `i` deletes. -/
def DeleteAllowed (i : Nat) (key : String) (history : ArtifactHistory B) : Prop :=
  IsEdge key ∧
    ((∃ source revision nowMs expiresAt answer,
      Latest i (.effect (.compareAndSwap source revision (.sourceHead false (some key)) nowMs
        expiresAt) answer) history ∧ ∀ record, answer ≠ .updated record) ∨
    ∃ source, Unlinked sha256 i source key history)

/-- What entitles call `i` to respond. -/
def ResponseAllowed (i : Nat) (reply : Reply B) (history : ArtifactHistory B) : Prop :=
  match reply with
  | .nothing => ∀ refId outputRefId caller nowMs,
    (i, .invoke (.registerExternalOutput refId outputRefId caller nowMs)) ∈ history →
    ∃ source edge, externalSourceKey sha256 refId caller = .ok source ∧
      Registered i source edge outputRefId history
  | .edge none => ∀ refId caller nowMs,
    (i, .invoke (.nextRevokedExternalOutput refId caller nowMs)) ∈ history →
    ∃ source, externalSourceKey sha256 refId caller = .ok source ∧ Drained i source history
  | _ => True

/-- The circumstances of every event of a call about external sources. -/
def Guarantee (i : Nat) (event : ArtifactEvent B) (world : ArtifactWorld B) : Prop :=
  (∀ call, (i, .invoke call) ∈ world.history → onSource call = true) →
    match event with
    | .effect (.createIfAbsent key value _ _) _ => CreateAllowed i key value world.history
    | .effect (.compareAndSwap key revision value _ _) _ =>
      SwapAllowed sha256 i key revision value world.history
    | .effect (.deleteIfRevision key _) _ => DeleteAllowed sha256 i key world.history
    | .response (.ok reply) => ResponseAllowed sha256 i reply world.history
    | _ => True

end Guarantee

/-! ### Monotonicity -/

section Monotone

variable {i : Nat} {history later : ArtifactHistory B} {source edge : String}

theorem ReadHead.mono (hsub : history ⊆ later) {revoked : Bool}
    (h : ReadHead i source revision revoked head history) :
    ReadHead i source revision revoked head later := by
  obtain ⟨record, h, hrest⟩ := h
  exact ⟨record, hsub h, hrest⟩

theorem Made.mono (hsub : history ⊆ later) (h : Made i edge outputRefId next history) :
    Made i edge outputRefId next later := by
  obtain ⟨nowMs, expiresAt, answer, h⟩ := h
  exact ⟨nowMs, expiresAt, answer, hsub h⟩

theorem Linked.mono (hsub : history ⊆ later) (h : Linked i source edge history) :
    Linked i source edge later := by
  obtain ⟨revision, nowMs, expiresAt, record, h⟩ := h
  exact ⟨revision, nowMs, expiresAt, record, hsub h⟩

theorem Registered.mono (hsub : history ⊆ later) (h : Registered i source edge outputRefId history) :
    Registered i source edge outputRefId later := by
  obtain ⟨⟨next, hmade⟩, hlinked⟩ := h
  exact ⟨⟨next, hmade.mono hsub⟩, hlinked.mono hsub⟩

variable {sha256 : Sha256 B}

theorem Acknowledges.mono (hsub : history ⊆ later) (h : Acknowledges sha256 i source edge history) :
    Acknowledges sha256 i source edge later := by
  obtain ⟨refId, caller, nowMs, h, hkey⟩ := h
  exact ⟨refId, caller, nowMs, hsub h, hkey⟩

theorem Unlinked.mono (hsub : history ⊆ later) (h : Unlinked sha256 i source edge history) :
    Unlinked sha256 i source edge later := by
  obtain ⟨hacknowledges, revision, next, nowMs, expiresAt, record, h⟩ := h
  exact ⟨hacknowledges.mono hsub, revision, next, nowMs, expiresAt, record, hsub h⟩

theorem Acknowledged.mono (hsub : history ⊆ later) (h : Acknowledged sha256 source edge history) :
    Acknowledged sha256 source edge later := by
  obtain ⟨i, h⟩ := h
  exact ⟨i, h.mono hsub⟩

theorem Enumerates.mono (hsub : history ⊆ later) (h : Enumerates i history) :
    Enumerates i later := by
  obtain ⟨refId, caller, nowMs, h⟩ := h
  exact ⟨refId, caller, nowMs, hsub h⟩

theorem Drained.mono (hsub : history ⊆ later) (h : Drained i source history) :
    Drained i source later := by
  rcases h with ⟨revision, h⟩ | ⟨revision, nowMs, expiresAt, record, h⟩
  · exact .inl ⟨revision, h.mono hsub⟩
  · exact .inr ⟨revision, nowMs, expiresAt, record, hsub h⟩

end Monotone

/-! ## Every call keeps the guarantee -/

section Verified

variable [ByteString B] {sha256 : Sha256 B} {i : Nat} {world : ArtifactWorld B}

/-- The program keeps the guarantee as a part of call `i`, and `Q` holds of what it returns. -/
abbrev SourceSafe {α : Type} (sha256 : Sha256 B) (i : Nat) (Q : α → ArtifactWorld B → Prop)
    (program : ArtifactIo B α) (world : ArtifactWorld B) : Prop :=
  Safe (repository sha256) (Guarantee sha256) (Rely (repository sha256) (Guarantee sha256) i) i
    (Returning Q) program world

/-- The history grows. -/
theorem grows {now : ArtifactWorld B}
    (h : Evolves (repository sha256) (Guarantee sha256) world now) :
    world.history ⊆ now.history :=
  fun entry hentry => (persistent_mem_history entry).evolves h hentry

/-- The rule of sequence, at the types of the repository. -/
theorem SourceSafe.andThen {α β : Type} {middle : α → ArtifactWorld B → Prop}
    {Q : β → ArtifactWorld B → Prop} {program : ArtifactIo B α} {rest : α → ArtifactIo B β}
    (h : SourceSafe sha256 i middle program world)
    (hrest : ∀ value now, world.history ⊆ now.history → middle value now →
      SourceSafe sha256 i Q (rest value) now) :
    SourceSafe sha256 i Q (program.bind rest) world :=
  Safe.andThen (fun _ _ h => h.evolves) h fun value now hnow => hrest value now (grows hnow)

/-- An operation is what its call has done last. -/
theorem SourceSafe.did {op : Op ArtifactValue B Request}
    {program : ArtifactIo B (op.Res Answer)}
    (h : SourceSafe sha256 i (Performed (repository sha256) (Guarantee sha256)
      (Rely (repository sha256) (Guarantee sha256) i) i world op) program world) :
    SourceSafe sha256 i (fun answer now => Latest i (.effect op answer) now.history) program
      world :=
  h.mono fun _ _ hpost value hvalue => (hpost value hvalue).latest

variable {α : Type} {program : ArtifactIo B α} {expiresAt : Option Int}

theorem SourceSafe.weaken {Q Q' : α → ArtifactWorld B → Prop}
    (h : SourceSafe sha256 i Q program world) (hQ : ∀ value now, Q value now → Q' value now) :
    SourceSafe sha256 i Q' program world :=
  h.mono fun _ now hpost value hvalue => hQ value now (hpost value hvalue)

theorem get_safe (key : String) :
    SourceSafe sha256 i (fun answer now => Latest i (.effect (.get key) answer) now.history)
      (get key) world :=
  SourceSafe.did (Safe.get fun _ _ _ => trivial)

variable {nowMs : Int} {source : String} {key : String}

theorem create_safe (h : ∀ now, Rely (repository sha256) (Guarantee sha256) i world now →
      CreateAllowed i key value now.history) : SourceSafe sha256 i (fun answer now => Latest i
        (.effect (.createIfAbsent key value nowMs expiresAt) answer) now.history)
      (createIfAbsent key value nowMs expiresAt) world :=
  SourceSafe.did (Safe.createIfAbsent fun now _ hnow _ _ => h now hnow)

theorem swap_safe (h : ∀ now, Rely (repository sha256) (Guarantee sha256) i world now →
      SwapAllowed sha256 i key revision value now.history) :
    SourceSafe sha256 i (fun answer now => Latest i
        (.effect (.compareAndSwap key revision value nowMs expiresAt) answer) now.history)
      (compareAndSwap key revision value nowMs expiresAt) world :=
  SourceSafe.did (Safe.compareAndSwap fun now _ hnow _ _ => h now hnow)

theorem delete_safe (h : ∀ now, Rely (repository sha256) (Guarantee sha256) i world now →
      DeleteAllowed sha256 i key now.history) :
    SourceSafe sha256 i (fun _ _ => True) (deleteIfRevision key revision) world :=
  Safe.mono (fun _ _ _ _ _ => trivial) (Safe.deleteIfRevision fun now _ hnow _ => h now hnow)

theorem isExternalSourceRevoked_safe (refId : String) (caller : DurableArtifactCaller) :
    SourceSafe sha256 i (fun _ _ => True) (isExternalSourceRevoked sha256 refId caller)
      world := by
  refine Safe.check fun key _ => (get_safe key).andThen fun current now _ _ => ?_
  cases current with
  | none => exact Safe.done trivial
  | some current => exact Safe.check fun state _ => Safe.done trivial

/-- A registration that has returned has made its edge and linked it. -/
theorem registerEdge_safe (hsource : IsSource source) (houtput : assertRefId outputRefId = .ok ())
    (nowMs : Int) (attempts : Nat) : ∀ world : ArtifactWorld B, SourceSafe sha256 i
      (fun _ now => ∃ edge, Registered i source edge outputRefId now.history)
      (registerEdge source outputRefId nowMs attempts) world := by
  induction attempts with
  | zero => exact fun _ => Safe.raise
  | succ attempts ih =>
    intro world
    refine (get_safe source).andThen fun current first _ hcurrent => ?_
    cases current with
    | none => exact Safe.raise
    | some current =>
      refine Safe.check fun state hstate => ?_
      obtain ⟨hvalue, hwell⟩ := decodeHead_ok hstate
      split
      · exact Safe.raise
      · rename_i hrevoked
        rw [Bool.not_eq_true] at hrevoked
        have hread : ReadHead i source current.revision false state.2 first.history :=
          ⟨current, hcurrent.mem, rfl, by rw [hvalue, hrevoked], hwell⟩
        refine (SourceSafe.did (Safe.ask fun _ _ _ _ => trivial)).andThen
          fun uuid second hsecond huuid => ?_
        extract_lets edgeKey
        have hedge : IsEdge edgeKey := ⟨uuid, rfl⟩
        refine SourceSafe.andThen (create_safe fun now hnow => ?_)
          fun created third hthird hcreated => ?_
        · exact ⟨⟨uuid, rfl, hnow.latest huuid⟩, decodeEdge_eq hwell houtput⟩
        have hread := hread.mono (List.Subset.trans hsecond hthird)
        refine SourceSafe.andThen (swap_safe fun now hnow => ?_)
          fun result fourth hfourth hresult => ?_
        · exact ⟨hsource, edgeKey, outputRefId, state.2, nowMs, none, created, rfl, hedge,
            hread.mono (grows hnow.evolves), hnow.latest hcreated⟩
        cases result with
        | updated record =>
          exact Safe.done ⟨edgeKey, ⟨state.2, nowMs, none, created, hfourth hcreated.mem⟩,
            current.revision, nowMs, none, record, hresult.mem⟩
        | _ =>
          refine SourceSafe.andThen (delete_safe fun now hnow => ?_) fun _ _ _ _ => ih _
          exact ⟨hedge, .inl ⟨source, _, nowMs, none, _, hnow.latest hresult, by simp⟩⟩

theorem createHead_safe (hsource : IsSource source) (revoked : Bool) (nowMs : Int) :
    SourceSafe sha256 i (fun _ _ => True)
      (createIfAbsent source (ArtifactValue.sourceHead revoked none) nowMs none) world := by
  refine (create_safe fun now _ => ?_).weaken fun _ _ _ => trivial
  exact ⟨hsource, rfl⟩

theorem registerExternalOutput_safe (refId outputRefId : String) (caller : DurableArtifactCaller)
    (nowMs : Int) :
    SourceSafe sha256 i (fun _ now => ∃ source edge,
        externalSourceKey sha256 refId caller = .ok source ∧
          Registered i source edge outputRefId now.history)
      (registerExternalOutput sha256 refId outputRefId caller nowMs) world := by
  refine Safe.check fun _ (houtput : assertRefId outputRefId = .ok ()) => ?_
  refine Safe.check fun source hkey => ?_
  have hsource := isSource_of_key hkey
  refine (createHead_safe hsource false nowMs).andThen fun _ now _ _ => ?_
  exact (registerEdge_safe hsource houtput nowMs 16 now).weaken
    fun _ _ ⟨edge, h⟩ => ⟨source, edge, hkey, h⟩

/-- Whoever finds no next output has found the list empty. -/
theorem revokeSource_safe (hsource : IsSource source) (nowMs : Int) (attempts : Nat) :
    ∀ world : ArtifactWorld B, Enumerates i world.history → SourceSafe sha256 i
      (fun edge now => edge = none → Drained i source now.history)
      (revokeSource source nowMs attempts) world := by
  induction attempts with
  | zero => exact fun _ _ => Safe.raise
  | succ attempts ih =>
    intro world henumerates
    refine (get_safe source).andThen fun current first hfirst hcurrent => ?_
    cases current with
    | none => exact Safe.raise
    | some current =>
      refine Safe.check fun state hstate => ?_
      obtain ⟨hvalue, hwell⟩ := decodeHead_ok hstate
      extract_lets next
      have hnext : ∀ now : ArtifactWorld B, (state.2 = none → Drained i source now.history) →
          SourceSafe sha256 i (fun edge now => edge = none → Drained i source now.history)
            next now := by
        intro now hdrained
        cases hhead : state.2 with
        | none =>
          simp only [next, hhead]
          exact Safe.done fun _ => hdrained hhead
        | some head =>
          simp only [next, hhead]
          refine (get_safe head).andThen fun edge _ _ _ => ?_
          cases edge with
          | none => exact Safe.raise
          | some edge => exact Safe.check fun decoded _ => Safe.done (by simp)
      split
      · rename_i hrevoked
        exact hnext first fun hhead =>
          .inl ⟨current.revision, current, hcurrent.mem, rfl, by rw [hvalue, hrevoked, hhead],
            by rintro _ ⟨⟩⟩
      · rename_i hrevoked
        rw [Bool.not_eq_true] at hrevoked
        have hread : ReadHead i source current.revision false state.2 first.history :=
          ⟨current, hcurrent.mem, rfl, by rw [hvalue, hrevoked], hwell⟩
        have henumerates := henumerates.mono hfirst
        refine SourceSafe.andThen (swap_safe fun now hnow => ?_)
          fun result second hsecond hresult => ?_
        · exact ⟨hsource, .inl ⟨henumerates.mono (grows hnow.evolves),
            hread.mono (grows hnow.evolves)⟩⟩
        cases result with
        | updated record =>
          exact hnext second fun hhead => .inr ⟨current.revision, nowMs, none, record,
            hhead ▸ hresult.mem⟩
        | _ => exact ih second (henumerates.mono hsecond)

theorem nextRevokedExternalOutput_safe {refId : String}
    (hcall : (i, .invoke (.nextRevokedExternalOutput refId caller nowMs)) ∈ world.history) :
    SourceSafe sha256 i (fun edge now => edge = none → ∃ source,
        externalSourceKey sha256 refId caller = .ok source ∧ Drained i source now.history)
      (nextRevokedExternalOutput sha256 refId caller nowMs) world := by
  refine Safe.check fun source hkey => ?_
  have hsource := isSource_of_key hkey
  refine (createHead_safe hsource true nowMs).andThen fun _ now hnow _ => ?_
  exact (revokeSource_safe hsource nowMs 16 now ⟨refId, caller, nowMs, hnow hcall⟩).weaken
    fun _ _ h hnone => ⟨source, hkey, h hnone⟩

theorem acknowledgeRevokedExternalOutput_safe {refId edgeKey : String}
    (hcall : (i, .invoke (.acknowledgeRevokedExternalOutput refId caller edgeKey nowMs)) ∈
      world.history) : SourceSafe sha256 i (fun _ _ => True)
      (acknowledgeRevokedExternalOutput sha256 refId caller edgeKey nowMs) world := by
  refine Safe.check fun source hkey => ?_
  have hsource := isSource_of_key hkey
  have hacknowledges : Acknowledges sha256 i source edgeKey world.history :=
    ⟨refId, caller, nowMs, hcall, hkey⟩
  refine (get_safe source).andThen fun current first hfirst hcurrent => ?_
  cases current with
  | none => exact Safe.raise
  | some current =>
    refine Safe.check fun state hstate => ?_
    obtain ⟨hvalue, hwell⟩ := decodeHead_ok hstate
    split
    · exact Safe.done trivial
    · rename_i hstate
      simp only [not_or, Bool.not_eq_false, not_not] at hstate
      obtain ⟨hrevoked, hhead⟩ := hstate
      have hedge : IsEdge edgeKey := isEdge_of_pointer (hwell edgeKey hhead)
      have hread : ReadHead i source current.revision true (some edgeKey) first.history :=
        ⟨current, hcurrent.mem, rfl, by rw [hvalue, hrevoked, hhead], hhead ▸ hwell⟩
      refine (get_safe edgeKey).andThen fun edge second hsecond hfound => ?_
      cases edge with
      | none => exact Safe.raise
      | some edge =>
        refine Safe.check fun decoded hdecoded => ?_
        obtain ⟨hvalue, hnext⟩ := decodeEdge_ok hdecoded
        have hsub := List.Subset.trans hfirst hsecond
        have hacknowledges := hacknowledges.mono (List.Subset.trans hfirst hsecond)
        have hread := hread.mono hsecond
        refine SourceSafe.andThen (swap_safe fun now hnow => ?_)
          fun result third hthird hresult => ?_
        · have hsub := grows hnow.evolves
          exact ⟨hsource, .inr ⟨edgeKey, decoded.1, hacknowledges.mono hsub, hread.mono hsub,
            edge, hsub hfound.mem, hvalue, hnext⟩⟩
        cases result with
        | updated record =>
          have hunlinked : Unlinked sha256 i source edgeKey third.history :=
            ⟨hacknowledges.mono hthird, _, _, nowMs, none, record, hresult.mem⟩
          refine SourceSafe.andThen (delete_safe fun now hnow => ?_)
            fun _ _ _ _ => Safe.done trivial
          exact ⟨hedge, .inr ⟨source, hunlinked.mono (grows hnow.evolves)⟩⟩
        | _ => exact Safe.done trivial

/-- A call about external sources keeps the guarantee if its reply is allowed. -/
theorem reply_safe {Q : α → ArtifactWorld B → Prop} {reply : α → Reply B}
    (h : SourceSafe sha256 i Q program world) (hreply : ∀ value now, Q value now → ∀ later,
      Rely (repository sha256) (Guarantee sha256) i now later →
      Evolves (repository sha256) (Guarantee sha256) world later →
      ResponseAllowed sha256 i (reply value) later.history) :
    Safe (repository sha256) (Guarantee sha256) (Rely (repository sha256) (Guarantee sha256) i) i
      (Responds (repository sha256) (Guarantee sha256) i)
      (program.bind fun value => pure (reply value)) world := by
  refine (Safe.andThen (Q := fun result now => ∀ later,
    Rely (repository sha256) (Guarantee sha256) i now later →
      ResponseAllowed sha256 i result later.history) (fun _ _ h => h.evolves) h
    fun value now hnow hvalue => Safe.done fun later hlater =>
      hreply value now hvalue later hlater (hnow.trans hlater.evolves)).responds ?_ ?_
  · exact fun value now hvalue later hlater _ => hvalue later hlater
  · exact fun _ _ _ => trivial

/-- Every call about external sources keeps the guarantee. -/
theorem verified (sha256 : Sha256 B) :
    Verified (repository sha256) (Guarantee sha256) fun _ => True where
  inv := fun _ _ _ _ _ _ _ => trivial
  invoke := fun _ _ _ _ _ => trivial
  main := by
    intro i call world _ hcalls _
    have honly : ∀ now, Evolves (repository sha256) (Guarantee sha256) world now →
        ∀ other, (i, .invoke other) ∈ now.history → other = call := fun now hnow =>
      ((persistent_calls i call).evolves hnow hcalls).2
    cases call with
    | isExternalSourceRevoked refId caller =>
      exact reply_safe (isExternalSourceRevoked_safe refId caller) fun _ _ _ _ _ _ => trivial
    | registerExternalOutput refId outputRefId caller nowMs =>
      refine reply_safe (registerExternalOutput_safe refId outputRefId caller nowMs) ?_
      rintro _ now ⟨source, edge, hkey, hregistered⟩ later hrely hgrown _ _ _ _ hcall
      cases honly later hgrown _ hcall
      exact ⟨source, edge, hkey, hregistered.mono (grows hrely.evolves)⟩
    | nextRevokedExternalOutput refId caller nowMs =>
      refine reply_safe (nextRevokedExternalOutput_safe hcalls.1) ?_
      intro edge now hdrained later hrely hgrown
      cases edge with
      | none =>
        intro _ _ _ hcall
        cases honly later hgrown _ hcall
        obtain ⟨source, hkey, hdrained⟩ := hdrained rfl
        exact ⟨source, hkey, hdrained.mono (grows hrely.evolves)⟩
      | some edge => trivial
    | acknowledgeRevokedExternalOutput refId caller edgeKey nowMs =>
      refine reply_safe (acknowledgeRevokedExternalOutput_safe hcalls.1) ?_
      intro _ now _ later hrely hgrown _ _ _ _ hcall
      cases honly later hgrown _ hcall
    | _ =>
      refine (Safe.unconstrained (fun _ _ h => h.evolves) fun now hnow event hsource =>
        absurd (hsource _ (grows hnow hcalls.1)) (by simp [onSource])).mono ?_
      intro outcome now hnow later hrely hsource
      exact absurd (hsource _ (grows (hnow.trans hrely.evolves) hcalls.1)) (by simp [onSource])

end Verified

end Groundlane.Artifacts.Sources
