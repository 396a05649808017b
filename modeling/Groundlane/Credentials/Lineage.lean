import Groundlane.Credentials.Verified
import Groundlane.Linked.Chains

/-!
# Rotation never escalates

The links between predecessors and successors form chains, a successor has the scopes of its
predecessor, and what is revoked is neither rotated nor accepted again (`Coherent`). That a
successor does not outlive what is left of its predecessor needs that no forced expiry takes
effect between the read and the write of a rotation (`unexpired`): the write is guarded by the
status alone. `rotation_never_escalates` is the result and `expiry_outlived` a run without the
condition.
-/

namespace Groundlane.Credentials

open Interleaving Interleaving.System Linked

/-! ## Links -/

/-- The credential that `id` was rotated to. -/
def successor (rows : Rows) (id : String) : Option String :=
  (rows.find id).bind ManagedCredentialRecord.rotatedTo

/-- The credential that `id` was rotated from. -/
def predecessor (rows : Rows) (id : String) : Option String :=
  (rows.find id).bind ManagedCredentialRecord.rotatedFrom

def scopesOf (rows : Rows) (id : String) : Option (List String) :=
  (rows.find id).map ManagedCredentialRecord.scopes

/-- Chains along which the scopes stay the same. -/
structure Lineage (rows : Rows) : Prop where
  chains : Chains (successor rows) (predecessor rows)
  scopes : ∀ a b, successor rows a = some b → scopesOf rows b = scopesOf rows a

/-- What becomes of a credential in any step. -/
structure Outlasts (before after : ManagedCredentialRecord) : Prop where
  scopes : after.scopes = before.scopes
  expiresAt : after.expiresAt ≤ before.expiresAt
  revoked : before.status = .revoked →
    after.status = .revoked ∧ after.rotatedTo = before.rotatedTo

theorem Outlasts.refl (record : ManagedCredentialRecord) : Outlasts record record :=
  ⟨rfl, Int.le_refl _, fun h => ⟨h, rfl⟩⟩

theorem Revises.outlasts {before after : ManagedCredentialRecord} (h : Revises before after) :
    Outlasts before after :=
  ⟨h.scopes, h.expiresAt, fun hrevoked => ⟨h.revoked hrevoked, h.rotatedTo⟩⟩

variable {record : ManagedCredentialRecord}
  {config : Config Call Query Query.Res ManagedTokenError Reply Registry} {oldId : String}
  {id : String}

section Changes

variable {query : Query} {before after : Rows}

/-- No credential is ever lost. -/
theorem Changes.outlasts (h : Changes query before after) (hfind : before.find id = some record) :
    ∃ now, after.find id = some now ∧ Outlasts record now := by
  cases h with
  | still hstill => exact ⟨record, (hstill id).trans hfind, .refl record⟩
  | inserted new _ hfree hafter =>
    refine ⟨record, ?_, .refl record⟩
    rw [hafter, if_neg, hfind]
    rintro rfl
    rw [hfree] at hfind
    cases hfind
  | rotated oldId oldUpdate next current status _ hcurrent heligible hfree _ _ hafter =>
    rw [hafter]
    by_cases hid : oldId = id
    · subst hid
      obtain rfl := Option.some.inj (hcurrent.symm.trans hfind)
      refine ⟨_, if_pos rfl, rfl, Int.le_refl _, fun hrevoked => ?_⟩
      rw [(eligible_iff.1 heligible).1] at hrevoked
      cases hrevoked
    · refine ⟨record, ?_, .refl record⟩
      rw [if_neg hid, if_neg, hfind]
      rintro rfl
      rw [hfree] at hfind
      cases hfind
  | revised _ _ _ hrevised =>
    have hrel := hrevised id
    rw [hfind] at hrel
    cases hnow : after.find id with
    | none =>
      rw [hnow] at hrel
      cases hrel
    | some now =>
      rw [hnow] at hrel
      cases hrel with
      | some hrel => exact ⟨now, rfl, hrel.outlasts⟩

/-- An operation that rotates nothing keeps every link. -/
theorem Changes.links_of_revised
    (h : ∀ k, Option.Rel Revises (before.find k) (after.find k)) :
    successor after = successor before ∧ predecessor after = predecessor before ∧
      scopesOf after = scopesOf before := by
  have hfields : ∀ k, successor after k = successor before k ∧
      predecessor after k = predecessor before k ∧ scopesOf after k = scopesOf before k := by
    intro k
    have hrel := h k
    simp only [successor, predecessor, scopesOf]
    generalize before.find k = left at hrel
    generalize after.find k = right at hrel
    cases hrel with
    | none => exact ⟨rfl, rfl, rfl⟩
    | some hrel => exact ⟨hrel.rotatedTo, hrel.rotatedFrom, congrArg some hrel.scopes⟩
  exact ⟨funext fun k => (hfields k).1, funext fun k => (hfields k).2.1,
    funext fun k => (hfields k).2.2⟩

end Changes

/-- A lineage is not changed by a new credential without links. -/
theorem Lineage.insert {before after : Rows} (h : Lineage before) (hto : record.rotatedTo = none)
    (hfrom : record.rotatedFrom = none) (hfree : before.find record.id = none)
    (hafter : ∀ k, after.find k = if record.id = k then some record else before.find k) :
    Lineage after := by
  have hnext : successor after = successor before := by
    funext k
    rw [successor, hafter]
    split_ifs with hk
    · subst hk
      rw [successor, hfree]
      exact hto
    · rfl
  have hprev : predecessor after = predecessor before := by
    funext k
    rw [predecessor, hafter]
    split_ifs with hk
    · subst hk
      rw [predecessor, hfree]
      exact hfrom
    · rfl
  refine ⟨hnext ▸ hprev ▸ h.chains, fun a b hab => ?_⟩
  rw [hnext] at hab
  have hkeep : ∀ k, before.find k ≠ none → scopesOf after k = scopesOf before k := by
    intro k hk
    rw [scopesOf, hafter, if_neg]
    · rfl
    · rintro rfl
      exact hk hfree
  rw [hkeep a, hkeep b]
  · exact h.scopes a b hab
  · intro hnone
    have hba := (h.chains.agree a b).1 hab
    simp [predecessor, hnone] at hba
  · intro hnone
    simp [successor, hnone] at hab

variable {oldUpdate : RotateUpdate} {event : TokenEvent} {rows : Rows}

/-- A rotation links its credential to a successor with the same scopes. -/
theorem Lineage.rotate {before after : Rows} {next current : ManagedCredentialRecord}
    {status : ManagedStoredStatus} (h : Lineage before)
    (hcurrent : before.find oldId = some current) (heligible : isEligible current = true)
    (hfree : before.find next.id = none) (hfrom : next.rotatedFrom = some oldId)
    (hto : next.rotatedTo = none) (hscopes : next.scopes = current.scopes)
    (hupdate : oldUpdate.rotatedTo = some next.id)
    (hafter : ∀ k, after.find k = if oldId = k then some (current.rotatedBy oldUpdate status)
      else if next.id = k then some next else before.find k) : Lineage after := by
  have hne : oldId ≠ next.id := by
    rintro rfl
    rw [hfree] at hcurrent
    cases hcurrent
  have hnoNext : successor before oldId = none := by
    rw [successor, hcurrent]
    exact (eligible_iff.1 heligible).2
  have hnext : successor after = Function.update (successor before) oldId (some next.id) := by
    funext k
    rw [successor, hafter]
    split_ifs with hk hk'
    · subst hk
      rw [Function.update_self]
      exact hupdate
    · subst hk'
      rw [Function.update_of_ne (Ne.symm hne), successor, hfree]
      exact hto
    · rw [Function.update_of_ne (Ne.symm hk)]
      rfl
  have hprev : predecessor after = Function.update (predecessor before) next.id (some oldId) := by
    funext k
    rw [predecessor, hafter]
    split_ifs with hk hk'
    · subst hk
      rw [Function.update_of_ne hne, predecessor, hcurrent]
      rfl
    · subst hk'
      rw [Function.update_self]
      exact hfrom
    · rw [Function.update_of_ne (Ne.symm hk')]
      rfl
  have hscopesOf : scopesOf after = Function.update (scopesOf before) next.id (some next.scopes) := by
    funext k
    rw [scopesOf, hafter]
    split_ifs with hk hk'
    · subst hk
      rw [Function.update_of_ne hne, scopesOf, hcurrent]
      rfl
    · subst hk'
      rw [Function.update_self]
      rfl
    · rw [Function.update_of_ne (Ne.symm hk')]
      rfl
  have hfreeNext : successor before next.id = none := by rw [successor, hfree]; rfl
  have hfreePrev : predecessor before next.id = none := by rw [predecessor, hfree]; rfl
  refine ⟨?_, fun a b hab => ?_⟩
  · rw [hnext, hprev]
    exact h.chains.link hne hnoNext hfreeNext hfreePrev
  · rw [hnext] at hab
    rw [hscopesOf]
    by_cases ha : a = oldId
    · subst ha
      rw [Function.update_self] at hab
      obtain rfl := Option.some.inj hab
      rw [Function.update_self, Function.update_of_ne hne, scopesOf, hcurrent, hscopes]
      rfl
    · rw [Function.update_of_ne ha] at hab
      have hb : b ≠ next.id := by
        rintro rfl
        rw [h.chains.agree, hfreePrev] at hab
        cases hab
      have ha' : a ≠ next.id := by
        rintro rfl
        rw [hfreeNext] at hab
        cases hab
      rw [Function.update_of_ne hb, Function.update_of_ne ha', h.scopes a b hab]

/-! ## Every world -/

/-- What holds in every world: the links form chains, whatever a call has read is still there with
the same scopes and no later expiry, and whoever was authenticated was not revoked when read. -/
structure Coherent (world : TokenWorld) : Prop where
  lineage : Lineage world.state.rows
  read : ∀ i id record, HasRead i id record world.history →
    ∃ current, world.state.rows.find id = some current ∧ current.scopes = record.scopes ∧
      current.expiresAt ≤ record.expiresAt
  authenticated : ∀ i principal,
    (i, .response (.ok (.authenticated (some principal)))) ∈ world.history →
    ∃ stored, HasRead i principal.credentialId stored world.history ∧ stored.status ≠ .revoked

variable {sha256 : String → String} {kind : StoreKind} {i : Nat} {world after : TokenWorld}

/-- An operation does to the credentials what its kind allows. -/
theorem step_changes {query : Query} {answer : query.Res}
    (h : (tokens sha256 kind).Step i (.effect query answer) world after) :
    Changes query world.state.rows after.state.rows := by
  obtain ⟨outside, hexec⟩ := h.exec_eq
  have hstate : after.state = (exec kind outside query world.state).1 := congrArg Prod.fst hexec.symm
  rw [hstate]
  exact exec_changes kind outside query world.state

/-- A credential that has just been read is there. -/
theorem step_read
    (h : (tokens sha256 kind).Step i (.effect (.getById id) (.ok (some record))) world after) :
    world.state.rows.find id = some record := by
  obtain ⟨_, hexec⟩ := h.exec_eq
  exact exec_getById (congrArg Prod.snd hexec)

/-- The links stay chains. -/
theorem Lineage.step {query : Query} {answer : query.Res} (h : Coherent world)
    (hstep : (tokens sha256 kind).Step i (.effect query answer) world after)
    (hG : Guarantee i (.effect query answer) world) : Lineage after.state.rows := by
  have hlineage := h.lineage
  cases step_changes hstep with
  | still hstill =>
    have hrefl : ∀ k, Option.Rel Revises (world.state.rows.find k) (after.state.rows.find k) := by
      intro k
      rw [hstill k]
      cases world.state.rows.find k with
      | none => exact .none
      | some record => exact .some (.refl record)
    obtain ⟨hnext, hprev, hscopes⟩ := Changes.links_of_revised hrefl
    exact ⟨hnext ▸ hprev ▸ hlineage.chains, hnext ▸ hscopes ▸ hlineage.scopes⟩
  | inserted record hquery hfree hafter =>
    subst hquery
    obtain ⟨verifier, scopes, _, now, _, hrecord⟩ := hG
    exact hlineage.insert (by rw [hrecord]; rfl) (by rw [hrecord]; rfl) hfree hafter
  | rotated oldId oldUpdate next current _ hquery hcurrent heligible hfree hfrom hupdate hafter =>
    subst hquery
    obtain ⟨read, hread, -, ⟨_, _, hnext⟩, -⟩ := hG
    obtain ⟨_, hfound, hscopes, -⟩ := h.read i oldId read hread
    obtain rfl := Option.some.inj (hcurrent.symm.trans hfound)
    refine hlineage.rotate hcurrent heligible hfree hfrom (by rw [hnext]; rfl) ?_ hupdate hafter
    rw [hnext, hscopes]
    rfl
  | revised _ _ _ hrevised =>
    obtain ⟨hnext, hprev, hscopes⟩ := Changes.links_of_revised hrevised
    exact ⟨hnext ▸ hprev ▸ hlineage.chains, hnext ▸ hscopes ▸ hlineage.scopes⟩

/-- No step takes a credential away, extends its expiry or undoes its revocation. -/
theorem step_outlasts (hstep : (tokens sha256 kind).Step i event world after)
    (hfind : world.state.rows.find id = some record) :
    ∃ now, after.state.rows.find id = some now ∧ Outlasts record now := by
  cases event with
  | invoke call => exact ⟨record, hstep.invoke_state ▸ hfind, .refl record⟩
  | effect query answer => exact (step_changes hstep).outlasts hfind
  | response outcome => exact ⟨record, hstep.response_state ▸ hfind, .refl record⟩

theorem persistent_coherent : Persistent (tokens sha256 kind) Guarantee Coherent := by
  intro i event world after hstep hG h
  refine ⟨?_, ?_, ?_⟩
  · cases event with
    | invoke call => exact hstep.invoke_state ▸ h.lineage
    | effect query answer => exact .step h hstep hG
    | response outcome => exact hstep.response_state ▸ h.lineage
  · intro j id record hread
    obtain ⟨current, hcurrent, hscopes, hexpires⟩ : ∃ current,
        world.state.rows.find id = some current ∧ current.scopes = record.scopes ∧
          current.expiresAt ≤ record.expiresAt := by
      rcases hstep.mem_history.1 hread with heq | hread
      · obtain ⟨rfl, rfl⟩ := Prod.mk.inj heq
        exact ⟨record, step_read hstep, rfl, Int.le_refl _⟩
      · exact h.read j id record hread
    obtain ⟨now, hnow, houtlasts⟩ := step_outlasts hstep hcurrent
    exact ⟨now, hnow, houtlasts.scopes.trans hscopes, Int.le_trans houtlasts.expiresAt hexpires⟩
  · intro j principal hresponse
    rcases hstep.mem_history.1 hresponse with heq | hresponse
    · obtain ⟨rfl, rfl⟩ := Prod.mk.inj heq
      obtain ⟨stored, hread, hstatus⟩ := hG
      exact ⟨stored, hstep.history_mono hread, hstatus⟩
    · obtain ⟨stored, hread, hstatus⟩ := h.authenticated j principal hresponse
      exact ⟨stored, hstep.history_mono hread, hstatus⟩

/-- Every call keeps the guarantee. -/
theorem verified (sha256 : String → String) (kind : StoreKind) :
    Verified (tokens sha256 kind) Guarantee Coherent where
  inv := persistent_coherent
  invoke := fun _ _ _ _ => trivial
  main := fun i call world _ _ _ => safe_main i call world

/-- No calls yet, and no credentials. -/
def initial : Config Call Query Query.Res ManagedTokenError Reply Registry :=
  Config.initial ⟨.empty, fun _ => []⟩

theorem coherent_initial : Coherent initial.toWorld where
  lineage := ⟨.unlinked, nofun⟩
  read := by simp [HasRead, initial, Config.initial]
  authenticated := by simp [initial, Config.initial]

theorem ready (sha256 : String → String) (kind : StoreKind) :
    Ready (tokens sha256 kind) Guarantee Coherent initial :=
  ready_initial coherent_initial

/-! ## No rotation extends an expiry -/

/-- At a rotation that finds its credential eligible, the credential still has the expiry that the
call has read. -/
def unexpired (i : Nat) (event : TokenEvent) (world : TokenWorld) : Bool :=
  match event with
  | .effect (.tryRotate oldId _ _) _ =>
    (world.state.rows.find oldId).all fun current => !isEligible current ||
      world.history.all fun
        | (j, .effect (.getById id) (.ok (some record))) =>
          decide (j = i → id = oldId → current.expiresAt = record.expiresAt)
        | _ => true
  | _ => true

theorem expiresAt_of_unexpired {next current record : ManagedCredentialRecord} {answer}
    (h : unexpired i (.effect (.tryRotate oldId oldUpdate next) answer) world = true)
    (hcurrent : world.state.rows.find oldId = some current) (heligible : isEligible current = true)
    (hread : HasRead i oldId record world.history) : current.expiresAt = record.expiresAt := by
  simp only [unexpired, hcurrent, Option.all_some, heligible, Bool.not_true, Bool.false_or] at h
  exact of_decide_eq_true (List.all_eq_true.1 h _ hread) rfl rfl

/-- What holds of the credentials after a step, given those before it. -/
structure NeverEscalates (before after : Rows) : Prop where
  chains : Chains (successor after) (predecessor after)
  oneSuccessor : ∀ next ∈ after.rows, ∀ other ∈ after.rows, ∀ oldId,
    next.rotatedFrom = some oldId → other.rotatedFrom = some oldId → next = other
  scopes : ∀ old ∈ after.rows, ∀ next ∈ after.rows, old.rotatedTo = some next.id →
    next.scopes = old.scopes
  expiry : ∀ next ∈ after.rows, before.find next.id = none → ∀ oldId,
    next.rotatedFrom = some oldId →
    ∃ old, before.find oldId = some old ∧ next.expiresAt ≤ old.expiresAt
  revoked : ∀ id record, before.find id = some record → record.status = .revoked →
    ∃ now, after.find id = some now ∧ now.status = .revoked ∧ now.rotatedTo = record.rotatedTo

/-- Successors are unique where the links form chains. -/
theorem Lineage.oneSuccessor (h : Lineage rows) {next other : ManagedCredentialRecord}
    (hnext : next ∈ rows.rows) (hother : other ∈ rows.rows) (hfrom : next.rotatedFrom = some oldId)
    (hfrom' : other.rotatedFrom = some oldId) : next = other := by
  have hfind := Sql.Table.find_of_mem hnext
  have hfind' := Sql.Table.find_of_mem hother
  have hid : next.id = other.id :=
    h.chains.prev_injective (a := oldId) (by rw [predecessor, hfind]; exact hfrom)
      (by rw [predecessor, hfind']; exact hfrom')
  rw [hid, hfind'] at hfind
  exact (Option.some.inj hfind).symm

theorem Lineage.scopes_eq (h : Lineage rows) {old next : ManagedCredentialRecord}
    (hold : old ∈ rows.rows) (hnext : next ∈ rows.rows) (hto : old.rotatedTo = some next.id) :
    next.scopes = old.scopes := by
  have hfind := Sql.Table.find_of_mem hold
  have hscopes := h.scopes old.id next.id (by rw [successor, hfind]; exact hto)
  rw [scopesOf, scopesOf, hfind, Sql.Table.find_of_mem hnext] at hscopes
  exact Option.some.inj hscopes

/-- A credential that appears in a step and was rotated from another one does not outlive it. -/
theorem step_expiry (hstep : (tokens sha256 kind).Step i event world after)
    (hG : Guarantee i event world) (hunexpired : unexpired i event world = true)
    {next : ManagedCredentialRecord} (hnext : next ∈ after.state.rows.rows)
    (hnew : world.state.rows.find next.id = none) (hfrom : next.rotatedFrom = some oldId) :
    ∃ old, world.state.rows.find oldId = some old ∧ next.expiresAt ≤ old.expiresAt := by
  have hfind := Sql.Table.find_of_mem hnext
  cases event with
  | invoke call =>
    rw [hstep.invoke_state, hnew] at hfind
    cases hfind
  | response outcome =>
    rw [hstep.response_state, hnew] at hfind
    cases hfind
  | effect query answer =>
    cases step_changes hstep with
    | still hstill =>
      rw [hstill, hnew] at hfind
      cases hfind
    | inserted record hquery _ hafter =>
      subst hquery
      obtain ⟨verifier, _, _, now, _, hrecord⟩ := hG
      rw [hafter] at hfind
      split_ifs at hfind
      · obtain rfl := Option.some.inj hfind
        rw [hrecord] at hfrom
        cases hfrom
      · rw [hnew] at hfind
        cases hfind
    | rotated oldId' oldUpdate new current _ hquery hcurrent heligible _ hfrom' _ hafter =>
      subst hquery
      obtain ⟨_, hread, -, ⟨_, _, hrotated⟩, -⟩ := hG
      rw [hafter] at hfind
      split_ifs at hfind with hid
      · rw [← hid, hcurrent] at hnew
        cases hnew
      · obtain rfl := Option.some.inj hfind
        obtain rfl := Option.some.inj (hfrom.symm.trans hfrom')
        refine ⟨current, hcurrent, ?_⟩
        rw [expiresAt_of_unexpired hunexpired hcurrent heligible hread, hrotated]
        exact Int.le_refl _
      · rw [hnew] at hfind
        cases hfind
    | revised _ _ _ hrevised =>
      have hrel := hrevised next.id
      rw [hnew, hfind] at hrel
      cases hrel

/-- One action of a run. -/
theorem action_never_escalates (hready : Ready (tokens sha256 kind) Guarantee Coherent config)
    {action : Action Call Outside} {rest : List (Action Call Outside)}
    (hmeets : (tokens sha256 kind).Meets (fun i event world => unexpired i event world = true)
      config (action :: rest)) :
    NeverEscalates config.state.rows ((tokens sha256 kind).act config action).state.rows := by
  obtain ⟨hafter, hstep⟩ := hready.acts (verified sha256 kind) (acts_act config action)
  have hlineage := hafter.inv.lineage
  refine ⟨hlineage.chains, fun next hnext other hother oldId => hlineage.oneSuccessor hnext hother,
    fun old hold next hnext => hlineage.scopes_eq hold hnext, ?_, ?_⟩
  · intro next hnext hnew oldId hfrom
    rcases hstep with heq | ⟨i, event, hstep, hG⟩
    · rw [heq] at hnext
      rw [Sql.Table.find_of_mem hnext] at hnew
      cases hnew
    · exact step_expiry hstep hG (hmeets.1 i event hstep.history) hnext hnew hfrom
  · intro id record hfind hrevoked
    rcases hstep with heq | ⟨i, _, hstep, _⟩
    · rw [heq]
      exact ⟨record, hfind, hrevoked, rfl⟩
    · obtain ⟨now, hnow, houtlasts⟩ := step_outlasts hstep hfind
      exact ⟨now, hnow, houtlasts.revoked hrevoked⟩

/-- After a revocation every read of the credential finds it revoked. -/
theorem revoked_reads (hready : Ready (tokens sha256 kind) Guarantee Coherent config)
    (hfind : config.state.rows.find id = some record) (hrevoked : record.status = .revoked)
    (rest : List (Action Call Outside)) :
    ∀ j stored, HasRead j id stored ((tokens sha256 kind).run config rest).history →
      HasRead j id stored config.history ∨ stored.status = .revoked := by
  refine (hready.persists (verified sha256 kind) rest (P := fun world =>
    (∃ now, world.state.rows.find id = some now ∧ now.status = .revoked) ∧
      ∀ j stored, HasRead j id stored world.history →
        HasRead j id stored config.history ∨ stored.status = .revoked) ?_
    ⟨⟨record, hfind, hrevoked⟩, fun _ _ h => .inl h⟩).2
  rintro i event world after - - hstep - ⟨⟨now, hnow, hstatus⟩, hreads⟩
  obtain ⟨later, hlater, houtlasts⟩ := step_outlasts hstep hnow
  refine ⟨⟨later, hlater, (houtlasts.revoked hstatus).1⟩, fun j stored hread => ?_⟩
  rcases hstep.mem_history.1 hread with heq | hread
  · obtain ⟨rfl, rfl⟩ := Prod.mk.inj heq
    obtain rfl := Option.some.inj (hnow.symm.trans (step_read hstep))
    exact .inr hstatus
  · exact hreads j stored hread

/-- In every run in which no forced expiry takes effect between the read and the write of a
rotation, no step escalates, and no call that reads a credential after its revocation
authenticates by it. -/
theorem rotation_never_escalates (sha256 : String → String) (kind : StoreKind)
    {actions : List (Action Call Outside)}
    (hmeets : (tokens sha256 kind).Meets (fun i event world => unexpired i event world = true)
      initial actions) :
    (∀ first action rest, actions = first ++ action :: rest →
      NeverEscalates ((tokens sha256 kind).run initial first).state.rows
        ((tokens sha256 kind).run initial (first ++ [action])).state.rows) ∧
    ∀ first rest, actions = first ++ rest → ∀ id record,
      ((tokens sha256 kind).run initial first).state.rows.find id = some record →
      record.status = .revoked → ∀ i principal, principal.credentialId = id →
      (i, .response (.ok (.authenticated (some principal)))) ∈
        ((tokens sha256 kind).run initial actions).history →
      ∃ stored, HasRead i id stored ((tokens sha256 kind).run initial first).history := by
  have hready := ready sha256 kind
  constructor
  · rintro first action rest rfl
    rw [run_append]
    exact action_never_escalates (hready.run (verified sha256 kind) first)
      (meets_append.1 hmeets).2
  · rintro first rest rfl id record hfind hrevoked i principal rfl hresponse
    have hfinal := hready.run (verified sha256 kind) (first ++ rest)
    obtain ⟨stored, hread, hstatus⟩ := hfinal.inv.authenticated i principal hresponse
    rw [run_append] at hread
    rcases revoked_reads (hready.run (verified sha256 kind) first) hfind hrevoked rest i stored
      hread with hread | hstored
    · exact ⟨stored, hread⟩
    · exact absurd hstored hstatus

/-! ## Any run -/

/-- No credential is lost, gets other scopes, expires later, or comes back from a revocation. -/
def KeepsCredentials (before after : Rows) : Prop :=
  ∀ id record, before.find id = some record →
    ∃ current, after.find id = some current ∧ Outlasts record current

/-- In every run, what is known of a credential only ever narrows. -/
theorem credentials_kept (sha256 : String → String) (kind : StoreKind)
    (actions later : List (Action Call Outside)) :
    KeepsCredentials ((tokens sha256 kind).run initial actions).state.rows
      ((tokens sha256 kind).run initial (actions ++ later)).state.rows := by
  intro id record hfind
  rw [run_append]
  refine ((ready sha256 kind).run (verified sha256 kind) actions).persists (verified sha256 kind)
    later (P := fun world => ∃ current, world.state.rows.find id = some current ∧
      Outlasts record current) ?_ ⟨record, hfind, .refl record⟩
  rintro i event world after - - hstep - ⟨current, hcurrent, h⟩
  obtain ⟨next, hnext, h'⟩ := step_outlasts hstep hcurrent
  refine ⟨next, hnext, h'.scopes.trans h.scopes, Int.le_trans h'.expiresAt h.expiresAt, ?_⟩
  intro hrevoked
  obtain ⟨hstatus, hto⟩ := h.revoked hrevoked
  exact ⟨(h'.revoked hstatus).1, (h'.revoked hstatus).2.trans hto⟩

/-! ## Runs -/

/-- One step of call `i` at `now`, with a healthy store. -/
def step (i : Nat) (now : Int) : Action Call Outside :=
  .advance i ⟨.served, false, false, now, fun _ => 0⟩

/-- A credential until 100, rotated at 10 while it is forced to expire at 20: the rotation has read
the credential before the expiry and writes the successor after it. -/
def expiringRun : List (Action Call Outside) :=
  [.invoke (.create ⟨.undefined, .undefined, some 100, some "predecessor"⟩), step 0 0, step 0 0,
    step 0 0, step 0 0,
    .invoke (.rotate 0 ⟨"predecessor", .undefined, some "successor", .undefined⟩), step 1 10,
    step 1 10, step 1 10,
    .invoke (.expire "predecessor"), step 2 20, step 2 20, step 2 20]

/-- The rotation before the expiry, and a revocation of the successor. -/
def rotatingRun : List (Action Call Outside) :=
  [.invoke (.create ⟨.undefined, .undefined, some 100, some "predecessor"⟩), step 0 0, step 0 0,
    step 0 0, step 0 0,
    .invoke (.rotate 0 ⟨"predecessor", .undefined, some "successor", .undefined⟩), step 1 10,
    step 1 10, step 1 10, step 1 10, step 1 10,
    .invoke (.expire "predecessor"), step 2 20, step 2 20, step 2 20,
    .invoke (.revoke "successor"), step 3 30, step 3 30, step 3 30]

/-- The expiries of a credential and of the one it was rotated to. -/
def expiries (rows : Rows) : Option Int × Option Int :=
  ((rows.find "predecessor").map ManagedCredentialRecord.expiresAt,
    (rows.find "successor").map ManagedCredentialRecord.expiresAt)

/-- The condition is met by a run with a rotation, and so are the conclusions. -/
theorem rotation_never_escalates_sample :
    expiries ((tokens (fun _ => "digest") .d1).run initial rotatingRun).state.rows =
      (some 20, some 100) ∧
    ∀ first action rest, rotatingRun = first ++ action :: rest →
      NeverEscalates ((tokens (fun _ => "digest") .d1).run initial first).state.rows
        ((tokens (fun _ => "digest") .d1).run initial (first ++ [action])).state.rows :=
  ⟨by decide +kernel,
    (rotation_never_escalates (fun _ => "digest") .d1
      (meets_of_checks (by decide +kernel))).1⟩

/-- Without the condition a successor outlives the expiry that its predecessor was forced to. -/
theorem expiry_outlived : ¬ ∀ (sha256 : String → String) (kind : StoreKind)
    (first : List (Action Call Outside)) (action : Action Call Outside),
    NeverEscalates ((tokens sha256 kind).run initial first).state.rows
      ((tokens sha256 kind).run initial (first ++ [action])).state.rows := by
  intro h
  have hstep := (h (fun _ => "digest") .d1 expiringRun (step 1 20)).expiry
  have hbefore : expiries ((tokens (fun _ => "digest") .d1).run initial expiringRun).state.rows =
      (some 20, none) := by decide +kernel
  have hafter : (((tokens (fun _ => "digest") .d1).run initial
      (expiringRun ++ [step 1 20])).state.rows.find "successor").map (fun next =>
        (next.id, next.expiresAt, next.rotatedFrom)) =
      some ("successor", 100, some "predecessor") := by decide +kernel
  obtain ⟨next, hnext, hfields⟩ := Option.map_eq_some_iff.1 hafter
  simp only [Prod.mk.injEq] at hfields
  obtain ⟨hid, hexpires, hfrom⟩ := hfields
  obtain ⟨hold, hnew⟩ := Prod.mk.inj hbefore
  obtain ⟨old, hfind, hle⟩ := hstep next (Sql.Table.find_mem hnext)
    (by rw [hid]; exact Option.map_eq_none_iff.1 hnew) "predecessor" hfrom
  rw [hfind] at hold
  have hforced : old.expiresAt = 20 := Option.some.inj hold
  omega

end Groundlane.Credentials
