import Groundlane.Jobs.CrawlLifecycle
import Groundlane.Jobs.Reuse
import Groundlane.Paging.Follow

/-!
# Crawl jobs stay within budget and page exactly

A call that changes a job changes one that is not terminal, only appends to its partial results,
and keeps them within the budgets (`Revises`); every other call leaves the jobs as they are or
adds a new one (`step_effect`). `crawl_jobs_bounded` is what follows for every sequence of calls,
together with what a caller reads who follows the cursors of `result`.
-/

namespace Groundlane.Jobs

open Sequential

/-! ## One call -/

/-- The partial results are within the cap and the budgets of the job. -/
structure Within (state : InternalCrawlJobState) : Prop where
  count : state.partials.length ≤ maxCrawlPartials
  pages : (state.partials.length : Int) ≤ state.budgets.maxPages
  bytes : (totalChars state.partials : Int) ≤ state.budgets.maxBytes
  outputChars : (totalChars state.partials : Int) ≤ state.budgets.maxOutputChars

/-- What decides who sees a job, and how long. -/
structure Identity where
  jobId : String
  ownerId : String
  credentialBinding : String
  expiresAt : Int

def identityOf (state : InternalCrawlJobState) : Identity :=
  ⟨state.groundlaneJobId, state.ownerId, state.credentialBinding, state.expiresAt⟩

/-- What a call may change in a job. -/
structure Revises (old new : InternalCrawlJobState) : Prop where
  unfinished : old.status.terminal = false
  identity : identityOf new = identityOf old
  appends : old.partials <+: new.partials
  within : Within old → Within new

variable {caller : CrawlJobCaller} {jobId : String} {state : InternalCrawlJobState}
  {old new : InternalCrawlJobState} {now : Int}

/-- A change that leaves the partial results. -/
theorem Revises.of_same (hopen : old.status.terminal = false)
    (hidentity : identityOf new = identityOf old) (hbudgets : new.budgets = old.budgets)
    (hpartials : new.partials = old.partials) : Revises old new where
  unfinished := hopen
  identity := hidentity
  appends := hpartials ▸ List.prefix_refl _
  within := fun ⟨hcount, hpages, hbytes, hchars⟩ =>
    ⟨hpartials ▸ hcount, hpartials ▸ hbudgets ▸ hpages, hpartials ▸ hbudgets ▸ hbytes,
      hpartials ▸ hbudgets ▸ hchars⟩

/-- The effect of a call: nothing, a job more, or a change of one job. -/
inductive Effect (manager : CrawlJobManager) (jobs : CrawlJobs) (call : CrawlCall) :
    CrawlJobs → Prop
  | none {nextId : Nat} (hnext : jobs.nextId ≤ nextId) :
    Effect manager jobs call ⟨jobs.store, nextId⟩
  | created {state : InternalCrawlJobState}
    (hid : state.groundlaneJobId = manager.jobIdOf jobs.nextId) (hwithin : Within state) :
    Effect manager jobs call ⟨jobs.store.set state, jobs.nextId + 1⟩
  | revised {jobId : String} {old new : InternalCrawlJobState}
    (hget : jobs.store.get jobId = some old) (hrevises : Revises old new)
    (hpartials : ¬ call.ingests jobId → new.partials = old.partials) :
    Effect manager jobs call (jobs.put new)

theorem resolve_get {jobs : CrawlJobs} (h : jobs.resolve jobId caller now = .ok state) :
    jobs.store.get jobId = some state := by
  unfold CrawlJobs.resolve at h
  split at h
  · cases h
  · next found hfound =>
      rw [hfound]
      repeat' split at h
      all_goals cases h
      rfl

theorem validateTransition_ok {source target : CrawlJobStatus}
    (h : validateCrawlStatusTransition source target = .ok ()) : source.terminal = false := by
  unfold validateCrawlStatusTransition at h
  split at h
  · cases h
  · split at h
    · cases h
    · next hopen => exact Bool.not_eq_true _ ▸ hopen

theorem validateBudgets_ok {budgets : CrawlBudgets} {pages bytes chars : Nat}
    (h : validateCrawlBudgets budgets pages bytes chars = .ok ()) :
    (pages : Int) ≤ budgets.maxPages ∧ (bytes : Int) ≤ budgets.maxBytes ∧
      (chars : Int) ≤ budgets.maxOutputChars := by
  unfold validateCrawlBudgets at h
  split at h
  · cases h
  split at h
  · cases h
  split at h
  · cases h
  · omega

section

variable {manager : CrawlJobManager} {jobs : CrawlJobs} {call : CrawlCall}

/-- A job that fails keeps its partial results. -/
theorem fail_effect {state counted : InternalCrawlJobState} {error : Fault} {code : ErrorCode}
    (hget : jobs.store.get jobId = some state) (hopen : state.status.terminal = false)
    (hidentity : identityOf counted = identityOf state) (hbudgets : counted.budgets = state.budgets)
    (hpartials : counted.partials = state.partials) :
    Effect manager jobs call (jobs.fail counted error now code).2 := by
  unfold CrawlJobs.fail
  split
  · exact .none (Nat.le_refl _)
  · exact .revised hget (.of_same hopen hidentity hbudgets hpartials) fun _ => hpartials

/-- A batch that is within the budgets, or fails the job. -/
theorem ingest_effect {upstream : Except Fault UpstreamCrawlPageBatch} :
    Effect manager jobs (.ingestUpstream jobId caller now upstream)
      (manager.ingestUpstream jobs jobId caller now upstream).2 := by
  unfold CrawlJobManager.ingestUpstream
  split
  · exact .none (Nat.le_refl _)
  · next state hstate =>
      have hget := resolve_get hstate
      split
      · exact .none (Nat.le_refl _)
      · next hopen =>
          rw [Bool.not_eq_true] at hopen
          split
          · exact fail_effect hget hopen rfl rfl rfl
          · next batch _ =>
              dsimp only
              split
              · exact fail_effect hget hopen rfl rfl rfl
              · next hcap =>
                  split
                  · exact fail_effect hget hopen rfl rfl rfl
                  · next hbudgets =>
                      obtain ⟨hpages, hbytes, hchars⟩ := validateBudgets_ok hbudgets
                      split
                      · exact .none (Nat.le_refl _)
                      · split
                        · exact .none (Nat.le_refl _)
                        · refine .revised hget ⟨hopen, rfl, List.prefix_append _ _, fun _ => ?_⟩ ?_
                          · exact ⟨Nat.le_of_not_lt hcap, hpages, hbytes, hchars⟩
                          · exact fun hnot => absurd rfl hnot

theorem cancel_effect {target : CrawlJobStatus}
    {flag : InternalCrawlJobState → InternalCrawlJobState}
    (hidentity : ∀ state, identityOf (flag state) = identityOf state)
    (hbudgets : ∀ state, (flag state).budgets = state.budgets)
    (hpartials : ∀ state, (flag state).partials = state.partials) :
    Effect manager jobs call (jobs.cancel jobId caller now target flag).2 := by
  unfold CrawlJobs.cancel
  split
  · exact .none (Nat.le_refl _)
  · next state hstate =>
      split
      · exact .none (Nat.le_refl _)
      · next htransition =>
          exact .revised (resolve_get hstate) (.of_same (validateTransition_ok htransition)
            (hidentity state) (hbudgets state) (hpartials state)) fun _ => hpartials state

theorem cancelUpstream_effect {answer : Except Fault (Option ProviderCancelAcknowledgment)} :
    Effect manager jobs call (manager.requestUpstreamCancel jobs jobId caller now answer).2 := by
  unfold CrawlJobManager.requestUpstreamCancel
  split
  · exact .none (Nat.le_refl _)
  · next state hstate =>
      have hget := resolve_get hstate
      split
      · exact .none (Nat.le_refl _)
      · next hopen =>
          rw [Bool.not_eq_true] at hopen
          split
          · exact .none (Nat.le_refl _)
          · exact .revised hget (.of_same hopen rfl rfl rfl) fun _ => rfl
          · split
            · exact .none (Nat.le_refl _)
            · exact .revised hget (.of_same hopen rfl rfl rfl) fun _ => rfl

variable {input : CreateCrawlJobInput}

/-- The budgets of a new job have been checked. -/
theorem checkInput_budgets {found : String × Option String}
    (h : manager.checkInput input = .ok found) :
    1 ≤ input.budgets.maxPages ∧ 1 ≤ input.budgets.maxBytes ∧ 1 ≤ input.budgets.maxOutputChars := by
  simp only [CrawlJobManager.checkInput, bind, Except.bind, pure, Except.pure, throw, throwThe,
    MonadExceptOf.throw] at h
  have hbudgets : validateBudgets input.budgets = .ok () := by
    repeat' split at h
    all_goals first
      | assumption
      | cases h
  unfold validateBudgets at hbudgets
  split at hbudgets
  · cases hbudgets
  split at hbudgets
  · cases hbudgets
  split at hbudgets
  · cases hbudgets
  · omega

variable {options : CrawlResultPageOptions} {pages : List CrawlResultPage} {page : CrawlResultPage}
  {around : Surroundings} {offset : Nat}

theorem newState_within {number : Nat} {key : Option String}
    (hbudgets : 1 ≤ input.budgets.maxPages ∧ 1 ≤ input.budgets.maxBytes ∧
      1 ≤ input.budgets.maxOutputChars) (h : manager.newState number input key around = .ok state) :
    Within state := by
  have hstate : state.partials = [] ∧ state.budgets = input.budgets := by
    simp only [CrawlJobManager.newState, bind, Except.bind, pure, Except.pure] at h
    repeat' split at h
    all_goals cases h <;> exact ⟨rfl, rfl⟩
  obtain ⟨hpartials, heq⟩ := hstate
  obtain ⟨hpages, hbytes, hchars⟩ := hbudgets
  refine ⟨hpartials ▸ Nat.zero_le _, ?_, ?_, ?_⟩
  all_goals rw [hpartials, heq]
  · exact Int.le_trans (by decide) hpages
  · exact Int.le_trans (by decide) hbytes
  · exact Int.le_trans (by decide) hchars

theorem create_effect : Effect manager jobs call (manager.create jobs input around).2 := by
  unfold CrawlJobManager.create
  split
  · exact .none (Nat.le_refl _)
  · next seedUrl key hkey =>
      split
      · exact .none (Nat.le_refl _)
      · split
        · exact .none (Nat.le_refl _)
        · split
          · exact .none (Nat.le_succ _)
          · next state hstate =>
              exact .created (CrawlJobManager.newState_ok hstate).1
                (newState_within (checkInput_budgets hkey) hstate)

/-- What a call can do. -/
theorem step_effect (call : CrawlCall) : Effect manager jobs call (manager.step jobs call) := by
  cases call with
  | create input around => exact create_effect
  | status jobId caller now => exact .none (Nat.le_refl _)
  | result jobId caller options now => exact .none (Nat.le_refl _)
  | ingestUpstream jobId caller now upstream => exact ingest_effect
  | cancelCallerWait jobId caller now =>
    exact cancel_effect (fun _ => rfl) (fun _ => rfl) fun _ => rfl
  | cancelGroundlanePolling jobId caller now =>
    exact cancel_effect (fun _ => rfl) (fun _ => rfl) fun _ => rfl
  | requestUpstreamCancel jobId caller now answer => exact cancelUpstream_effect

/-! ## Every run -/

/-- What every call keeps. -/
structure Sound (manager : CrawlJobManager) (jobs : CrawlJobs) : Prop where
  free : CrawlJobManager.Free manager jobs
  keyed : ∀ jobId state, jobs.store.get jobId = some state → state.groundlaneJobId = jobId
  within : ∀ jobId state, jobs.store.get jobId = some state → Within state

theorem sound_initial : Sound manager CrawlJobManager.initialJobs := by
  have hempty : ∀ jobId, CrawlJobManager.initialJobs.store.get jobId = none := fun _ => rfl
  refine ⟨fun _ _ => hempty _, fun jobId state h => ?_, fun jobId state h => ?_⟩
  · rw [hempty] at h
    cases h
  · rw [hempty] at h
    cases h

/-- The jobs after one of them is stored. -/
theorem get_put (jobId : String) : (jobs.put state).store.get jobId =
      if state.groundlaneJobId = jobId then some state else jobs.store.get jobId :=
  get_set jobs.store state jobId

/-- A job that is revised keeps its id. -/
theorem Sound.revised_id (h : Sound manager jobs) (hget : jobs.store.get jobId = some old)
    (hrevises : Revises old new) : new.groundlaneJobId = jobId :=
  (congrArg Identity.jobId hrevises.identity).trans (h.keyed jobId old hget)

theorem Sound.effect (h : Sound manager jobs) {next : CrawlJobs}
    (heffect : Effect manager jobs call next) : Sound manager next := by
  cases heffect with
  | none hnext =>
    exact ⟨fun number hle => h.free number (Nat.le_trans hnext hle), h.keyed, h.within⟩
  | @created state hid hwithin =>
    refine ⟨fun number hle => ?_, fun jobId found hfound => ?_, fun jobId found hfound => ?_⟩
    · show (jobs.store.set state).get _ = _
      have hne : state.groundlaneJobId ≠ manager.jobIdOf number := by
        rw [hid]
        exact fun heq => absurd (CrawlJobManager.jobIdOf_inj heq) (Nat.ne_of_lt hle)
      rw [get_set, if_neg (show JobState.jobId state ≠ _ from hne)]
      exact h.free number (Nat.le_of_succ_le hle)
    · rw [get_set] at hfound
      split at hfound
      · next heq => exact Option.some.inj hfound ▸ heq
      · exact h.keyed jobId found hfound
    · rw [get_set] at hfound
      split at hfound
      · exact Option.some.inj hfound ▸ hwithin
      · exact h.within jobId found hfound
  | @revised changed old new hget hrevises hpartials =>
    have hnew := h.revised_id hget hrevises
    refine ⟨fun number hle => ?_, fun jobId found hfound => ?_, fun jobId found hfound => ?_⟩
    · have hne : new.groundlaneJobId ≠ manager.jobIdOf number := by
        rw [hnew]
        intro heq
        have := h.free number hle
        rw [← heq, hget] at this
        cases this
      rw [get_put, if_neg hne]
      exact h.free number hle
    · rw [get_put] at hfound
      split at hfound
      · next heq => exact Option.some.inj hfound ▸ heq
      · exact h.keyed jobId found hfound
    · rw [get_put] at hfound
      split at hfound
      · exact Option.some.inj hfound ▸ hrevises.within (h.within changed old hget)
      · exact h.within jobId found hfound

theorem Sound.step (h : Sound manager jobs) (call : CrawlCall) :
    Sound manager (manager.step jobs call) := h.effect (step_effect call)

theorem Sound.run (h : Sound manager jobs) (calls : List CrawlCall) :
    Sound manager (Sequential.run manager.step jobs calls) :=
  run_keeps (Sound manager) (fun _ call h => h.step call) h

/-- What is left of a job later: a job with the same identity, which has at least its partial
results, and is the same if the job was terminal. -/
structure Grows (old new : InternalCrawlJobState) : Prop where
  identity : identityOf new = identityOf old
  appends : old.partials <+: new.partials
  frozen : old.status.terminal = true → new.partials = old.partials ∧ new.status = old.status

theorem Grows.refl (state : InternalCrawlJobState) : Grows state state :=
  ⟨rfl, List.prefix_refl _, fun _ => ⟨rfl, rfl⟩⟩

theorem Grows.trans {first second third : InternalCrawlJobState} (h : Grows first second)
    (h' : Grows second third) : Grows first third where
  identity := h'.identity.trans h.identity
  appends := h.appends.trans h'.appends
  frozen := fun hterminal => by
    obtain ⟨hpartials, hstatus⟩ := h.frozen hterminal
    obtain ⟨hpartials', hstatus'⟩ := h'.frozen (hstatus.symm ▸ hterminal)
    exact ⟨hpartials'.trans hpartials, hstatus'.trans hstatus⟩

/-- A call keeps every job, and its partial results if it pulls no batch into it. -/
theorem Sound.get_step (h : Sound manager jobs) {old : InternalCrawlJobState}
    (hget : jobs.store.get jobId = some old) (call : CrawlCall) :
    ∃ new, (manager.step jobs call).store.get jobId = some new ∧ Grows old new ∧
      (¬ call.ingests jobId → new.partials = old.partials) := by
  have heffect : Effect manager jobs call (manager.step jobs call) := step_effect call
  generalize manager.step jobs call = next at heffect
  cases heffect with
  | none hnext => exact ⟨old, hget, Grows.refl old, fun _ => rfl⟩
  | @created state hid hwithin =>
    refine ⟨old, ?_, Grows.refl old, fun _ => rfl⟩
    show (jobs.store.set state).get jobId = some old
    have hne : state.groundlaneJobId ≠ jobId := by
      intro heq
      have := h.free jobs.nextId (Nat.le_refl _)
      rw [← hid, heq, hget] at this
      cases this
    rw [get_set, if_neg (show JobState.jobId state ≠ _ from hne)]
    exact hget
  | @revised changed before new hbefore hrevises hpartials =>
    have hnew := h.revised_id hbefore hrevises
    by_cases heq : changed = jobId
    · subst heq
      cases hbefore.symm.trans hget
      refine ⟨new, by rw [get_put, if_pos hnew],
        ⟨hrevises.identity, hrevises.appends, fun hterminal => ?_⟩, hpartials⟩
      exact absurd (hterminal.symm.trans hrevises.unfinished) nofun
    · exact ⟨old, by rw [get_put, if_neg (hnew ▸ heq), hget], Grows.refl old, fun _ => rfl⟩

theorem Sound.get_run (h : Sound manager jobs) {old : InternalCrawlJobState}
    (hget : jobs.store.get jobId = some old) (calls : List CrawlCall) :
    ∃ new, (Sequential.run manager.step jobs calls).store.get jobId = some new ∧ Grows old new ∧
      ((∀ call ∈ calls, ¬ call.ingests jobId) → new.partials = old.partials) := by
  induction calls generalizing jobs old with
  | nil => exact ⟨old, hget, Grows.refl old, fun _ => rfl⟩
  | cons call calls ih =>
    obtain ⟨_, hmiddle, hfirst, hkept⟩ := h.get_step hget call
    obtain ⟨new, hnew, hlater, hkept'⟩ := ih (h.step call) hmiddle
    refine ⟨new, hnew, hfirst.trans hlater, fun hnone => ?_⟩
    rw [hkept' fun call hcall => hnone call (List.mem_cons_of_mem _ hcall),
      hkept (hnone call List.mem_cons_self)]

/-! ## Following the cursors -/

/-- A page of partial results, and the offset of the next one. -/
def pageAt (partials : List CrawlPartialResult) (offset size : Nat) :
    Except Fault (List CrawlPartialResult × Option Nat) :=
  if size = 0 then .error .other
  else .ok ((partials.drop offset).take size,
    if offset + size < partials.length then some (offset + size) else none)

theorem pageAt_slice {partials : List CrawlPartialResult} {offset size : Nat}
    {page : List CrawlPartialResult × Option Nat} (h : pageAt partials offset size = .ok page) :
    ∃ length, Paging.IsSlice partials offset length page.1 page.2 := by
  unfold pageAt at h
  split at h
  · cases h
  · next hsize =>
      cases h
      exact ⟨size, rfl, rfl, fun _ => Nat.pos_of_ne_zero hsize⟩

/-- The cursor of an offset. -/
def cursorOf (offset : Nat) : String := "page:" ++ toString offset

/-- A cursor that `result` hands out is read as its offset. -/
theorem parse_cursorOf (h : offset < 2 ^ 1024 - 2 ^ 970) :
    parseResultCursor (some (cursorOf offset)) = .ok offset := by
  have hdigits : (toString offset).toList = Nat.toDigits 10 offset := by
    simp [toString, Nat.repr]
  have hlist : (cursorOf offset).toList = "page:".toList ++ Nat.toDigits 10 offset := by
    unfold cursorOf
    rw [String.toList_append, hdigits]
  have hsome : cursorDigits (cursorOf offset) = some (Nat.toDigits 10 offset) := by
    unfold cursorDigits
    rw [hlist]
    refine if_pos ⟨rfl, Nat.toDigits_ne_nil, ?_⟩
    exact List.all_eq_true.2 fun c hc => Nat.isDigit_of_mem_toDigits (by decide) (by decide) hc
  unfold parseResultCursor
  dsimp only
  rw [hsome]
  dsimp only
  rw [Nat.ofDigitChars_ten_toDigits, if_neg (Nat.not_le.2 h)]

/-- What a page of `result` is. -/
theorem result_ok (h : jobs.result jobId caller options now = .ok page) :
    ∃ state offset size, jobs.resolve jobId caller now = .ok state ∧
      parseResultCursor options.cursor = .ok offset ∧
      page.job = toPublicCrawlJob state ∧
      pageAt state.partials offset size = .ok (page.items, if offset + size < state.partials.length
        then some (offset + size) else none) ∧
      page.nextCursor = if offset + size < state.partials.length
        then some (cursorOf (offset + size)) else none := by
  unfold CrawlJobs.result at h
  split at h
  · cases h
  · next state hstate =>
      split at h
      · cases h
      · next size _ =>
          split at h
          · cases h
          · next hrange =>
              split at h
              · cases h
              · next offset hoffset =>
                  cases h
                  refine ⟨state, offset, size.toNat, hstate, hoffset, rfl, ?_, rfl⟩
                  unfold pageAt
                  rw [if_neg (by omega)]

/-- Pages that a caller reads one after the other: each asks for the cursor that the page before
it handed out, and between two of them no batch is pulled into the job. -/
inductive Reads (manager : CrawlJobManager) (jobId : String) (caller : CrawlJobCaller) :
    CrawlJobs → Option String → List CrawlResultPage → Prop
  | last {jobs : CrawlJobs} {cursor : Option String} {pageSize : Option Number} {now : Int}
    {page : CrawlResultPage} (h : jobs.result jobId caller ⟨cursor, pageSize⟩ now = .ok page)
    (hlast : page.nextCursor = none) : Reads manager jobId caller jobs cursor [page]
  | more {jobs : CrawlJobs} {cursor : Option String} {pageSize : Option Number} {now : Int}
    {page : CrawlResultPage} {following : String} {between : List CrawlCall}
    {pages : List CrawlResultPage}
    (h : jobs.result jobId caller ⟨cursor, pageSize⟩ now = .ok page)
    (hnext : page.nextCursor = some following)
    (hbetween : ∀ call ∈ between, ¬ call.ingests jobId)
    (hrest : Reads manager jobId caller (run manager.step jobs between) (some following) pages) :
    Reads manager jobId caller jobs cursor (page :: pages)

/-- A caller who follows the cursors follows the pages of the partial results. -/
theorem Reads.follows {cursor : Option String} (h : Reads manager jobId caller jobs cursor pages)
    (hsound : Sound manager jobs) (hget : jobs.store.get jobId = some state)
    (hoffset : parseResultCursor cursor = .ok offset) :
    ∃ sizes parts, Paging.Follows (pageAt state.partials) Prod.snd offset sizes parts ∧
      parts.map Prod.fst = pages.map CrawlResultPage.items := by
  induction h generalizing state offset with
  | last h hlast =>
    obtain ⟨found, start, size, hfound, hstart, -, hpage, hnext⟩ := result_ok h
    cases (resolve_get hfound).symm.trans hget
    cases hstart.symm.trans hoffset
    refine ⟨[size], _, .last hpage ?_, rfl⟩
    rw [hlast] at hnext
    split at hnext
    · cases hnext
    · next hend => exact if_neg hend
  | @more jobs cursor pageSize now page following between pages h hnext hbetween hrest ih =>
    obtain ⟨_, _, size, hfound, hstart, -, hpage, hcursor⟩ := result_ok h
    cases (resolve_get hfound).symm.trans hget
    cases hstart.symm.trans hoffset
    obtain ⟨_, hlater, _, hkept⟩ := hsound.get_run hget between
    rw [hnext] at hcursor
    split at hcursor
    · next hmore =>
        cases hcursor
        -- There are at most a thousand partial results, so the offset is read back.
        have hcap := (hsound.within jobId state hget).count
        have hbound : offset + size < 2 ^ 1024 - 2 ^ 970 := by
          have : maxCrawlPartials = 1000 := rfl
          omega
        obtain ⟨sizes, parts, hfollows, hitems⟩ :=
          ih (hsound.run between) hlater (parse_cursorOf hbound)
        rw [hkept hbetween] at hfollows
        refine ⟨size :: sizes, _ :: parts, .more hpage (if_pos hmore) hfollows, ?_⟩
        rw [List.map_cons, List.map_cons, hitems]
    · cases hcursor

/-- The pages hold every partial result once, in order. -/
theorem Reads.complete (h : Reads manager jobId caller jobs none pages)
    (hsound : Sound manager jobs) (hget : jobs.store.get jobId = some state) :
    (pages.map CrawlResultPage.items).flatten = state.partials ∧
      pages.length ≤ state.partials.length + 1 := by
  obtain ⟨_, parts, hfollows, hitems⟩ := h.follows hsound hget rfl
  have hcontent : (parts.map Prod.fst).flatten = state.partials.drop 0 :=
    hfollows.content_eq fun offset size page hpage => pageAt_slice hpage
  have hlength : parts.length ≤ state.partials.length - 0 + 1 :=
    hfollows.length_le fun offset size page hpage => pageAt_slice hpage
  refine ⟨by rw [← hitems, hcontent, List.drop_zero], ?_⟩
  have : parts.length = pages.length := by
    simpa only [List.length_map] using congrArg List.length hitems
  omega

/-- A caller who may see a job sees it until it expires. -/
theorem resolve_later {later : CrawlJobs} {now now' : Int}
    (h : jobs.resolve jobId caller now = .ok old) (hget : later.store.get jobId = some new)
    (hidentity : identityOf new = identityOf old) (hnow : now' < old.expiresAt) :
    later.resolve jobId caller now' = .ok new := by
  have hold := resolve_get h
  have howner : new.ownerId = old.ownerId := congrArg Identity.ownerId hidentity
  have hbinding : new.credentialBinding = old.credentialBinding :=
    congrArg Identity.credentialBinding hidentity
  have hexpires : new.expiresAt = old.expiresAt := congrArg Identity.expiresAt hidentity
  unfold CrawlJobs.resolve at h ⊢
  rw [hold] at h
  rw [hget]
  dsimp only at h ⊢
  rw [howner, hbinding, hexpires]
  split at h
  · cases h
  · split at h
    · cases h
    · next hcaller =>
        rw [if_neg hcaller, show validateCrawlJobNotExpired old.expiresAt now' = .ok () from
          if_neg (Int.not_le.2 hnow)]

/-- The cursor of a page is accepted until the job expires. -/
theorem result_continues (hsound : Sound manager jobs) {now now' : Int} {following : String}
    (h : jobs.result jobId caller options now = .ok page) (hnext : page.nextCursor = some following)
    (between : List CrawlCall) {size : Int} (hsize : 1 ≤ size ∧ size ≤ maxCrawlPageSize)
    (hnow : now' < page.job.expiresAt) :
    ((run manager.step jobs between).result jobId caller ⟨some following, some (some size)⟩
      now').isOk := by
  obtain ⟨state, start, width, hstate, -, hjob, -, hcursor⟩ := result_ok h
  obtain ⟨later, hlater, hgrows, -⟩ := hsound.get_run (resolve_get hstate) between
  have hresolve : (run manager.step jobs between).resolve jobId caller now' = .ok later := by
    refine resolve_later hstate hlater hgrows.identity ?_
    rw [hjob] at hnow
    exact hnow
  have hparse : ∃ offset, parseResultCursor (some following) = .ok offset := by
    rw [hnext] at hcursor
    split at hcursor
    · next hmore =>
        cases hcursor
        have hcap := (hsound.within jobId state (resolve_get hstate)).count
        refine ⟨start + width, parse_cursorOf ?_⟩
        have : maxCrawlPartials = 1000 := rfl
        omega
    · cases hcursor
  obtain ⟨_, hoffset⟩ := hparse
  unfold CrawlJobs.result
  rw [hresolve]
  dsimp only [Option.getD_some]
  rw [if_neg (by omega), hoffset]
  rfl

end

/-! ## Every sequence of calls -/

/-- What a manager guarantees after some calls. -/
structure CrawlJobsBounded (manager : CrawlJobManager) (calls : List CrawlCall) : Prop where
  /-- Every stored job is within the cap and its budgets. -/
  within : ∀ jobId state, (manager.after calls).store.get jobId = some state → Within state
  /-- Partial results are only appended, and a terminal job keeps them and its status. -/
  grows : ∀ before later, calls = before ++ later → ∀ jobId old,
    (manager.after before).store.get jobId = some old →
      ∃ new, (manager.after calls).store.get jobId = some new ∧ Grows old new
  /-- Following the cursors reads every partial result once, in order. -/
  paged : ∀ jobId caller pages, Reads manager jobId caller (manager.after calls) none pages →
    ∃ state, (manager.after calls).store.get jobId = some state ∧
      (pages.map CrawlResultPage.items).flatten = state.partials ∧
      pages.length ≤ state.partials.length + 1
  /-- The cursor of a page is accepted with every page size until the job expires. -/
  continues : ∀ jobId caller options now page following,
    (manager.after calls).result jobId caller options now = .ok page →
    page.nextCursor = some following → ∀ between size now', 1 ≤ size → size ≤ maxCrawlPageSize →
      now' < page.job.expiresAt →
      ((manager.after (calls ++ between)).result jobId caller ⟨some following, some (some size)⟩
        now').isOk

/-- After every sequence of calls, with whatever the provider answers, crawl jobs are bounded and
their pages are complete. -/
theorem crawl_jobs_bounded (manager : CrawlJobManager) (calls : List CrawlCall) :
    CrawlJobsBounded manager calls := by
  have hsound : Sound manager (manager.after calls) := sound_initial.run calls
  refine ⟨hsound.within, ?_, ?_, ?_⟩
  · intro before later heq jobId old hget
    have hbefore : Sound manager (manager.after before) := sound_initial.run before
    obtain ⟨new, hnew, hgrows, -⟩ := hbefore.get_run hget later
    refine ⟨new, ?_, hgrows⟩
    rw [heq]
    unfold CrawlJobManager.after
    rw [run_append]
    exact hnew
  · intro jobId caller pages hreads
    have hjob : ∃ state, (manager.after calls).store.get jobId = some state := by
      cases hreads with
      | last h =>
          obtain ⟨state, -, -, hstate, -⟩ := result_ok h
          exact ⟨state, resolve_get hstate⟩
      | more h =>
          obtain ⟨state, -, -, hstate, -⟩ := result_ok h
          exact ⟨state, resolve_get hstate⟩
    obtain ⟨state, hget⟩ := hjob
    exact ⟨state, hget, hreads.complete hsound hget⟩
  · intro jobId caller options now page following h hnext between size now' hleast hmost hnow
    have := result_continues hsound h hnext between ⟨hleast, hmost⟩ hnow
    unfold CrawlJobManager.after
    rw [run_append]
    exact this

end Groundlane.Jobs
