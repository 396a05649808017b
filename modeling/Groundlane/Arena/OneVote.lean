import Groundlane.Arena.Votes
import Groundlane.Interleaving.System

/-!
# A match is voted on once

Two handlers may both read a match as pending and both write their batch, which does not look at
the match again; then the match has two votes and moves the ratings twice
(`match_voted_twice`). It has at most one as long as every batch finds its match not yet voted on,
as the handler has read it (`rated_at_most_once`).
-/

namespace Groundlane.Arena

open Interleaving Interleaving.System

abbrev VoteEvent : Type := Event VoteRequest VoteQuery VoteQuery.Res Fault VoteResponse

abbrev VoteHistory : Type := List (Nat × VoteEvent)

abbrev VoteWorld : Type := World VoteRequest VoteQuery VoteQuery.Res Fault VoteResponse ArenaDb

/-! ## Ballots -/

/-- The ballot that an event commits. -/
def ballotOf : VoteEvent → Option Ballot
  | .effect (.batch ballot) (.ok _) => some ballot
  | _ => none

/-- The ballots that were committed, the oldest first. -/
def committed (history : VoteHistory) : List Ballot :=
  (history.filterMap fun entry => ballotOf entry.2).reverse

/-- The match of a batch is not yet voted on when the batch commits. -/
def stillOpen (event : VoteEvent) (world : VoteWorld) : Bool :=
  (ballotOf event).all fun ballot =>
    (world.state.matchRows.find ballot.vote.matchId).all fun row => row.status ≠ .voted

variable {event : VoteEvent} {ballot : Ballot}

theorem committed_of_none {i : Nat} {history : VoteHistory} (h : ballotOf event = none) :
    committed ((i, event) :: history) = committed history := by
  unfold committed
  rw [List.filterMap_cons_none (a := (i, event)) h]

theorem committed_of_some {i : Nat} {history : VoteHistory} (h : ballotOf event = some ballot) :
    committed ((i, event) :: history) = committed history ++ [ballot] := by
  unfold committed
  rw [List.filterMap_cons_some (a := (i, event)) h, List.reverse_cons]

/-! ## The batch -/

/-- A match after the batch of another or the same match. -/
theorem find_markVoted (matchId other : String) (rows : Sql.Table String MatchRow MatchRow.id) :
    (markVoted matchId rows).find other =
      (rows.find other).map fun row =>
        if decide (row.id = matchId) then { row with status := .voted } else row :=
  Sql.Table.find_update ..

/-- A match that is voted on stays so. -/
theorem voted_markVoted {matchId other : String} {rows : Sql.Table String MatchRow MatchRow.id}
    {row : MatchRow} (hfind : rows.find other = some row) (hvoted : row.status = .voted) :
    ∃ after, (markVoted matchId rows).find other = some after ∧ after.status = .voted := by
  refine ⟨_, (find_markVoted ..).trans (congrArg (Option.map _) hfind), ?_⟩
  dsimp only
  split
  · rfl
  · exact hvoted

/-- What a batch leaves. -/
structure Casts (db : ArenaDb) (ballot : Ballot) (after : ArenaDb) : Prop where
  providers : after.providers = ballot.rate db.providers
  votes : after.votes.rows = db.votes.rows ++ [ballot.vote]
  matchRows : after.matchRows = markVoted ballot.vote.matchId db.matchRows
  found : ∃ row, db.matchRows.find ballot.vote.matchId = some row

/-- A batch that commits. -/
theorem casts_of_cast {db after : ArenaDb} (h : db.cast ballot = some after) :
    Casts db ballot after := by
  unfold ArenaDb.cast at h
  by_cases hnone : (db.matchRows.find ballot.vote.matchId).isNone = true
  · rw [if_pos hnone] at h
    cases h
  · rw [if_neg hnone] at h
    obtain ⟨inserted, hinsert, rfl⟩ := Option.map_eq_some_iff.1 h
    have hfree : db.votes.find ballot.vote.id = none := by
      by_contra htaken
      rw [Sql.Table.insert, dif_neg htaken] at hinsert
      cases hinsert
    rw [Sql.Table.insert_of_free hfree] at hinsert
    cases hinsert
    refine ⟨rfl, rfl, rfl, ?_⟩
    cases hfind : db.matchRows.find ballot.vote.matchId with
    | none => exact absurd (hfind ▸ rfl) hnone
    | some row => exact ⟨row, rfl⟩

/-! ## Runs -/

/-- The tables are those of the beginning with the committed ballots. -/
structure Recorded (start now : ArenaDb) (history : VoteHistory) : Prop where
  providers : now.providers =
    (committed history).foldl (fun rows ballot => ballot.rate rows) start.providers
  votes : now.votes.rows = start.votes.rows ++ (committed history).map Ballot.vote
  voted : ∀ ballot ∈ committed history, ∃ row,
    now.matchRows.find ballot.vote.matchId = some row ∧ row.status = .voted
  once : ∀ matchId,
    (committed history).countP (fun ballot => ballot.vote.matchId = matchId) ≤ 1

variable {start now : ArenaDb} {history : VoteHistory} {i : Nat}

/-- What commits no ballot and leaves the tables. -/
theorem Recorded.quiet (h : Recorded start now history) (hevent : ballotOf event = none) :
    Recorded start now ((i, event) :: history) := by
  have hsame : committed ((i, event) :: history) = committed history := committed_of_none hevent
  exact ⟨by rw [hsame, h.providers], by rw [hsame, h.votes],
    by rw [hsame]; exact h.voted, by rw [hsame]; exact h.once⟩

/-- A ballot on a match that is not yet voted on. -/
theorem Recorded.cast (h : Recorded start now history) {after : ArenaDb}
    (hcasts : Casts now ballot after)
    (hopen : ∀ row, now.matchRows.find ballot.vote.matchId = some row → row.status ≠ .voted) :
    Recorded start after ((i, .effect (.batch ballot) (.ok ())) :: history) := by
  have hmore : committed ((i, .effect (.batch ballot) (.ok ())) :: history) =
      committed history ++ [ballot] := committed_of_some rfl
  -- Any earlier ballot on the match would have marked it.
  have hfirst : ∀ earlier ∈ committed history, earlier.vote.matchId ≠ ballot.vote.matchId := by
    intro earlier hmem hsame
    obtain ⟨row, hfind, hvoted⟩ := h.voted earlier hmem
    exact hopen row (hsame ▸ hfind) hvoted
  refine ⟨?_, ?_, ?_, fun matchId => ?_⟩
  · rw [hmore, List.foldl_append, hcasts.providers, h.providers]
    rfl
  · rw [hmore, hcasts.votes, h.votes, List.map_append, List.append_assoc]
    rfl
  · intro other hother
    rw [hmore] at hother
    rw [hcasts.matchRows]
    rcases List.mem_append.1 hother with hold | hnew
    · obtain ⟨row, hfind, hvoted⟩ := h.voted other hold
      exact voted_markVoted hfind hvoted
    · rw [List.mem_singleton.1 hnew]
      obtain ⟨row, hfind⟩ := hcasts.found
      refine ⟨_, (find_markVoted ..).trans (congrArg (Option.map _) hfind), ?_⟩
      dsimp only
      rw [if_pos (decide_eq_true (Sql.Table.find_key hfind))]
  · rw [hmore, List.countP_append, List.countP_singleton]
    by_cases hmatch : ballot.vote.matchId = matchId
    · have hnone : (committed history).countP (fun ballot => ballot.vote.matchId = matchId) = 0 :=
        List.countP_eq_zero.2 fun earlier hmem hsame =>
          hfirst earlier hmem ((of_decide_eq_true hsame).trans hmatch.symm)
      rw [hnone]
      split <;> omega
    · rw [decide_eq_false hmatch]
      exact h.once matchId

/-- The batch of a ballot, if it commits on a match that is not yet voted on. -/
theorem Recorded.batch (h : Recorded start now history) (failure : Option Fault) (ballot : Ballot)
    (hopen : stillOpen (.effect (.batch ballot) (now.batch failure ballot).2)
      (⟨now, history⟩ : VoteWorld) = true) :
    Recorded start (now.batch failure ballot).1
      ((i, .effect (.batch ballot) (now.batch failure ballot).2) :: history) := by
  unfold ArenaDb.batch at hopen ⊢
  cases failure with
  | some fault => exact h.quiet rfl
  | none =>
    cases hcast : now.cast ballot with
    | none => exact h.quiet rfl
    | some after =>
      dsimp only at hopen ⊢
      rw [hcast] at hopen
      refine h.cast (casts_of_cast hcast) fun row hfind => ?_
      have hall : (now.matchRows.find ballot.vote.matchId).all
        (fun row => row.status ≠ .voted) = true := hopen
      rw [hfind] at hall
      exact of_decide_eq_true hall

/-- One step of a run. -/
theorem Recorded.act {arithmetic : EloArithmetic} {sha256 : String → String}
    {config : Config VoteRequest VoteQuery VoteQuery.Res Fault VoteResponse ArenaDb}
    (h : Recorded start config.state config.history) {action : Action VoteRequest VoteOutside}
    (hopen : ∀ i event,
      ((handlers arithmetic sha256).act config action).history = (i, event) :: config.history →
      stillOpen event config.toWorld = true) :
    Recorded start ((handlers arithmetic sha256).act config action).state
      ((handlers arithmetic sha256).act config action).history := by
  have hacts : (handlers arithmetic sha256).Acts config
    ((handlers arithmetic sha256).act config action) := acts_act config action
  revert hopen
  generalize (handlers arithmetic sha256).act config action = after at hacts ⊢
  intro hopen
  cases hacts with
  | idle => exact h
  | invoke call => exact h.quiet rfl
  | response j call outcome _ => exact h.quiet rfl
  | effect j call op next oracle _ =>
    cases op with
    | selectMatch _ => exact h.quiet rfl
    | voterHash _ => exact h.quiet rfl
    | selectVote _ _ => exact h.quiet rfl
    | selectProvider _ => exact h.quiet rfl
    | stamp => exact h.quiet rfl
    | batch ballot => exact h.batch oracle.failure ballot (hopen _ _ rfl)

/-- In every run of handlers, on any matches, whose batches find their match not yet voted on, each
match gets at most one vote; the votes are those of the committed ballots, and the ratings are
those of the beginning with the updates of these ballots. -/
theorem rated_at_most_once (arithmetic : EloArithmetic) (sha256 : String → String)
    (start : ArenaDb) (actions : List (Action VoteRequest VoteOutside))
    (hmeets : (handlers arithmetic sha256).Meets
      (fun _ event world => stillOpen event world = true) (Config.initial start) actions) :
    let after := (handlers arithmetic sha256).run (Config.initial start) actions
    (∀ matchId,
      (committed after.history).countP (fun ballot => ballot.vote.matchId = matchId) ≤ 1) ∧
    after.state.votes.rows = start.votes.rows ++ (committed after.history).map Ballot.vote ∧
    after.state.providers =
      (committed after.history).foldl (fun rows ballot => ballot.rate rows) start.providers := by
  have hrun : ∀ (actions : List (Action VoteRequest VoteOutside)) config,
      Recorded start config.state config.history →
      (handlers arithmetic sha256).Meets (fun _ event world => stillOpen event world = true)
        config actions →
      Recorded start ((handlers arithmetic sha256).run config actions).state
        ((handlers arithmetic sha256).run config actions).history := by
    intro actions
    induction actions with
    | nil => exact fun _ h _ => h
    | cons action rest ih => exact fun config h hmeets => ih _ (h.act hmeets.1) hmeets.2
  have hrecorded := hrun actions _
    ⟨rfl, (List.append_nil _).symm, fun _ hmem => absurd hmem List.not_mem_nil,
      fun _ => Nat.zero_le _⟩ hmeets
  exact ⟨hrecorded.once, hrecorded.votes, hrecorded.providers⟩

/-! ### Samples -/

/-- Two providers with the same rating and a match between them. -/
def oneMatch : ArenaDb where
  providers :=
    ⟨[⟨"exa", "Exa", fun _ => 1500, fun _ => 0, none⟩,
      ⟨"brave", "Brave Search", fun _ => 1500, fun _ => 0, none⟩], by decide⟩
  matchRows := ⟨[⟨"match", .search, "exa", "brave", .pending, none, none⟩], by decide⟩
  votes := .empty

/-- A change of sixteen points for either side. -/
def sixteen : EloArithmetic :=
  ⟨fun _ _ _ _ => 16, fun _ _ _ _ => -16⟩

/-- A vote for the first provider from an address. -/
def voteFrom (ip : String) : Action VoteRequest VoteOutside :=
  .invoke ⟨"match", "a", some ip⟩

/-- Handler `i` goes on; an identifier that it asks for is `id`. -/
def voteStep (i : Nat) (id : String) : Action VoteRequest VoteOutside :=
  .advance i ⟨none, 0, id⟩

/-- One handler after the other: the second finds the match voted on. -/
theorem rated_at_most_once_sample :
    (committed ((handlers sixteen id).run (Config.initial oneMatch)
      ([voteFrom "x"] ++ List.replicate 8 (voteStep 0 "1") ++
        [voteFrom "y"] ++ List.replicate 2 (voteStep 1 "2"))).history).countP
      (fun ballot => ballot.vote.matchId = "match") ≤ 1 :=
  (rated_at_most_once sixteen id oneMatch _ (meets_of_checks (by decide +kernel))).1 "match"

/-- Two handlers that both have read the match before either writes. -/
theorem match_voted_twice : ¬ ∀ (arithmetic : EloArithmetic) (sha256 : String → String)
    (start : ArenaDb) (actions : List (Action VoteRequest VoteOutside)) (matchId : String),
    (committed ((handlers arithmetic sha256).run (Config.initial start) actions).history).countP
      (fun ballot => ballot.vote.matchId = matchId) ≤ 1 := by
  intro h
  have hle := h sixteen id oneMatch
    ([voteFrom "x", voteFrom "y"] ++ List.replicate 6 (voteStep 0 "1") ++
      List.replicate 6 (voteStep 1 "2") ++ [voteStep 0 "1", voteStep 1 "2"]) "match"
  exact absurd hle (by decide +kernel)

end Groundlane.Arena
