import Groundlane.Calendar.Utc
import Groundlane.Durable.Store
import Groundlane.Sql.Table

/-!
# Votes of the arena

`submitVote` of `arena/src/server/api.ts` on the tables of the arena's first migration. A handler
reads the match, an earlier vote of the same voter and the two providers in statements of their
own, and then inserts the vote, marks the match and moves the ratings in one batch.
-/

namespace Groundlane.Arena

open Calendar Interleaving

/-! ## Rows -/

/-- `Track`. -/
inductive Track where
  | search
  | extraction
  | document
deriving DecidableEq, Repr

/-- `VoteChoice`. -/
inductive VoteChoice where
  | a
  | b
  | tie
  | bothBad
deriving DecidableEq, Repr

/-- The `status` of a match. -/
inductive MatchStatus where
  | pending
  | voted
  | invalid
deriving DecidableEq, Repr

/-- `ProviderRow`, as far as a vote reads it; the ratings and the numbers of votes by track. -/
structure ProviderRow where
  id : String
  displayName : String
  elo : Track → Int
  votes : Track → Nat
  estimatedCostPerCallUsd : Option Rat

/-- `MatchRow`, as far as a vote reads it. -/
structure MatchRow where
  id : String
  track : Track
  providerA : String
  providerB : String
  status : MatchStatus
  latencyAMs : Option Nat
  latencyBMs : Option Nat
deriving DecidableEq, Repr

/-- `VoteRow`. -/
structure VoteRow where
  id : String
  matchId : String
  winner : VoteChoice
  voterHash : String
  votedAt : Int
deriving DecidableEq, Repr

/-- The tables. -/
structure ArenaDb where
  providers : Sql.Table String ProviderRow ProviderRow.id
  matchRows : Sql.Table String MatchRow MatchRow.id
  votes : Sql.Table String VoteRow VoteRow.id

/-! ## Ratings -/

/-- The outcome of a match for one side. -/
inductive Score where
  | win
  | loss
  | draw
deriving DecidableEq, Repr

/-- The rating formula in floating point: the rounded change of either side, given its factor, its
score and the ratings of both sides. -/
structure EloArithmetic where
  changeA : Nat → Score → Int → Int → Int
  changeB : Nat → Score → Int → Int → Int

/-- `PROVISIONAL_THRESHOLD`, `K_PROVISIONAL` and `K_ESTABLISHED`. -/
def factor (votes : Nat) : Nat :=
  if votes < 300 then 32 else 16

example : factor 299 = 32 ∧ factor 300 = 16 := by decide +kernel

/-- The changes of two ratings. -/
structure EloChange where
  deltaA : Int
  deltaB : Int
deriving DecidableEq, Repr

/-- `calculateEloChange`. -/
def calculateEloChange (arithmetic : EloArithmetic) (eloA eloB : Int) (winner : VoteChoice)
    (votesA votesB : Nat) : Option EloChange :=
  let change (scoreA scoreB : Score) : EloChange :=
    ⟨arithmetic.changeA (factor votesA) scoreA eloA eloB,
      arithmetic.changeB (factor votesB) scoreB eloA eloB⟩
  match winner with
  | .bothBad => none
  | .a => some (change .win .loss)
  | .b => some (change .loss .win)
  | .tie => some (change .draw .draw)

/-- `eloForTrack`. -/
def eloForTrack (provider : ProviderRow) (track : Track) : Int :=
  provider.elo track

/-- `votesForTrack`. -/
def votesForTrack (provider : ProviderRow) (track : Track) : Nat :=
  provider.votes track

/-- The rating of one provider in one track moves, and its votes are one more. -/
structure RatingUpdate where
  track : Track
  provider : String
  delta : Int
deriving DecidableEq, Repr

/-- `UPDATE providers SET elo = elo + ?, votes = votes + 1 WHERE id = ?`. -/
def RatingUpdate.apply (update : RatingUpdate)
    (providers : Sql.Table String ProviderRow ProviderRow.id) :
    Sql.Table String ProviderRow ProviderRow.id :=
  (providers.update (fun row => row.id = update.provider)
    (fun row =>
      { row with
        elo := fun track => if track = update.track then row.elo track + update.delta
          else row.elo track
        votes := fun track => if track = update.track then row.votes track + 1
          else row.votes track })
    fun _ => rfl).1

/-- What a handler writes in one batch: the vote, which also marks its match, and the updates of
the ratings. -/
structure Ballot where
  vote : VoteRow
  updates : List RatingUpdate
deriving DecidableEq, Repr

/-- The providers after the updates of a ballot. -/
def Ballot.rate (ballot : Ballot) (providers : Sql.Table String ProviderRow ProviderRow.id) :
    Sql.Table String ProviderRow ProviderRow.id :=
  ballot.updates.foldl (fun providers update => update.apply providers) providers

/-- `UPDATE matches SET status = 'voted' WHERE id = ?`. -/
def markVoted (matchId : String) (rows : Sql.Table String MatchRow MatchRow.id) :
    Sql.Table String MatchRow MatchRow.id :=
  (rows.update (fun row => row.id = matchId) (fun row => { row with status := .voted })
    fun _ => rfl).1

/-- The batch of a ballot. It fails as a whole when the vote's identifier is taken or its match is
missing. -/
def ArenaDb.cast (db : ArenaDb) (ballot : Ballot) : Option ArenaDb :=
  if (db.matchRows.find ballot.vote.matchId).isNone then none
  else
    (db.votes.insert ballot.vote).map fun inserted =>
      ⟨ballot.rate db.providers, markVoted ballot.vote.matchId db.matchRows, inserted.1⟩

/-- `db.batch`, which may fail for a reason of its own. -/
def ArenaDb.batch (db : ArenaDb) (failure : Option Fault) (ballot : Ballot) :
    ArenaDb × Except Fault Unit :=
  match failure with
  | some fault => (db, .error fault)
  | none =>
    match db.cast ballot with
    | none => (db, .error (.error "D1_ERROR: constraint failed"))
    | some db => (db, .ok ())

/-! ## Handlers -/

/-- What a handler asks of the database and of its surroundings. -/
inductive VoteQuery where
  | selectMatch (matchId : String)
  | voterHash (ip : String)
  | selectVote (matchId hash : String)
  | selectProvider (id : String)
  | stamp
  | batch (ballot : Ballot)

/-- The answers. A statement of the database may fail; `stamp` answers a fresh identifier and the
time. -/
def VoteQuery.Res : VoteQuery → Type
  | selectMatch _ => Except Fault (Option MatchRow)
  | voterHash _ => String
  | selectVote .. => Except Fault (Option VoteRow)
  | selectProvider _ => Except Fault (Option ProviderRow)
  | stamp => String × Int
  | batch _ => Except Fault Unit

/-- What is decided outside: the failure of a statement, the time, and a random identifier. -/
structure VoteOutside where
  failure : Option Fault
  now : Int
  id : String

/-- A request as it arrives, and as it passed the validator. -/
structure VoteRequest where
  matchId : String
  winner : String
  ip : Option String
deriving DecidableEq, Repr

/-- `VoteResponse`. -/
structure VoteResponse where
  matchId : String
  winner : VoteChoice
  providerA : String
  providerB : String
  latencyAMs : Option Nat
  latencyBMs : Option Nat
  estimatedCostAUsd : Option Rat
  estimatedCostBUsd : Option Rat
  eloChange : Option EloChange
deriving DecidableEq

/-- A handler in progress. -/
abbrev VoteIo (α : Type) : Type := Program VoteQuery VoteQuery.Res Fault α

/-- The choices that the validator lets through. -/
def voteChoice : String → Option VoteChoice
  | "a" => some .a
  | "b" => some .b
  | "tie" => some .tie
  | "both_bad" => some .bothBad
  | _ => none

/-- The validator. -/
def validateVote (request : VoteRequest) : Except Fault (String × VoteChoice × String) :=
  match voteChoice request.winner with
  | none => .error (.error "Invalid vote")
  | some winner =>
    if request.matchId = "" then .error (.error "Invalid vote")
    else .ok (request.matchId, winner, request.ip.getD "0.0.0.0")

/-- A statement whose failure is thrown. -/
def statement {α : Type} (query : VoteQuery) (h : query.Res = Except Fault α) : VoteIo α := do
  let answer ← Program.request query
  Program.ofExcept (cast h answer)

/-- The updates of the ratings of a match. -/
def ratingUpdates (row : MatchRow) : Option EloChange → List RatingUpdate
  | none => []
  | some change =>
    [⟨row.track, row.providerA, change.deltaA⟩, ⟨row.track, row.providerB, change.deltaB⟩]

/-- `submitVote`. -/
def submitVote (arithmetic : EloArithmetic) (request : VoteRequest) : VoteIo VoteResponse := do
  let (matchId, winner, ip) ← Program.ofExcept (validateVote request)
  let found ← statement (.selectMatch matchId) rfl
  match found with
  | none => .raise (.error "Match not found")
  | some row =>
    if row.status = .voted then .raise (.error "Already voted")
    else if row.status = .invalid then .raise (.error "Invalid match")
    else
      let hash : String ← Program.request (VoteQuery.voterHash ip)
      let existing ← statement (.selectVote matchId hash) rfl
      if existing.isSome then .raise (.error "Already voted on this match")
      else
        let foundA ← statement (.selectProvider row.providerA) rfl
        let foundB ← statement (.selectProvider row.providerB) rfl
        match foundA, foundB with
        | some providerA, some providerB =>
          let eloChange := calculateEloChange arithmetic (eloForTrack providerA row.track)
            (eloForTrack providerB row.track) winner (votesForTrack providerA row.track)
            (votesForTrack providerB row.track)
          let (voteId, now) : String × Int ← Program.request VoteQuery.stamp
          statement (.batch ⟨⟨voteId, matchId, winner, hash, now⟩, ratingUpdates row eloChange⟩) rfl
          pure
            { matchId
              winner
              providerA := providerA.displayName
              providerB := providerB.displayName
              latencyAMs := row.latencyAMs
              latencyBMs := row.latencyBMs
              estimatedCostAUsd := providerA.estimatedCostPerCallUsd
              estimatedCostBUsd := providerB.estimatedCostPerCallUsd
              eloChange }
        | _, _ => .raise (.error "Provider not found")

/-- The effect of a statement on the tables. -/
def VoteQuery.exec (sha256 : String → String) (outside : VoteOutside) :
    (query : VoteQuery) → ArenaDb → ArenaDb × query.Res
  | selectMatch matchId, db =>
    (db, match outside.failure with
      | some fault => .error fault
      | none => .ok (db.matchRows.find matchId))
  | .voterHash ip, db => (db, sha256 (ip ++ ":" ++ String.ofList ((isoText outside.now).take 10)))
  | selectVote matchId hash, db =>
    (db, match outside.failure with
      | some fault => .error fault
      | none => .ok (db.votes.rows.find? fun row => row.matchId = matchId && row.voterHash = hash))
  | selectProvider id, db =>
    (db, match outside.failure with
      | some fault => .error fault
      | none => .ok (db.providers.find id))
  | stamp, db => (db, outside.id, outside.now)
  | batch ballot, db => db.batch outside.failure ballot

/-- Any number of handlers on one database. -/
def handlers (arithmetic : EloArithmetic) (sha256 : String → String) :
    System VoteRequest VoteQuery VoteQuery.Res Fault VoteResponse ArenaDb VoteOutside where
  main := submitVote arithmetic
  exec := VoteQuery.exec sha256

end Groundlane.Arena
