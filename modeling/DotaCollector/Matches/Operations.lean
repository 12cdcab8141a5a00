import Mathlib.Data.List.Dedup
import DotaCollector.Matches.Phase

/-!
# Statements on the `matches` table

Each function of the store is one statement, or a loop of statements on different rows. Every
right-hand side of a `SET` reads the row as it was before the statement.
-/

namespace DotaCollector

open Nullable

/-! ## Live feeds -/

/-- One row of a live feed. -/
structure LiveSighting where
  matchId : MatchId
  facts : Facts
  ingest : LiveIngest := .liveLeague

/-- The columns a live sighting writes. -/
def liveCols : List MatchCol :=
  [.leagueId, .leagueNodeId, .seriesId, .seriesType, .radiantSeriesWins, .direSeriesWins,
    .streamDelayS, .radiantTeamId, .direTeamId, .radiantTeamName, .direTeamName, .lobbyId,
    .gameNumber, .leagueSeriesId, .leagueGameId, .stageName, .leagueTier, .radiantTeamLogo,
    .direTeamLogo, .radiantTeamComplete, .direTeamComplete, .serverSteamId]

/-- Shared flap: a live-feed sighting pulls a false finish back to `live`. -/
def liveSightingResumeSet (now : Time) (resetLive resetTop : Bool) (row : MatchRow) : MatchRow :=
  let keep := row.status ∈ keepOnLiveSighting
  let keepOrLive := keep ∨ row.status = .live
  { row with
    status := if keep then row.status else .live
    lastError := if keep then row.lastError else none
    lastErrorKind := if keep then row.lastErrorKind else none
    lastErrorAt := if keep then row.lastErrorAt else none
    finishedAt := if keepOrLive then row.finishedAt else none
    replayAvailableAt := if keepOrLive then row.replayAvailableAt else none
    historyNextPollAt := if keepOrLive then row.historyNextPollAt else none
    historyPollFastCount := if keepOrLive then row.historyPollFastCount else 0
    historyPollSlowCount := if keepOrLive then row.historyPollSlowCount else 0
    attempts := if keepOrLive then row.attempts else 0
    nextAttemptAt := if keepOrLive then row.nextAttemptAt else none
    liveSeenAt := some now
    liveDisappearedAt := if keep then row.liveDisappearedAt else none
    liveLeagueMissedPolls := if resetLive then 0 else row.liveLeagueMissedPolls
    topLiveMissedPolls := if resetTop then 0 else row.topLiveMissedPolls }

/-- The row a first live sighting inserts. -/
def LiveSighting.fresh (now : Time) (sighting : LiveSighting) : MatchRow where
  facts := Facts.only liveCols sighting.facts
  ingestSources := [sighting.ingest.source]
  status := .live
  source := .live
  liveSeenAt := some now

/-- The row a repeated live sighting leaves. -/
def LiveSighting.merge (now : Time) (sighting : LiveSighting) (row : MatchRow) : MatchRow :=
  { liveSightingResumeSet now (sighting.ingest = .liveLeague) (sighting.ingest = .topLive) row with
    facts := Facts.overwrite liveCols row.facts sighting.facts
    ingestSources := row.addIngest sighting.ingest.source
    source := .live }

def touchMatchLive (table : Matches) (now : Time) (sighting : LiveSighting) : Matches :=
  table.upsert sighting.matchId (sighting.fresh now) (sighting.merge now)

def noteLiveFeedSeen (table : Matches) (now : Time) (feed : LiveIngest) (matchId : MatchId) :
    Matches :=
  table.update matchId (liveSightingResumeSet now (feed = .liveLeague) (feed = .topLive))

/-- Add one to the miss counter of a feed. -/
def MatchRow.missPoll (feed : LiveIngest) (row : MatchRow) : MatchRow :=
  match feed with
  | .liveLeague => { row with liveLeagueMissedPolls := row.liveLeagueMissedPolls + 1 }
  | .topLive => { row with topLiveMissedPolls := row.topLiveMissedPolls + 1 }

/-- The rows a poll of a feed should have listed and did not. -/
def missedBy (feed : LiveIngest) (seenIds : List MatchId) (matchId : MatchId) (row : MatchRow) :
    Bool :=
  row.status = .live && feed.source ∈ row.ingestSources && matchId ∉ seenIds

def noteLiveFeedMisses (table : Matches) (feed : LiveIngest) (seenIds : List MatchId) : Matches :=
  table.updateWhere (missedBy feed seenIds) (MatchRow.missPoll feed)

/-- `live_duration_max = GREATEST(live_duration_max, duration)`. -/
def MatchRow.noteClock (duration : ℚ) (row : MatchRow) : MatchRow :=
  { row with liveDurationMax := max row.liveDurationMax duration }

def noteLiveClock (table : Matches) (matchId : MatchId) (duration : ℚ) : Matches :=
  if 0 < duration then table.update matchId (MatchRow.noteClock duration) else table

/-- The `WHERE` clause of `finishMissingLiveMatches`. -/
def finishSelects (threshold : Nat) (row : MatchRow) : Bool :=
  row.status = .live &&
    (.liveLeague ∈ row.ingestSources || .topLive ∈ row.ingestSources) &&
    (.liveLeague ∉ row.ingestSources || threshold ≤ row.liveLeagueMissedPolls) &&
    (.topLive ∉ row.ingestSources || threshold ≤ row.topLiveMissedPolls)

/-- `Math.round(replayDelayMs / 1000)` seconds, in milliseconds. -/
def roundedDelay (replayDelayMs : Int) : Int := (replayDelayMs + 500) / 1000 * 1000

/-- What a live finish writes: a match whose clock started waits for history. -/
def finishSet (now : Time) (replayDelayMs : Int) (row : MatchRow) : MatchRow :=
  let started := 0 < row.liveDurationMax
  { row with
    liveDisappearedAt := some now
    liveDisappearedCount := row.liveDisappearedCount + 1
    finishedAt := if started then some now else row.finishedAt
    replayAvailableAt :=
      if started then some (now + roundedDelay replayDelayMs) else row.replayAvailableAt
    status := if started then .awaitingHistory else .notStarted
    historyNextPollAt := if started then some now else none
    lastError := if started then row.lastError else some "live listing never started"
    lastErrorKind := if started then row.lastErrorKind else some .notStarted
    lastErrorAt := if started then row.lastErrorAt else some now }

def finishMissingLiveMatches (table : Matches) (now : Time) (threshold : Nat)
    (replayDelayMs : Int) : Matches :=
  table.updateWhere (fun _ row => finishSelects threshold row) (finishSet now replayDelayMs)

/-- `server_steam_id = NULL`. -/
def MatchRow.clearServer (row : MatchRow) : MatchRow :=
  { row with facts := Function.update row.facts .serverSteamId none }

def clearServerSteamId (table : Matches) (matchId : MatchId) : Matches :=
  table.update matchId MatchRow.clearServer

/-- `last_realtime_at = now()`. -/
def MatchRow.seenRealtime (now : Time) (row : MatchRow) : MatchRow :=
  { row with lastRealtimeAt := some now }

def touchRealtimeSeen (table : Matches) (now : Time) (matchId : MatchId) : Matches :=
  table.update matchId (MatchRow.seenRealtime now)

/-! ## Match history -/

/-- A match listed by GetMatchHistory: the values passed to the statement, with the patch looked
up for its start time. -/
structure HistoryListing where
  matchId : MatchId
  matchSeqNum : Int
  facts : Facts

/-- The columns a history listing overwrites; `patch` is only filled. -/
def historyCols : List MatchCol :=
  [.leagueId, .startTime, .lobbyType, .seriesId, .seriesType, .radiantTeamId, .direTeamId]

/-- The descriptive columns after a history listing. -/
def HistoryListing.merge (listing : HistoryListing) (stored : Facts) : Facts :=
  Facts.fill [.patch] (Facts.overwrite historyCols stored listing.facts) listing.facts

/-- The row `markHistoryAvailable` leaves; its `WHERE` skips a live match. -/
def HistoryListing.available (now : Time) (listing : HistoryListing) (row : MatchRow) : MatchRow :=
  if row.status = .live then row
  else
    { row with
      facts := listing.merge row.facts
      matchSeqNum := some listing.matchSeqNum
      ingestSources := row.addIngest .history
      status :=
        if row.status ∈ [.awaitingHistory, .notStarted, .discovered, .failed] then
          .awaitingDetails
        else row.status
      historyLastPolledAt := some now
      historyNextPollAt := none }

def markHistoryAvailable (table : Matches) (now : Time) (listing : HistoryListing) : Matches :=
  table.update listing.matchId (listing.available now)

/-- The row a first history listing inserts. -/
def HistoryListing.fresh (listing : HistoryListing) : MatchRow where
  facts := Facts.only (historyCols ++ [.patch]) listing.facts
  matchSeqNum := some listing.matchSeqNum
  status := .awaitingDetails
  source := .historical
  ingestSources := [.history]

/-- The row a repeated history listing leaves. -/
def HistoryListing.relist (listing : HistoryListing) (row : MatchRow) : MatchRow :=
  { row with
    facts := listing.merge row.facts
    matchSeqNum := some listing.matchSeqNum
    ingestSources := row.addIngest .history
    status :=
      if row.status ∈ [.live, .detailsReady, .awaitingReplay, .replayStored,
          .replayUnavailable, .parsed, .failed] then row.status
      else .awaitingDetails }

def upsertHistoryMatch (table : Matches) (listing : HistoryListing) : Matches :=
  table.upsert listing.matchId listing.fresh listing.relist

def upsertHistoryMatches (table : Matches) (listings : List HistoryListing) : Matches :=
  listings.foldl upsertHistoryMatch table

/-! ## History misses -/

/-- What the `SELECT` of `recordHistoryPollMisses` returns for one match. -/
structure MissRead where
  status : MatchStatus
  fastCount : Nat
  slowCount : Nat
  deriving DecidableEq

/-- The columns of a row the `SELECT` returns. -/
def MissRead.ofRow (row : MatchRow) : MissRead where
  status := row.status
  fastCount := row.historyPollFastCount
  slowCount := row.historyPollSlowCount

/-- The `SELECT` of `recordHistoryPollMisses`: each armed waiter among the ids, once. -/
def selectHistoryMisses (table : Matches) (matchIds : List MatchId) : List (MatchId × MissRead) :=
  matchIds.dedup.filterMap fun matchId =>
    ((table matchId).filter MatchRow.historyWaiterPending).map fun row =>
      (matchId, MissRead.ofRow row)

/-- The poll state computed from a read. -/
def MissRead.next (read : MissRead) (budget : HistoryBudget) : HistoryPollState :=
  advanceHistoryMiss read.fastCount read.slowCount budget

/-- Both budgets are spent, so the waiter stops. -/
def MissRead.waiterDone (read : MissRead) (budget : HistoryBudget) : Bool :=
  (read.next budget).status = .failed

/-- The waiter stops and the status read was still `awaiting_history`. -/
def MissRead.failMatch (read : MissRead) (budget : HistoryBudget) : Bool :=
  read.waiterDone budget && read.status = .awaitingHistory

/-- The columns the `UPDATE` of `recordHistoryPollMisses` writes, computed from the read. -/
def MissRead.set (read : MissRead) (now : Time) (budget : HistoryBudget) (row : MatchRow) :
    MatchRow :=
  { row with
    historyPollFastCount := (read.next budget).fastCount
    historyPollSlowCount := (read.next budget).slowCount
    historyLastPolledAt := some now
    historyNextPollAt :=
      if read.waiterDone budget then none else some (now + (read.next budget).nextPollMs)
    status := if read.failMatch budget then .failed else row.status
    lastError := if read.failMatch budget then some "history_timeout" else row.lastError
    lastErrorKind :=
      if read.failMatch budget then some .historyTimeout else row.lastErrorKind
    lastErrorAt := if read.failMatch budget then some now else row.lastErrorAt }

/-- One `UPDATE` of `recordHistoryPollMisses`; its `WHERE` names the match and nothing else. -/
def updateHistoryMiss (now : Time) (budget : HistoryBudget) (table : Matches)
    (read : MatchId × MissRead) : Matches :=
  table.update read.1 (read.2.set now budget)

def recordHistoryPollMisses (table : Matches) (now : Time) (matchIds : List MatchId)
    (budget : HistoryBudget) : Matches :=
  (selectHistoryMisses table matchIds).foldl (updateHistoryMiss now budget) table

/-! ## Post-game facts -/

/-- Which post-game source delivered the facts. -/
inductive Fetched where
  | seq
  | gc
  deriving DecidableEq, Repr

/-- The facts extracted from a post-game record, with the patch looked up. -/
structure MatchFacts where
  matchId : MatchId
  matchSeqNum : Option Int
  startTime : Option Int
  duration : Option Int
  others : Facts

/-- The descriptive columns of the facts. -/
def MatchFacts.facts (facts : MatchFacts) : Facts
  | .startTime => facts.startTime.map .int
  | .duration => facts.duration.map .int
  | col => facts.others col

/-- The end of the match, when both its start and its length are known. -/
def MatchFacts.finishedAt (facts : MatchFacts) : Option Time :=
  facts.startTime.bind fun start => facts.duration.map fun length => (start + length) * 1000

/-- The columns `saveMatchFacts` fills. -/
def savedCols : List MatchCol :=
  [.leagueId, .startTime, .duration, .preGameDuration, .radiantWin, .radiantScore, .direScore,
    .towerStatusRadiant, .towerStatusDire, .barracksStatusRadiant, .barracksStatusDire,
    .firstBloodTime, .lobbyType, .lobbyId, .gameMode, .engine, .humanPlayers, .cluster,
    .replaySalt, .seriesType, .radiantTeamId, .direTeamId, .radiantTeamName, .direTeamName,
    .radiantTeamComplete, .direTeamComplete, .radiantCaptain, .direCaptain, .matchFlags,
    .matchOutcome, .gameBalance, .radiantTeamLogo, .direTeamLogo, .radiantTeamLogoUrl,
    .direTeamLogoUrl, .radiantTeamTag, .direTeamTag, .radiantGuildId, .direGuildId,
    .tournamentId, .tournamentRound, .leagueSeriesId, .leagueGameId, .gameNumber, .stageName,
    .leagueTier, .patch]

/-- What `saveMatchFacts` writes to the row of the match. -/
def MatchFacts.save (now : Time) (facts : MatchFacts) (fetched : Fetched) (row : MatchRow) :
    MatchRow :=
  { row with
    matchSeqNum := coalesce row.matchSeqNum facts.matchSeqNum
    facts := Facts.fill savedCols row.facts facts.facts
    finishedAt := coalesce row.finishedAt facts.finishedAt
    replayAvailableAt :=
      if row.source = .historical ∧ row.replayAvailableAt = none then some now
      else row.replayAvailableAt
    seqFetchedAt :=
      if fetched = .seq then coalesce row.seqFetchedAt (some now) else row.seqFetchedAt
    detailsFetchedAt :=
      if fetched = .gc then coalesce row.detailsFetchedAt (some now) else row.detailsFetchedAt
    ingestSources := if fetched = .seq then row.addIngest .seq else row.ingestSources
    status :=
      if row.status ∈ [.awaitingReplay, .replayStored, .replayUnavailable, .parsed] then
        row.status
      else if fetched = .gc ∨ row.detailsFetchedAt ≠ none then .detailsReady
      else .awaitingDetails
    lastError := none
    lastErrorKind := none }

def saveMatchFacts (table : Matches) (now : Time) (facts : MatchFacts) (fetched : Fetched) :
    Matches :=
  table.update facts.matchId (facts.save now fetched)

/-- The columns `insertUndiscoveredMatch` names. -/
def undiscoveredCols : List MatchCol :=
  [.leagueId, .startTime, .duration, .preGameDuration, .radiantWin, .radiantScore, .direScore,
    .towerStatusRadiant, .towerStatusDire, .barracksStatusRadiant, .barracksStatusDire,
    .firstBloodTime, .lobbyType, .lobbyId, .gameMode, .engine, .humanPlayers, .cluster,
    .replaySalt, .seriesType, .radiantTeamId, .direTeamId, .radiantTeamName, .direTeamName,
    .radiantTeamLogo, .direTeamLogo, .radiantTeamTag, .direTeamTag, .radiantCaptain,
    .direCaptain, .matchFlags, .matchOutcome, .patch]

/-- The row inserted for a post-game record of an unknown match. -/
def MatchFacts.undiscovered (now : Time) (facts : MatchFacts) (fetched : Fetched) :
    MatchRow where
  facts := Facts.only undiscoveredCols facts.facts
  matchSeqNum := facts.matchSeqNum
  status := if fetched = .gc then .detailsReady else .awaitingDetails
  source := .historical
  ingestSources := if fetched = .seq then [.seq] else []
  seqFetchedAt := if fetched = .seq then some now else none
  detailsFetchedAt := if fetched = .gc then some now else none

def insertUndiscoveredMatch (table : Matches) (now : Time) (facts : MatchFacts)
    (fetched : Fetched) : Matches :=
  table.insertNew facts.matchId (facts.undiscovered now fetched)

/-- `UPDATE matches SET series_id = … WHERE series_id IS NULL`, from `persistMatchRecord`. -/
def MatchRow.linkSeries (seriesId : Int) (row : MatchRow) : MatchRow :=
  if row.facts .seriesId = none then
    { row with facts := Function.update row.facts .seriesId (some (.int seriesId)) }
  else row

def linkSeries (table : Matches) (matchId : MatchId) (seriesId : Int) : Matches :=
  table.update matchId (MatchRow.linkSeries seriesId)

/-- The two statements of `stampMatchSeqAttempt`. -/
def MatchRow.stampAttempt (nextAttemptAt : Option Time) (bump clear : Bool) (row : MatchRow) :
    MatchRow :=
  if clear then { row with nextAttemptAt := none }
  else
    { row with
      attempts := row.attempts + if bump then 1 else 0
      nextAttemptAt }

def stampMatchSeqAttempt (table : Matches) (matchId : MatchId) (nextAttemptAt : Option Time)
    (bump clear : Bool) : Matches :=
  table.update matchId (MatchRow.stampAttempt nextAttemptAt bump clear)

/-- `seq_fetched_at = COALESCE(seq_fetched_at, now())`. -/
def MatchRow.stampSeq (now : Time) (row : MatchRow) : MatchRow :=
  { row with seqFetchedAt := coalesce row.seqFetchedAt (some now) }

def markSeqFetched (table : Matches) (now : Time) (matchIds : List MatchId) : Matches :=
  table.updateWhere (fun matchId _ => matchId ∈ matchIds) (MatchRow.stampSeq now)

/-- The live matches whose download the `requeue-live-waiting` command makes due. -/
def requeueSelects (row : MatchRow) : Bool :=
  row.source = .live && row.status ∈ [.detailsReady, .awaitingReplay]

/-- `replay_available_at = now()`. -/
def MatchRow.requeue (now : Time) (row : MatchRow) : MatchRow :=
  { row with replayAvailableAt := some now }

def requeueLiveWaiting (table : Matches) (now : Time) : Matches :=
  table.updateWhere (fun _ row => requeueSelects row) (MatchRow.requeue now)

/-- The row inserted for a replay of an unknown match. -/
def stubRow : MatchRow where
  source := .historical
  status := .awaitingReplay

def ensureMatchStub (table : Matches) (matchId : MatchId) : Matches :=
  table.insertNew matchId stubRow

/-! ## Replay marks -/

/-- What `markMatchReplayStatus` writes: a parsed match keeps its status. -/
def replayMarkSet (now : Time) (status : MatchStatus) (error : Option String)
    (errorKind : Option ErrorKind) (row : MatchRow) : MatchRow :=
  { row with
    status := if row.status = .parsed then row.status else status
    lastError := coalesce error row.lastError
    lastErrorKind := coalesce errorKind row.lastErrorKind
    lastErrorAt := if error = none then row.lastErrorAt else some now }

def markMatchReplayStatus (table : Matches) (now : Time) (matchId : MatchId)
    (status : MatchStatus) (error : Option String) (errorKind : Option ErrorKind) : Matches :=
  table.update matchId (replayMarkSet now status error errorKind)

/-- The statuses from which the parser moves a match to `parsed`. -/
def publishableStatus : List MatchStatus := [.replayStored, .awaitingReplay, .detailsReady]

/-- What the parser's `Publish` writes to the match: barracks when known, then the status. -/
def publishSet (barracks : Option (Int × Int)) (row : MatchRow) : MatchRow :=
  { row with
    facts :=
      match barracks with
      | none => row.facts
      | some (radiant, dire) =>
          Facts.fill [.barracksStatusRadiant, .barracksStatusDire] row.facts fun
            | .barracksStatusRadiant => some (.int radiant)
            | .barracksStatusDire => some (.int dire)
            | _ => none
    status := if row.status ∈ publishableStatus then .parsed else row.status }

def publishMatch (table : Matches) (matchId : MatchId) (barracks : Option (Int × Int)) : Matches :=
  table.update matchId (publishSet barracks)

end DotaCollector
