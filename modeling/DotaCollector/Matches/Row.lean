import Mathlib.Data.Rat.Defs
import Mathlib.Algebra.Order.Field.Rat
import DotaCollector.Library.Nullable
import DotaCollector.Library.Table

/-!
# The `matches` table

One row per match, keyed by `match_id`. The pipeline columns, which decide the phase of a match,
are fields of the row; the descriptive columns, which the statements only merge, are one
function from column names to nullable values.
-/

namespace DotaCollector

/-- A timestamp, in milliseconds. -/
abbrev Time := Int

/-- A match identifier. -/
abbrev MatchId := Nat

/-- The `match_status` enumeration. -/
inductive MatchStatus where
  | discovered
  | live
  | awaitingDetails
  | detailsReady
  | awaitingReplay
  | replayStored
  | replayUnavailable
  | failed
  | awaitingHistory
  | parsed
  | notStarted
  deriving DecidableEq, Repr

/-- The `match_source` enumeration. -/
inductive MatchSource where
  | live
  | historical
  deriving DecidableEq, Repr

/-- The upstream calls named in `ingest_sources`. -/
inductive IngestSource where
  | liveLeague
  | topLive
  | history
  | seq
  deriving DecidableEq, Repr

/-- The two live feeds. -/
inductive LiveIngest where
  | liveLeague
  | topLive
  deriving DecidableEq, Repr

/-- The name under which a live feed is recorded. -/
def LiveIngest.source : LiveIngest → IngestSource
  | .liveLeague => .liveLeague
  | .topLive => .topLive

/-- The values allowed in `last_error_kind`. -/
inductive ErrorKind where
  | network
  | rateLimit
  | auth
  | notReady
  | unavailable
  | historyTimeout
  | notStarted
  | other
  deriving DecidableEq, Repr

/-- A value of a descriptive column. -/
inductive Value where
  | int (value : Int)
  | bool (value : Bool)
  | text (value : String)
  | real (value : ℚ)
  | numbers (value : List ℚ)
  deriving DecidableEq

/-- The descriptive columns of `matches`. -/
inductive MatchCol where
  | leagueId | startTime | duration | preGameDuration | radiantWin | radiantScore | direScore
  | towerStatusRadiant | towerStatusDire | barracksStatusRadiant | barracksStatusDire
  | firstBloodTime | lobbyType | lobbyId | gameMode | engine | humanPlayers | cluster
  | replaySalt | seriesId | seriesType | radiantSeriesWins | direSeriesWins | radiantTeamId
  | direTeamId | radiantTeamName | direTeamName | radiantTeamComplete | direTeamComplete
  | radiantCaptain | direCaptain | matchFlags | matchOutcome | gameBalance | radiantTeamLogo
  | direTeamLogo | radiantTeamLogoUrl | direTeamLogoUrl | radiantTeamTag | direTeamTag
  | radiantGuildId | direGuildId | tournamentId | tournamentRound | leagueSeriesId
  | leagueGameId | gameNumber | stageName | leagueTier | leagueNodeId | streamDelayS
  | serverSteamId | patch
  deriving DecidableEq, Repr

/-- The descriptive columns of one row. -/
abbrev Facts := MatchCol → Option Value

namespace Facts

open Nullable

/-- `col = COALESCE(incoming, matches.col)` for each listed column. -/
def overwrite (cols : List MatchCol) (stored incoming : Facts) : Facts := fun col =>
  if col ∈ cols then coalesce (incoming col) (stored col) else stored col

/-- `col = COALESCE(matches.col, incoming)` for each listed column. -/
def fill (cols : List MatchCol) (stored incoming : Facts) : Facts := fun col =>
  if col ∈ cols then coalesce (stored col) (incoming col) else stored col

/-- The listed columns of an inserted row; the others are left out of the statement. -/
def only (cols : List MatchCol) (incoming : Facts) : Facts := fun col =>
  if col ∈ cols then incoming col else none

/-- `asNumber` of a descriptive column. -/
def number (facts : Facts) (col : MatchCol) : Option Int :=
  match facts col with
  | some (.int value) => some value
  | _ => none

end Facts

/-- A row of `matches`, with the defaults of the table. -/
structure MatchRow where
  status : MatchStatus := .discovered
  source : MatchSource := .historical
  ingestSources : List IngestSource := []
  matchSeqNum : Option Int := none
  facts : Facts := fun _ => none
  liveSeenAt : Option Time := none
  liveDisappearedAt : Option Time := none
  liveDisappearedCount : Nat := 0
  liveLeagueMissedPolls : Nat := 0
  topLiveMissedPolls : Nat := 0
  liveDurationMax : ℚ := 0
  historyPollFastCount : Nat := 0
  historyPollSlowCount : Nat := 0
  historyLastPolledAt : Option Time := none
  historyNextPollAt : Option Time := none
  seqFetchedAt : Option Time := none
  detailsFetchedAt : Option Time := none
  lastRealtimeAt : Option Time := none
  finishedAt : Option Time := none
  replayAvailableAt : Option Time := none
  lastError : Option String := none
  lastErrorKind : Option ErrorKind := none
  lastErrorAt : Option Time := none
  attempts : Nat := 0
  nextAttemptAt : Option Time := none

/-- The `matches` table. -/
abbrev Matches := Table MatchId MatchRow

namespace MatchRow

/-- `CASE WHEN ingest_sources @> ARRAY[source] THEN … ELSE ingest_sources || source END`. -/
def addIngest (source : IngestSource) (row : MatchRow) : List IngestSource :=
  if source ∈ row.ingestSources then row.ingestSources else row.ingestSources ++ [source]

/-- The column counting the polls of one feed which did not list the match. -/
def missedPolls (row : MatchRow) : LiveIngest → Nat
  | .liveLeague => row.liveLeagueMissedPolls
  | .topLive => row.topLiveMissedPolls

/-- Live-finish waiter is armed until GetMatchHistory stores a seqnum. -/
def historyWaiterPending (row : MatchRow) : Bool :=
  row.historyNextPollAt.isSome && row.matchSeqNum.isNone

end MatchRow

end DotaCollector
