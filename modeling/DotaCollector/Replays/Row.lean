import DotaCollector.Matches.Row

/-!
# The `match_replays` table

One row per match: where its replay lies, and how far the worker and the parser have come with
it. The statements of both programs are functions from the row before to the row after.
-/

namespace DotaCollector

open Nullable

/-- The `replay_status` enumeration. -/
inductive ReplayStatus where
  | pending
  | downloading
  | stored
  | parsing
  | parsed
  | unavailable
  | failed
  deriving DecidableEq, Repr

/-- The `replay_priority` enumeration. -/
inductive ReplayPriority where
  | live
  | historical
  deriving DecidableEq, Repr

/-- A row of `match_replays`, with the defaults of the table. -/
structure ReplayRow where
  status : ReplayStatus := .pending
  priority : ReplayPriority := .historical
  cluster : Option Int := none
  replaySalt : Option Int := none
  replayState : Option Int := none
  sourceUrl : Option String := none
  s3Bucket : Option String := none
  s3Key : Option String := none
  bytes : Option Int := none
  attempts : Nat := 0
  lastError : Option String := none
  lastErrorAt : Option Time := none
  nextAttemptAt : Option Time := none
  steamAccountId : Option Int := none
  proxyId : Option Int := none
  parserVersion : Option Int := none
  parsedAt : Option Time := none
  storedAt : Option Time := none
  archivedAt : Option Time := none
  updatedAt : Time := 0
  deriving DecidableEq

/-- The `match_replays` table. -/
abbrev Replays := Table MatchId ReplayRow

/-- `asString`: an empty text counts as absent. -/
def asString (text : Option String) : Option String := nullif text ""

/-! ## Statements of the worker -/

/-- The conflict branch of `ensureReplayRow`: live priority is kept. The statement names no other
column, but the trigger `set_updated_at` stamps every row an `UPDATE` meets. -/
def ReplayRow.keepPriority (now : Time) (priority : ReplayPriority) (row : ReplayRow) :
    ReplayRow :=
  { row with
    priority := if row.priority = .live then row.priority else priority
    updatedAt := now }

def ensureReplayRow (table : Replays) (now : Time) (matchId : MatchId)
    (priority : ReplayPriority) : Replays :=
  table.upsert matchId
    { status := .pending
      priority
      updatedAt := now }
    (ReplayRow.keepPriority now priority)

/-- What `copyReplayLocatorFromMatch` writes. -/
def ReplayRow.copyLocator (now : Time) (source : MatchRow) (row : ReplayRow) : ReplayRow :=
  { row with
    cluster := coalesce row.cluster (source.facts.number .cluster)
    replaySalt := coalesce row.replaySalt (source.facts.number .replaySalt)
    updatedAt := now }

/-- The argument of `updateReplay`; an absent value keeps the column. -/
structure ReplayPatch where
  status : Option ReplayStatus := none
  cluster : Option Int := none
  replaySalt : Option Int := none
  replayState : Option Int := none
  sourceUrl : Option String := none
  s3Bucket : Option String := none
  s3Key : Option String := none
  bytes : Option Int := none
  error : Option String := none
  steamAccountId : Option Int := none
  proxyId : Option Int := none
  storedAt : Option Time := none
  parserVersion : Option Int := none
  parsedAt : Option Time := none
  nextAttemptAt : Option Time := none
  bumpAttempt : Bool := false
  clearArchived : Bool := false

/-- What `updateReplay` writes. -/
def ReplayPatch.set (now : Time) (patch : ReplayPatch) (row : ReplayRow) : ReplayRow where
  status := patch.status.getD row.status
  priority := row.priority
  cluster := coalesce patch.cluster row.cluster
  replaySalt := coalesce patch.replaySalt row.replaySalt
  replayState := coalesce patch.replayState row.replayState
  sourceUrl := coalesce patch.sourceUrl row.sourceUrl
  s3Bucket := coalesce patch.s3Bucket row.s3Bucket
  s3Key := coalesce patch.s3Key row.s3Key
  bytes := coalesce patch.bytes row.bytes
  attempts := row.attempts + if patch.bumpAttempt then 1 else 0
  lastError := coalesce patch.error row.lastError
  lastErrorAt := if patch.error = none then row.lastErrorAt else some now
  nextAttemptAt := coalesce patch.nextAttemptAt row.nextAttemptAt
  steamAccountId := coalesce patch.steamAccountId row.steamAccountId
  proxyId := coalesce patch.proxyId row.proxyId
  parserVersion := coalesce patch.parserVersion row.parserVersion
  parsedAt := coalesce patch.parsedAt row.parsedAt
  storedAt := coalesce patch.storedAt row.storedAt
  archivedAt := if patch.clearArchived then none else row.archivedAt
  updatedAt := now

def updateReplay (table : Replays) (now : Time) (matchId : MatchId) (patch : ReplayPatch) :
    Replays :=
  table.update matchId (patch.set now)

/-- Parsed / in-flight parse already passed download; do not demote to stored. -/
def replayDownloadShouldKeepStatus (status : Option ReplayStatus) : Bool :=
  status = some .parsed || status = some .parsing

/-- Delay until the next download after `failed` missing replies; absent to give up. -/
def replayBackoffMs (failed : Nat) : Option Int :=
  if failed ≤ 1 then some 60000
  else if failed ≤ 21 then some (3 * 60000)
  else if failed ≤ 45 then some (60 * 60000)
  else none

/-! ## Statements of the parser -/

/-- The rows `ReclaimStale` releases. -/
def ReplayRow.stale (now olderThan : Time) (row : ReplayRow) : Bool :=
  row.status = .parsing && row.updatedAt < now - olderThan

/-- What `ReclaimStale` writes. -/
def ReplayRow.reclaim (now : Time) (row : ReplayRow) : ReplayRow :=
  { row with
    status := .stored
    lastError := some "stale parsing claim released"
    updatedAt := now }

def reclaimStale (table : Replays) (now olderThan : Time) : Replays :=
  table.updateWhere (fun _ row => row.stale now olderThan) (ReplayRow.reclaim now)

/-- The rows `Claim` chooses from. -/
def ReplayRow.claimable (row : ReplayRow) : Bool :=
  row.status = .stored && (asString row.s3Key).isSome

/-- What `Claim` writes. -/
def ReplayRow.claim (now : Time) (row : ReplayRow) : ReplayRow :=
  { row with
    status := .parsing
    updatedAt := now }

/-- What `Fail` writes; its `WHERE` names the match and nothing else. -/
def ReplayRow.fail (now : Time) (message : String) (row : ReplayRow) : ReplayRow :=
  { row with
    status := .failed
    lastError := some message
    lastErrorAt := some now
    attempts := row.attempts + 1
    updatedAt := now }

/-- What `Publish` writes; its `WHERE` names the match and nothing else. -/
def ReplayRow.publish (now : Time) (parserVersion : Int) (row : ReplayRow) : ReplayRow :=
  { row with
    status := .parsed
    parserVersion := some parserVersion
    parsedAt := some now
    lastError := none
    updatedAt := now }

end DotaCollector
