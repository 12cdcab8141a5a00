import DotaCollector.Library.Script
import DotaCollector.Matches.System
import DotaCollector.Replays.Row

/-!
# The replay jobs of the worker

`download_replay` and `fetch_match_details` read the replay row, do slow work outside of the
database, and then write the row. What the object store, the CDN and the game coordinator answer
is the environment of a job; the scripts follow the source statement by statement. Of enqueueing
another job only the statements on the replay row are here: the queue itself is left out, and a
job may start at any time.
-/

namespace DotaCollector

/-- The statements of the replay jobs. -/
inductive ReplayStatement where
  | ensureReplayRow (priority : ReplayPriority)
  | copyReplayLocatorFromMatch
  | updateReplay (patch : ReplayPatch)
  | markMatchReplayStatus (mark : ReplayMark) (error : Option String)
      (errorKind : Option ErrorKind)
  | persistMatchRecord (record : MatchFacts) (seriesId : Option Int)

/-- The rows the replay jobs read. -/
inductive ReplayQuery where
  | getMatch
  | getReplay

/-- What a read returns. -/
def ReplayQuery.Answer : ReplayQuery → Type
  | .getMatch => Option MatchRow
  | .getReplay => Option ReplayRow

/-- A script of a replay job. -/
abbrev ReplayScript := Script ReplayStatement ReplayQuery ReplayQuery.Answer

def getMatch : ReplayScript (Option MatchRow) := Script.query ReplayQuery.getMatch

def getReplay : ReplayScript (Option ReplayRow) := Script.query ReplayQuery.getReplay

/-! ## The environment of a job -/

/-- A replay object found in storage. -/
structure ReplayObjectHit where
  bucket : String
  key : String
  archived : Bool

/-- How the CDN answers a download, and whether the object store takes the body. -/
inductive DownloadResponse where
  | unreachable
  | notFound
  | httpError (status : Nat)
  | storeError
  | stored (size : Int)

/-- The match record in a reply of the game coordinator, with the series found for it. Any of its
fields can be missing, the match id too. -/
structure GcMatch where
  matchId : Option MatchId := none
  matchSeqNum : Option Int := none
  startTime : Option Int := none
  duration : Option Int := none
  others : Facts := fun _ => none
  replayState : Option Int := none
  seriesId : Option Int := none

/-- The facts of a record whose id is known. -/
def GcMatch.facts (record : GcMatch) (matchId : MatchId) : MatchFacts :=
  ⟨matchId, record.matchSeqNum, record.startTime, record.duration, record.others⟩

/-- `GcMatchReplayLocator`, with the account and the proxy which asked for it. -/
structure ReplayLocator where
  result : Int
  gcMatch : Option GcMatch
  accountId : Option Int
  proxyId : Option Int

namespace ReplayLocator

/-! The locator itself is read off the match record: a reply without one locates nothing. -/

def cluster (locator : ReplayLocator) : Option Int :=
  locator.gcMatch.bind fun record => record.others.number .cluster

def replaySalt (locator : ReplayLocator) : Option Int :=
  locator.gcMatch.bind fun record => record.others.number .replaySalt

def replayState (locator : ReplayLocator) : Option Int :=
  locator.gcMatch.bind GcMatch.replayState

end ReplayLocator

/-- How the game coordinator answers. -/
inductive LocatorResponse where
  | noUsableAccount (message : String)
  | error
  | details (locator : ReplayLocator)

/-- Everything a job learns from outside of the database. -/
structure ReplayEnvironment where
  now : Time
  objectBucket : String
  locateReplayObject : String → Option String → Option String → Option ReplayObjectHit
  /-- The host name of a URL, in lower case; absent when the URL does not parse. -/
  hostname : String → Option String
  download : DownloadResponse
  requestMatchReplayLocator : LocatorResponse
  /-- What `countJobs` finds of historical downloads. -/
  inflight : Nat := 0
  historyReplayEnqueueLimit : Nat

/-! ## Adopting a stored object -/

def replayObjectKey (matchId : MatchId) (salt : Int) : String :=
  s!"replays/{matchId}/{matchId}_{salt}.dem.bz2"

def replayHotKey (matchId : MatchId) (existing : Option ReplayRow) : Option String :=
  match existing.bind ReplayRow.replaySalt with
  | some salt => some (replayObjectKey matchId salt)
  | none => asString (existing.bind ReplayRow.s3Key)

/-- If the replay is already in storage, point the row at it. Parsed / parsing rows keep their
status. -/
def adoptExistingReplayObject (env : ReplayEnvironment) (matchId : MatchId)
    (existing : Option ReplayRow) : ReplayScript (Option (ReplayObjectHit × Bool)) :=
  match replayHotKey matchId existing with
  | none => return none
  | some hotKey =>
      match env.locateReplayObject hotKey (asString (existing.bind ReplayRow.s3Bucket))
        (asString (existing.bind ReplayRow.s3Key)) with
      | none => return none
      | some hit =>
          if replayDownloadShouldKeepStatus (existing.map ReplayRow.status) then
            return some (hit, true)
          else do
            Script.issue (.updateReplay
              { status := some .stored
                s3Bucket := some hit.bucket
                s3Key := some hit.key
                storedAt := some env.now
                clearArchived := !hit.archived })
            Script.issue (.markMatchReplayStatus .replayStored none none)
            return some (hit, false)

/-! ## `download_replay` -/

/-- Why the CDN cannot have the replay. -/
def unpublishedReplayCdnReason (env : ReplayEnvironment) (cluster : Int) (url : Option String) :
    Option String :=
  if cluster < 2 then
    some s!"replay CDN does not exist for cluster {cluster} (replay{cluster}.valve.net)"
  else
    match asString url with
    | none => none
    | some url =>
        if env.hostname url = some "replay1.valve.net" then
          some s!"replay CDN host replay1.valve.net does not exist: {url}"
        else none

/-- The two writes after which a replay is given up. -/
def giveUpReplay (message : String) (bumpAttempt : Bool) : ReplayScript Unit := do
  Script.issue (.updateReplay
    { status := some .unavailable
      error := some message
      bumpAttempt })
  Script.issue (.markMatchReplayStatus .replayUnavailable (some message) (some .unavailable))

def matchOrigin (source : Option MatchSource) : ReplayPriority :=
  if source = some .live then .live else .historical

/-- `enqueueDownloadReplay`, up to the job it adds. -/
def enqueueDownloadReplay (env : ReplayEnvironment) (origin : ReplayPriority)
    (ignoreLimit : Bool) : ReplayScript Unit :=
  if origin = .historical ∧ ignoreLimit = false ∧ env.historyReplayEnqueueLimit ≤ env.inflight then
    return ()
  else do
    Script.issue (.ensureReplayRow origin)
    Script.issue .copyReplayLocatorFromMatch

/-- What `download_replay` reports. -/
structure DownloadReport where
  status : ReplayStatus
  key : Option String := none

def downloadReplay (env : ReplayEnvironment) (matchId : MatchId) :
    ReplayScript DownloadReport := do
  let found ← getMatch
  let origin := matchOrigin (found.map MatchRow.source)
  Script.issue (.ensureReplayRow origin)
  let existing ← getReplay
  let cluster := (existing.bind ReplayRow.cluster).getD 0
  let salt := existing.bind ReplayRow.replaySalt
  match ← adoptExistingReplayObject env matchId existing with
  | some (hit, kept) =>
      return { status := if kept then (existing.map ReplayRow.status).getD .stored else .stored
               key := some hit.key }
  | none =>
      match asString (existing.bind ReplayRow.sourceUrl) with
      | none => Script.throw
      | some url =>
          match unpublishedReplayCdnReason env cluster url with
          | some reason =>
              giveUpReplay reason false
              return { status := .unavailable }
          | none =>
              let key := replayObjectKey matchId (salt.getD 0)
              Script.issue (.updateReplay
                { status := some .downloading
                  sourceUrl := some url })
              match env.download with
              | .unreachable => Script.throw
              | .notFound =>
                  let attempts := (existing.map ReplayRow.attempts).getD 0
                  match replayBackoffMs attempts with
                  | none =>
                      giveUpReplay
                        s!"replay 404 exhausted after {attempts + 1} tries: {url}" true
                      return { status := .unavailable }
                  | some delay =>
                      Script.issue (.updateReplay
                        { status := some .pending
                          error := some s!"replay not yet published: {url}"
                          nextAttemptAt := some (env.now + delay)
                          bumpAttempt := true })
                      enqueueDownloadReplay env origin true
                      return { status := .pending }
              | .httpError status =>
                  Script.issue (.updateReplay
                    { status := some .failed
                      error := some s!"replay HTTP {status} for {url}" })
                  Script.throw
              | .storeError => Script.throw
              | .stored size =>
                  Script.issue (.updateReplay
                    { status := some .stored
                      sourceUrl := some url
                      s3Bucket := some env.objectBucket
                      s3Key := some key
                      bytes := some size
                      storedAt := some env.now
                      clearArchived := true })
                  Script.issue (.markMatchReplayStatus .replayStored none none)
                  return { status := .stored
                           key := some key }

/-! ## `fetch_match_details` -/

def skipDownloadIfPresent (env : ReplayEnvironment) (matchId : MatchId)
    (replay : Option ReplayRow) : ReplayScript Bool :=
  if replayDownloadShouldKeepStatus (replay.map ReplayRow.status) then return true
  else do
    let adopted ← adoptExistingReplayObject env matchId replay
    return adopted.isSome

def markUnpublishedReplayCdn (env : ReplayEnvironment) (cluster : Int) (url : String) :
    ReplayScript Bool :=
  match unpublishedReplayCdnReason env cluster url with
  | none => return false
  | some reason => do
      giveUpReplay reason false
      return true

def replayUrl (cluster : Int) (matchId : MatchId) (salt : Int) : String :=
  s!"http://replay{cluster}.valve.net/570/{matchId}_{salt}.dem.bz2"

/-- `REPLAY_STATE`: the replay was not recorded, or has expired. -/
def replayGone (replayState : Option Int) : Bool := replayState = some 1 || replayState = some 2

/-- What `fetch_match_details` reports. -/
structure DetailsReport where
  saved : Nat
  url : Option String := none

/-- Persist the match record of the coordinator, when it carries a match id. -/
def persistGcMatch (locator : ReplayLocator) : ReplayScript Unit :=
  match locator.gcMatch with
  | none => return ()
  | some record =>
      match record.matchId with
      | none => return ()
      | some matchId =>
          Script.issue (.persistMatchRecord (record.facts matchId) record.seriesId)

/-- The end of `runFetchMatchDetails`, once the coordinator has answered with a usable result. -/
def saveMatchDetails (env : ReplayEnvironment) (matchId : MatchId) (origin : ReplayPriority)
    (locator : ReplayLocator) (knownCluster knownSalt : Option Int) :
    ReplayScript DetailsReport := do
  persistGcMatch locator
  match Nullable.coalesce locator.cluster knownCluster,
    Nullable.coalesce locator.replaySalt knownSalt with
  | some cluster, some salt =>
      let url := replayUrl cluster matchId salt
      Script.issue (.updateReplay
        { cluster := some cluster
          replaySalt := some salt
          replayState := locator.replayState
          sourceUrl := some url
          steamAccountId := locator.accountId
          proxyId := locator.proxyId })
      let stored ← getReplay
      if ← skipDownloadIfPresent env matchId stored then
        return { saved := 1
                 url := some url }
      if ← markUnpublishedReplayCdn env cluster url then
        return { saved := 1
                 url := some url }
      enqueueDownloadReplay env origin false
      return { saved := 1
               url := some url }
  | _, _ => return { saved := if locator.gcMatch.isSome then 1 else 0 }

def runFetchMatchDetails (env : ReplayEnvironment) (matchId : MatchId)
    (origin : Option ReplayPriority) : ReplayScript DetailsReport := do
  let found ← getMatch
  let origin := origin.getD (matchOrigin (found.map MatchRow.source))
  Script.issue (.ensureReplayRow origin)
  Script.issue .copyReplayLocatorFromMatch
  let replay ← getReplay
  let known := fun (fromReplay : ReplayRow → Option Int) (col : MatchCol) =>
    Nullable.coalesce (replay.bind fromReplay) (found.bind fun row => row.facts.number col)
  let cluster := known ReplayRow.cluster .cluster
  let salt := known ReplayRow.replaySalt .replaySalt
  match cluster, salt, asString (replay.bind ReplayRow.sourceUrl) with
  | some cluster, some _, some existingUrl =>
      if ← skipDownloadIfPresent env matchId replay then
        return { saved := 0
                 url := some existingUrl }
      if ← markUnpublishedReplayCdn env cluster existingUrl then
        return { saved := 0
                 url := some existingUrl }
      enqueueDownloadReplay env origin false
      return { saved := 0
               url := some existingUrl }
  | _, _, _ =>
      match env.requestMatchReplayLocator with
      | .error => Script.throw
      | .noUsableAccount message =>
          Script.issue (.updateReplay
            { status := some .failed
              error := some message })
          return { saved := 0 }
      | .details locator =>
          if locator.result = 15 then
            let message := s!"GC result {locator.result} (AccessDenied)"
            Script.issue (.updateReplay
              { status := some .unavailable
                steamAccountId := locator.accountId
                proxyId := locator.proxyId
                error := some message })
            Script.issue
              (.markMatchReplayStatus .replayUnavailable (some message) (some .unavailable))
            return { saved := 0 }
          else if locator.result ≠ 1 ∧ locator.result ≠ 0 then Script.throw
          else if replayGone locator.replayState then
            let state := locator.replayState.getD 0
            Script.issue (.updateReplay
              { status := some .unavailable
                replayState := locator.replayState
                cluster := locator.cluster
                replaySalt := locator.replaySalt
                steamAccountId := locator.accountId
                proxyId := locator.proxyId
                error := some s!"replay_state={state}" })
            return { saved := 0 }
          else saveMatchDetails env matchId origin locator cluster salt

end DotaCollector
