import DotaCollector.Jobs.System

/-!
# Loop jobs

A loop job enqueues its own next tick: the live polls when a tick begins, the others when its work
is done. Most of them do so off the named queues; the walk through the leagues goes to a named
queue, so that its next tick waits as a `run_scheduled_job` under another key. A tick of
`ensure_loop_jobs` looks for the loop jobs of its worker that have no row, and enqueues them.
-/

namespace DotaCollector
namespace Jobs

open JobQueue

/-! ## The jobs of a worker -/

inductive WorkerMode where
  | live
  | historical
  | matchProcessing
  | all
  deriving DecidableEq

def liveTasks : List String :=
  ["poll_live_games", "poll_top_live", "poll_realtime_stats", "poll_finished_history",
    "fetch_seq_details", "walk_seq_history", "fetch_seq_window"]

def historicalTasks : List String :=
  ["fetch_leagues", "sync_catalogs", "poll_finished_history", "walk_league_history",
    "walk_seq_history", "fetch_seq_window", "fetch_seq_details", "process_league"]

def matchProcessingTasks : List String :=
  ["fetch_match_details", "download_replay", "archive_parsed_replays", "maintain_request_logs",
    "replenish_accounts", "settle_marketplace_orders", "retest_disabled_resources"]

def taskNamesFor (mode : WorkerMode) : List String :=
  (match mode with
    | .live => liveTasks
    | .historical => historicalTasks
    | .matchProcessing => matchProcessingTasks
    | .all => (liveTasks ++ historicalTasks ++ matchProcessingTasks).dedup) ++
    [scheduledJob, "ensure_loop_jobs"]

structure StartupJob where
  identifier : String
  jobKey : Option String
  priority : Option Int := none
  maxAttempts : Option Nat := none
  loop : Bool := false
  deriving DecidableEq

def LOOP_JOB_MAX_ATTEMPTS : Nat := 25

/-- A loop job goes under its own name. -/
def loopJob (identifier : String) (priority : Option Int) : StartupJob where
  identifier
  jobKey := some identifier
  priority
  maxAttempts := some LOOP_JOB_MAX_ATTEMPTS
  loop := true

def startupJobsFor (mode : WorkerMode) : List StartupJob :=
  [loopJob "poll_live_games" none, loopJob "poll_top_live" none,
    loopJob "poll_realtime_stats" none, loopJob "poll_finished_history" none,
    loopJob "walk_seq_history" (some 20),
    { identifier := "fetch_leagues", jobKey := some "fetch_leagues_startup" },
    loopJob "walk_league_history" none, loopJob "archive_parsed_replays" (some 30),
    loopJob "maintain_request_logs" (some 40), loopJob "replenish_accounts" (some 15),
    loopJob "settle_marketplace_orders" (some 16),
    loopJob "retest_disabled_resources" (some 25)].filter (·.identifier ∈ taskNamesFor mode)

def loopJobsFor (mode : WorkerMode) : List StartupJob := (startupJobsFor mode).filter (·.loop)

/-! ## The next tick -/

/-- `helpers.addJob` of a loop job, with an empty payload. -/
def addLoopJob (identifier : String) (priority : Int) (runAt : Nat) : JobSpec Json where
  identifier
  payload := .object []
  queueName := none
  runAt
  maxAttempts := LOOP_JOB_MAX_ATTEMPTS
  key := some identifier
  mode := .replace
  priority

def livePolls : List String := ["poll_live_games", "poll_top_live", "poll_realtime_stats"]

/-- The next tick of a live poll, as `runLiveTick` enqueues it first of all. -/
def runLiveTick (identifier : String) (started livePollIntervalMs : Nat) : JobSpec Json :=
  addLoopJob identifier 0 (started + livePollIntervalMs)

def rescheduleFinishedHistory (now historyFastPollMs : Nat) : JobSpec Json :=
  addLoopJob "poll_finished_history" 0 (now + historyFastPollMs)

def scheduleWalkSeqHistory (now delayMs : Nat) : JobSpec Json :=
  addLoopJob "walk_seq_history" 20 (now + delayMs)

def rescheduleReplenish (now replenishIntervalMs : Nat) : JobSpec Json :=
  addLoopJob "replenish_accounts" 15 (now + replenishIntervalMs)

def rescheduleSettleOrders (now marketplaceSettleIntervalMs : Nat) : JobSpec Json :=
  addLoopJob "settle_marketplace_orders" 16 (now + marketplaceSettleIntervalMs)

/-- There is no delay while there is more to archive. -/
def rescheduleArchive (now delayMs : Nat) : JobSpec Json :=
  addLoopJob "archive_parsed_replays" 30 (now + delayMs)

def rescheduleRetest (now retestIntervalMs : Nat) : JobSpec Json :=
  addLoopJob "retest_disabled_resources" 25 (now + retestIntervalMs)

def rescheduleMaintainRequestLogs (now : Nat) : JobSpec Json :=
  addLoopJob "maintain_request_logs" 40 (now + 60 * 60000)

/-- The walk through the leagues, and the key of its job. -/
def walkLeagues : String := "walk_league_history"

/-- The next walk, which is the only loop job on a named queue. -/
def scheduleNextWalk (now : Nat) (leagueId : Option Int) (detailsLimit : Int) (delayMs : Nat) :
    JobSpec Json :=
  enqueueJob now
    { identifier := walkLeagues
      payload := some (.object
        ((leagueId.map fun id => ("league_id", Json.number id)).toList ++
          [("matches_limit", .number detailsLimit)]))
      queueName := some "historical"
      priority := some 20
      jobKey := some walkLeagues
      jobKeyMode := some .replace
      runAt := some (now + delayMs) }

/-- The next tick of a loop job that stays off the named queues. -/
def nextTick (identifier : String) (now delayMs : Nat) : Option (JobSpec Json) :=
  if identifier ∈ livePolls then some (runLiveTick identifier now delayMs)
  else if identifier = "poll_finished_history" then some (rescheduleFinishedHistory now delayMs)
  else if identifier = "walk_seq_history" then some (scheduleWalkSeqHistory now delayMs)
  else if identifier = "replenish_accounts" then some (rescheduleReplenish now delayMs)
  else if identifier = "settle_marketplace_orders" then some (rescheduleSettleOrders now delayMs)
  else if identifier = "archive_parsed_replays" then some (rescheduleArchive now delayMs)
  else if identifier = "retest_disabled_resources" then some (rescheduleRetest now delayMs)
  else if identifier = "maintain_request_logs" then some (rescheduleMaintainRequestLogs now)
  else none

/-! ## Recovery -/

def loopJobsToRequeue (jobs : List StartupJob) (aliveKeys : List String) : List StartupJob :=
  jobs.filter fun job => job.jobKey.any (· ∉ aliveKeys)

def loadAliveLoopKeys (table : Table Cargo Progress) (keys : List String) : List String :=
  keys.filter fun key => (List.range table.fresh).any fun id =>
    (table.jobs id).any fun row => decide (row.key = some key) && row.alive

/-- What a tick of `ensure_loop_jobs` finds missing. -/
def missingLoopJobs (table : Table Cargo Progress) (mode : WorkerMode) : List StartupJob :=
  let jobs := loopJobsFor mode
  loopJobsToRequeue jobs (loadAliveLoopKeys table (jobs.filterMap (·.jobKey)))

/-- The job which such a tick enqueues. -/
def recoveredJob (now : Nat) (job : StartupJob) : JobSpec Json where
  identifier := job.identifier
  payload := .object []
  queueName := none
  runAt := now
  maxAttempts := job.maxAttempts.getD 25
  key := job.jobKey
  mode := .replace
  priority := job.priority.getD 0

/-! ## The system -/

/-- The job table, the ticks which have enqueued their next one, and what each tick of
`ensure_loop_jobs` has still to enqueue. -/
structure LoopState where
  jobs : State := {}
  requeued : Nat → Bool := fun _ => false
  recoveries : List (List StartupJob) := []

inductive LoopEvent where
  | job (event : Event)
  | requeue (id delayMs : Nat)
  | requeueWalk (id : Nat) (leagueId : Option Int) (detailsLimit : Int) (delayMs : Nat)
  | load (mode : WorkerMode)
  | recover (tick : Nat)
  | stop (tick : Nat)

namespace LoopState

/-- What has been found missing and is still to be enqueued. -/
def missing (state : LoopState) : List StartupJob := state.recoveries.flatten

/-- The rows descend from nobody in particular. -/
def add (state : LoopState) (spec : JobSpec Json) : Option LoopState :=
  (state.jobs.add 0 spec).map fun jobs => { state with jobs }

/-- The tick on a row enqueues the next one, once. -/
def requeue (state : LoopState) (id : Nat) (spec : JobSpec Json) : Option LoopState :=
  (state.add spec).map fun after =>
    { after with requeued := Function.update state.requeued id true }

/-- The row, if its tick is under way. -/
def running (state : LoopState) (id : Nat) : Option Row :=
  match state.jobs.table.jobs id with
  | some row =>
      match row.holder with
      | some (.running _ _) => some row
      | _ => none
  | none => none

/-- The row, if its tick is under way and has not enqueued the next one. -/
def ticking (state : LoopState) (id : Nat) : Option Row :=
  (state.running id).filter fun _ => !state.requeued id

/-- The row, if its tick has work to do: a live poll has it behind the requeue, the other jobs in
front of it. -/
def working (state : LoopState) (id : Nat) : Option Row :=
  (state.running id).filter fun row => decide (row.identifier ∈ livePolls) || !state.requeued id

end LoopState

/-- Nobody enqueues but the loop jobs and the ticks of `ensure_loop_jobs`, which may stop at any
point. -/
def nextLoop (env : Environment) (state : LoopState) : LoopEvent → Option LoopState
  | .job (.enqueue _ _) => none
  | .job (.begin id) =>
      (next env state.jobs (.begin id)).map fun jobs =>
        { state with jobs, requeued := Function.update state.requeued id false }
  | .job event => (next env state.jobs event).map fun jobs => { state with jobs }
  | .requeue id delayMs =>
      (state.ticking id).bind fun row =>
        (nextTick row.identifier state.jobs.clock delayMs).bind (state.requeue id)
  | .requeueWalk id leagueId detailsLimit delayMs =>
      (state.ticking id).bind fun row =>
        if row.identifier = walkLeagues then
          state.requeue id (scheduleNextWalk state.jobs.clock leagueId detailsLimit delayMs)
        else none
  | .load mode =>
      some
        { state with
          recoveries := state.recoveries ++ [missingLoopJobs state.jobs.table mode] }
  | .recover tick =>
      match state.recoveries[tick]? with
      | some (job :: missing) =>
          (state.add (recoveredJob state.jobs.clock job)).map fun after =>
            { after with recoveries := state.recoveries.set tick missing }
      | _ => none
  | .stop tick => some { state with recoveries := state.recoveries.set tick [] }

end Jobs
end DotaCollector
