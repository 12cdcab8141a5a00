import DotaCollector.Library.JobQueue
import DotaCollector.Jobs.Payload

/-!
# Enqueueing on named queues

A job for a named queue is added with one attempt only. Its budget of attempts travels in the
payload, and a job that is not due yet, or has to be tried again later, is parked as a
`run_scheduled_job` without a queue, which hops back onto the queue when its time has come. Times
are milliseconds; the clock is read once in a call.
-/

namespace DotaCollector
namespace Jobs

open JobQueue

/-! ## Adding a job -/

/-- The off-queue waiter, which hops back onto a named queue. -/
def scheduledJob : String := "run_scheduled_job"

structure EnqueueJobInput where
  identifier : String
  payload : Option Json := none
  queueName : Option String := none
  runAt : Option Nat := none
  jobKey : Option String := none
  jobKeyMode : Option KeyMode := none
  maxAttempts : Option ℚ := none
  priority : Option ℚ := none

structure ScheduledJobPayload where
  identifier : String
  payload : Option Json
  queueName : String
  jobKey : Option String
  jobKeyMode : KeyMode
  priority : ℚ
  maxAttempts : ℚ

def scheduledJobKey (jobKey : String) : String :=
  if jobKey.startsWith "later:" then jobKey else "later:" ++ jobKey

def jobRetryDelayMs (failedTry : ℚ) : Nat :=
  let n := max failedTry 1
  if n ≤ 1 then 30000
  else if n ≤ 2 then 60000
  else if n ≤ 5 then 3 * 60000
  else if n ≤ 10 then 15 * 60000
  else 60 * 60000

def modeText : KeyMode → String
  | .replace => "replace"
  | .preserveRunAt => "preserve_run_at"
  | .unsafeDedupe => "unsafe_dedupe"

def ScheduledJobPayload.toJson (scheduled : ScheduledJobPayload) : Json :=
  .object
    [("identifier", .string scheduled.identifier),
      ("payload", scheduled.payload.getD .null),
      ("queueName", .string scheduled.queueName),
      ("jobKey", (scheduled.jobKey.map Json.string).getD .null),
      ("jobKeyMode", .string (modeText scheduled.jobKeyMode)),
      ("priority", .number scheduled.priority),
      ("maxAttempts", .number scheduled.maxAttempts)]

def parseMode (mode : Option Json) : KeyMode :=
  match mode with
  | some (.string text) =>
      if text = "preserve_run_at" then .preserveRunAt
      else if text = "unsafe_dedupe" then .unsafeDedupe
      else .replace
  | _ => .replace

def parseScheduledJob (payload : Json) : Option ScheduledJobPayload := do
  let body ← asRecord (some payload)
  let identifier ← asString (body.get "identifier")
  let queueName ← asString (body.get "queueName")
  return {
    identifier
    payload := body.get "payload"
    queueName
    jobKey := asString (body.get "jobKey")
    jobKeyMode := parseMode (body.get "jobKeyMode")
    priority := (asNumber (body.get "priority")).getD 0
    maxAttempts := (asNumber (body.get "maxAttempts")).getD 25 }

/-- The budget and the queue travel in the payload; what it says already stays. -/
def stampRetryBudget (payload : Option Json) (maxAttempts : ℚ) (queueName : String) : Json :=
  match asRecord payload with
  | none =>
      .object [("_maxAttempts", .number maxAttempts), ("_queueName", .string queueName)]
  | some body =>
      .object ((body.set "_maxAttempts"
          (.number ((asNumber (body.get "_maxAttempts")).getD maxAttempts))).set "_queueName"
        (.string ((asString (body.get "_queueName")).getD queueName)))

/-- The job which `enqueueJob` adds. -/
def enqueueJob (now : Nat) (input : EnqueueJobInput) : JobSpec Json :=
  let runAt := input.runAt.getD now
  let mode := input.jobKeyMode.getD .replace
  let priority := input.priority.getD 0
  match input.queueName with
  | some queueName =>
      if queueName = "" then
        { identifier := input.identifier, payload := orEmpty input.payload
          queueName := some queueName, runAt, maxAttempts := input.maxAttempts.getD 25
          key := input.jobKey, mode, priority }
      else if now < runAt then
        let scheduled : ScheduledJobPayload :=
          { identifier := input.identifier, payload := some (orEmpty input.payload), queueName
            jobKey := input.jobKey, jobKeyMode := mode, priority
            maxAttempts := input.maxAttempts.getD 25 }
        { identifier := scheduledJob, payload := scheduled.toJson, queueName := none, runAt
          maxAttempts := 1, key := input.jobKey.map scheduledJobKey, mode, priority }
      else
        { identifier := input.identifier
          payload := stampRetryBudget input.payload (input.maxAttempts.getD 25) queueName
          queueName := some queueName, runAt, maxAttempts := 1, key := input.jobKey, mode
          priority }
  | none =>
      { identifier := input.identifier, payload := orEmpty input.payload, queueName := none, runAt
        maxAttempts := input.maxAttempts.getD 25, key := input.jobKey, mode, priority }

/-- The job which a due waiter adds; a payload which does not parse throws. -/
def runScheduledJob (now : Nat) (payload : Json) : Option (JobSpec Json) :=
  (parseScheduledJob payload).map fun scheduled =>
    enqueueJob now
      { identifier := scheduled.identifier
        payload := scheduled.payload
        queueName := some scheduled.queueName
        jobKey := scheduled.jobKey
        jobKeyMode := some scheduled.jobKeyMode
        priority := some scheduled.priority
        maxAttempts := some scheduled.maxAttempts
        runAt := some now }

/-- The job by which a failed one is tried again, unless its budget is used up. -/
def scheduleQueuedJobRetry (now : Nat) (identifier : String) (payload : Json)
    (queueName : String) (jobKey : Option String) (priority failedTry : ℚ) :
    Option (JobSpec Json) :=
  let body := (asRecord (some payload)).getD []
  let failedTry := (asNumber (body.get "_tries")).getD failedTry
  let maxAttempts := (asNumber (body.get "_maxAttempts")).getD 25
  if maxAttempts ≤ failedTry then none
  else
    some (enqueueJob now
      { identifier
        payload := some (.object
          ((body.set "_tries" (.number (failedTry + 1))).set "_maxAttempts" (.number maxAttempts)))
        queueName := some queueName
        jobKey
        jobKeyMode := some .replace
        priority := some priority
        maxAttempts := some maxAttempts
        runAt := some (now + jobRetryDelayMs failedTry) })

/-! ## The wrapper of a task -/

/-- The errors which the wrapper tells apart. -/
inductive JobError where
  | liveCircuitOpen
  | noReadyKey
  | other
  deriving DecidableEq, Repr

/-- The tasks which are skipped when there is no key. -/
def skipNoKey (name : String) : Bool :=
  name ∈ ["fetch_leagues", "poll_live_games", "poll_top_live", "poll_realtime_stats",
    "poll_finished_history", "walk_league_history", "process_league"]

/-- The errors behind which a job is skipped. -/
def skips (name : String) : JobError → Bool
  | .liveCircuitOpen => true
  | .noReadyKey => skipNoKey name
  | .other => false

/-- What becomes of a job whose task has thrown. -/
inductive Recovery where
  /-- It is skipped. -/
  | skip
  /-- Its budget is used up. -/
  | giveUp
  | retry (spec : JobSpec Json)
  | rethrow

/-- The catch of `traced`, for a job as it was when it was locked. -/
def recover (parse : String → Option Json) (now : Nat) (name : String) (error : JobError)
    (payload : Json) (queueName key : Option String) (priority : ℚ) (attempts : Nat) :
    Recovery :=
  if skips name error then .skip
  else
    match (asString ((readJobPayload parse payload).get "_queueName")).or queueName with
    | none | some "" => .rethrow
    | some queueName =>
        match scheduleQueuedJobRetry now name payload queueName key priority (max attempts 1) with
        | none => .giveUp
        | some spec => .retry spec

end Jobs
end DotaCollector
