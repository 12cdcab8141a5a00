import Mathlib.Tactic.SplitIfs
import DotaCollector.Jobs.Enqueue

/-!
# The budget in the payload

What the functions of the retry protocol do to the job they are about: the payload counts the
tries and keeps the budget and the queue, whichever of the two kinds of rows it travels in, and
everything else in it is left alone.
-/

namespace DotaCollector
namespace Jobs

open JobQueue

/-- A job for a named queue, with at least one attempt. -/
structure QueuedJob where
  input : EnqueueJobInput
  queueName : String
  maxAttempts : Nat
  queued : input.queueName = some queueName
  named : queueName ≠ ""
  budget : input.maxAttempts.getD 25 = maxAttempts
  positive : 1 ≤ maxAttempts

namespace QueuedJob

def body (payload : Option Json) : Record := (asRecord payload).getD []

/-- The payload belongs to the job after that many failures: it claims no other number of tries,
no other budget and no other queue, and its own fields are those of the job. -/
structure Fits (job : QueuedJob) (failures : Nat) (payload : Option Json) : Prop where
  tries : (asNumber ((body payload).get "_tries")).getD 1 = failures + 1
  budget : (asNumber ((body payload).get "_maxAttempts")).getD job.maxAttempts = job.maxAttempts
  queue : (asString ((body payload).get "_queueName")).getD job.queueName = job.queueName
  own : (body payload).own = (body job.input.payload).own

/-- The payload says all that the retries have to know. -/
structure Stamped (job : QueuedJob) (failures : Nat) (payload : Json) : Prop where
  fits : job.Fits failures (some payload)
  object : ∃ fields, payload = .object fields
  budget : asNumber ((body (some payload)).get "_maxAttempts") = some (job.maxAttempts : ℚ)

/-- The waiter of the job has a key of its own. -/
def Parts (job : QueuedJob) : Prop :=
  ∀ key, job.input.jobKey = some key → scheduledJobKey key ≠ key

/-- What the waiter of the job holds after that many failures. -/
structure Waits (job : QueuedJob) (failures : Nat) (scheduled : ScheduledJobPayload) : Prop where
  identifier : scheduled.identifier = job.input.identifier
  payload : job.Fits failures scheduled.payload
  carried : scheduled.payload ≠ none
  queueName : scheduled.queueName = job.queueName
  jobKey : scheduled.jobKey = job.input.jobKey
  jobKeyMode : scheduled.jobKeyMode = .unsafeDedupe → failures = 0 ∧ job.Parts
  priority : scheduled.priority = job.input.priority.getD 0
  maxAttempts : scheduled.maxAttempts = job.maxAttempts

/-- The job is not itself a waiter, its key is not empty, and its payload claims no other number
of tries, budget or queue. -/
structure Plain (job : QueuedJob) : Prop where
  task : job.input.identifier ≠ scheduledJob
  jobKey : job.input.jobKey ≠ some ""
  payload : job.Fits 0 job.input.payload

variable {job : QueuedJob} {failures : Nat} {payload : Option Json}

theorem Fits.congr {other : Option Json} (fits : job.Fits failures payload)
    (same : body other = body payload) : job.Fits failures other where
  tries := same ▸ fits.tries
  budget := same ▸ fits.budget
  queue := same ▸ fits.queue
  own := same ▸ fits.own

theorem Fits.stamp (fits : job.Fits failures payload) :
    job.Stamped failures (stampRetryBudget payload job.maxAttempts job.queueName) := by
  obtain ⟨tries, budget, queue, own⟩ := fits
  unfold stampRetryBudget
  cases record : asRecord payload with
  | none =>
      have bare : body payload = [] := by simp [body, record]
      rw [bare] at tries own
      refine ⟨⟨tries, rfl, ?_, own⟩, ⟨_, rfl⟩, rfl⟩
      simp [body, asRecord, Record.get, asString, job.named]
  | some fields =>
      have carried : body payload = fields := by simp [body, record]
      rw [carried] at tries budget queue own
      refine ⟨⟨?_, ?_, ?_, ?_⟩, ⟨_, rfl⟩, ?_⟩
      all_goals simp only [body, asRecord, Option.getD_some]
      · rwa [Record.get_set_of_ne (by decide), Record.get_set_of_ne (by decide)]
      · rw [Record.get_set_of_ne (by decide), Record.get_set_self, budget]
        rfl
      · rw [Record.get_set_self, queue]
        simp [asString, job.named]
      · rwa [Record.own_set (by decide), Record.own_set (by decide)]
      · rw [Record.get_set_of_ne (by decide), Record.get_set_self, budget]
        rfl

/-- The payload of the next try. -/
def retried (job : QueuedJob) (failures : Nat) (payload : Json) : Json :=
  .object (((body (some payload)).set "_tries" (.number (failures + 1 + 1))).set "_maxAttempts"
    (.number job.maxAttempts))

theorem Stamped.retried_fits {payload : Json} (stamped : job.Stamped failures payload) :
    job.Fits (failures + 1) (some (job.retried failures payload)) := by
  obtain ⟨⟨-, -, queue, own⟩, -, -⟩ := stamped
  refine ⟨?_, ?_, ?_, ?_⟩
  all_goals simp only [body, retried, asRecord, Option.getD_some]
  · rw [Record.get_set_of_ne (by decide), Record.get_set_self]
    simp [asNumber]
  · rw [Record.get_set_self]
    rfl
  · rwa [Record.get_set_of_ne (by decide), Record.get_set_of_ne (by decide)]
  · rwa [Record.own_set (by decide), Record.own_set (by decide)]

end QueuedJob

/-! ## The jobs which are added -/

theorem jobRetryDelayMs_pos (failedTry : ℚ) : 0 < jobRetryDelayMs failedTry := by
  unfold jobRetryDelayMs
  dsimp only
  split_ifs <;> omega

/-- A job of a named queue which is due is added to it. -/
theorem enqueueJob_due {now : Nat} {input : EnqueueJobInput} {queueName : String}
    (queued : input.queueName = some queueName) (named : queueName ≠ "")
    (due : input.runAt.getD now ≤ now) :
    enqueueJob now input =
      { identifier := input.identifier
        payload := stampRetryBudget input.payload (input.maxAttempts.getD 25) queueName
        queueName := some queueName
        runAt := input.runAt.getD now
        maxAttempts := 1
        key := input.jobKey
        mode := input.jobKeyMode.getD .replace
        priority := input.priority.getD 0 } := by
  have immediate : ¬ now < input.runAt.getD now := by omega
  simp only [enqueueJob, queued, if_neg named, if_neg immediate]

/-- A job of a named queue which is not due waits off the queue. -/
theorem enqueueJob_later {now : Nat} {input : EnqueueJobInput} {queueName : String}
    (queued : input.queueName = some queueName) (named : queueName ≠ "")
    (later : now < input.runAt.getD now) :
    enqueueJob now input =
      { identifier := scheduledJob
        payload := ScheduledJobPayload.toJson
          { identifier := input.identifier
            payload := some (orEmpty input.payload)
            queueName
            jobKey := input.jobKey
            jobKeyMode := input.jobKeyMode.getD .replace
            priority := input.priority.getD 0
            maxAttempts := input.maxAttempts.getD 25 }
        queueName := none
        runAt := input.runAt.getD now
        maxAttempts := 1
        key := input.jobKey.map scheduledJobKey
        mode := input.jobKeyMode.getD .replace
        priority := input.priority.getD 0 } := by
  simp only [enqueueJob, queued, if_neg named, if_pos later]

theorem parseMode_modeText (mode : KeyMode) :
    parseMode (some (.string (modeText mode))) = mode := by
  cases mode
  all_goals simp [parseMode, modeText]

/-- A waiter is read back as it was written, if it names a task. -/
theorem parseScheduledJob_toJson {scheduled : ScheduledJobPayload}
    (named : scheduled.queueName ≠ "") (keyed : scheduled.jobKey ≠ some "")
    (carried : scheduled.payload ≠ none) :
    parseScheduledJob scheduled.toJson =
      if scheduled.identifier = "" then none else some scheduled := by
  obtain ⟨name, payload, queueName, jobKey, mode, priority, maxAttempts⟩ := scheduled
  obtain ⟨payload, rfl⟩ := Option.ne_none_iff_exists'.mp carried
  have key : asString (some ((jobKey.map Json.string).getD .null)) = jobKey := by
    cases jobKey with
    | none => rfl
    | some text =>
        have filled : text ≠ "" := fun empty => keyed (empty ▸ rfl)
        simp [asString, filled]
  have queue : asString (some (.string queueName)) = some queueName := by
    simpa [asString] using named
  by_cases unnamed : name = ""
  · simp [parseScheduledJob, ScheduledJobPayload.toJson, asRecord, Record.get, unnamed, asString]
  · have called : asString (some (.string name)) = some name := by simpa [asString] using unnamed
    simp [parseScheduledJob, ScheduledJobPayload.toJson, asRecord, Record.get, unnamed, called,
      queue, key, parseMode_modeText, asNumber]

namespace QueuedJob

variable {job : QueuedJob} {failures now : Nat}

/-- The row in which the job goes back to its queue. -/
def returned (job : QueuedJob) (now : Nat) (scheduled : ScheduledJobPayload) : JobSpec Json where
  identifier := job.input.identifier
  payload := stampRetryBudget scheduled.payload job.maxAttempts job.queueName
  queueName := some job.queueName
  runAt := now
  maxAttempts := 1
  key := job.input.jobKey
  mode := scheduled.jobKeyMode
  priority := job.input.priority.getD 0

/-- A due waiter adds its job to the queue. -/
theorem Waits.runScheduledJob {scheduled : ScheduledJobPayload}
    (waits : job.Waits failures scheduled) (keyed : job.input.jobKey ≠ some "") :
    runScheduledJob now scheduled.toJson =
      if job.input.identifier = "" then none else some (job.returned now scheduled) := by
  have parsed := parseScheduledJob_toJson (waits.queueName ▸ job.named) (waits.jobKey ▸ keyed)
    waits.carried
  rw [waits.identifier] at parsed
  unfold Jobs.runScheduledJob
  rw [parsed]
  split
  · rfl
  · rw [Option.map_some, enqueueJob_due rfl (waits.queueName ▸ job.named) (Nat.le_refl _)]
    simp only [Option.getD_some, waits.identifier, waits.queueName, waits.jobKey, waits.priority,
      waits.maxAttempts, returned]

/-- The waiter for the try after a failure. -/
def waiter (job : QueuedJob) (failures : Nat) (payload : Json) : ScheduledJobPayload where
  identifier := job.input.identifier
  payload := some (job.retried failures payload)
  queueName := job.queueName
  jobKey := job.input.jobKey
  jobKeyMode := .replace
  priority := job.input.priority.getD 0
  maxAttempts := job.maxAttempts

theorem Stamped.waits {payload : Json} (stamped : job.Stamped failures payload) :
    job.Waits (failures + 1) (job.waiter failures payload) where
  identifier := rfl
  payload := stamped.retried_fits
  carried := Option.some_ne_none _
  queueName := rfl
  jobKey := rfl
  jobKeyMode := by
    intro dedupe
    cases dedupe
  priority := rfl
  maxAttempts := rfl

/-- The row in which the next try waits. -/
def parked (job : QueuedJob) (now failures : Nat) (payload : Json) : JobSpec Json where
  identifier := scheduledJob
  payload := (job.waiter failures payload).toJson
  queueName := none
  runAt := now + jobRetryDelayMs (failures + 1 : Nat)
  maxAttempts := 1
  key := job.input.jobKey.map scheduledJobKey
  mode := .replace
  priority := job.input.priority.getD 0

/-! ### The checks of the tables -/

/-- The tables take the rows of the job, on its queue and off it. -/
structure Storable (job : QueuedJob) : Prop where
  identifier : job.input.identifier.length ≤ 128
  queueName : job.queueName.length ≤ 128
  keys : ∀ key, job.input.jobKey = some key → key ≠ "" ∧ (scheduledJobKey key).length ≤ 512
  priority : (job.input.priority.getD 0).den = 1 ∧ -32768 ≤ job.input.priority.getD 0 ∧
    job.input.priority.getD 0 ≤ 32767

theorem length_scheduledJobKey (key : String) : key.length ≤ (scheduledJobKey key).length := by
  unfold scheduledJobKey
  split
  · exact Nat.le_refl _
  · rw [String.length_append]
    exact Nat.le_add_left _ _

theorem one_attempt : (1 : ℚ).den = 1 ∧ (1 : ℚ) ≤ 1 ∧ (1 : ℚ) ≤ 32767 := by decide +kernel

theorem Storable.returned (storable : job.Storable) (now : Nat) (scheduled : ScheduledJobPayload) :
    (job.returned now scheduled).Accepted where
  identifier := storable.identifier
  queueName name named := by
    obtain rfl := Option.mem_some_iff.mp named
    exact storable.queueName
  key key keyed := by
    obtain ⟨filled, short⟩ := storable.keys key keyed
    have filled : key.length ≠ 0 := fun empty => filled (String.length_eq_zero_iff.mp empty)
    have longer := length_scheduledJobKey key
    omega
  maxAttempts := one_attempt
  priority := storable.priority

theorem Storable.parked (storable : job.Storable) (now failures : Nat) (payload : Json) :
    (job.parked now failures payload).Accepted where
  identifier := by
    change scheduledJob.length ≤ 128
    decide
  queueName name named := by cases named
  key key keyed := by
    obtain ⟨own, named, rfl⟩ := Option.map_eq_some_iff.mp keyed
    obtain ⟨filled, short⟩ := storable.keys own named
    have filled : own.length ≠ 0 := fun empty => filled (String.length_eq_zero_iff.mp empty)
    have longer := length_scheduledJobKey own
    omega
  maxAttempts := one_attempt
  priority := storable.priority

/-- A failed try is the last one, or a waiter is parked for the next. -/
theorem Stamped.scheduleQueuedJobRetry {payload : Json} (stamped : job.Stamped failures payload) :
    scheduleQueuedJobRetry now job.input.identifier payload job.queueName job.input.jobKey
        (job.input.priority.getD 0) 1 =
      if job.maxAttempts ≤ failures + 1 then none else some (job.parked now failures payload) := by
  have count : ((failures + 1 : Nat) : ℚ) = failures + 1 := Nat.cast_succ failures
  have delay := jobRetryDelayMs_pos (failures + 1)
  have tries := stamped.fits.tries
  have budget := stamped.budget
  simp only [body] at tries budget
  unfold Jobs.scheduleQueuedJobRetry
  simp only [tries, budget, Option.getD_some, ← count, Nat.cast_le]
  by_cases last : job.maxAttempts ≤ failures + 1
  · rw [if_pos last, if_pos last]
  · rw [if_neg last, if_neg last]
    rw [enqueueJob_later rfl job.named (by simpa using delay)]
    rw [parked, waiter, retried, count]
    rfl

/-- What the wrapper does with an error of a job on its queue. -/
theorem Stamped.recover {payload : Json} {parse : String → Option Json} {error : JobError}
    (stamped : job.Stamped failures payload) :
    recover parse now job.input.identifier error payload (some job.queueName) job.input.jobKey
        (job.input.priority.getD 0) 1 =
      if skips job.input.identifier error then .skip
      else if job.maxAttempts ≤ failures + 1 then .giveUp
      else .retry (job.parked now failures payload) := by
  obtain ⟨fields, object⟩ := stamped.object
  have read : readJobPayload parse payload = body (some payload) := by
    subst object
    rfl
  have queue : (asString ((body (some payload)).get "_queueName")).or (some job.queueName) =
      some job.queueName := by
    have kept := stamped.fits.queue
    cases said : asString ((body (some payload)).get "_queueName") with
    | none => rfl
    | some name =>
        rw [said] at kept
        exact congrArg some kept
  have named := job.named
  unfold Jobs.recover
  rw [read, queue]
  split
  · rfl
  · split
    · simp_all
    · simp_all
    · rename_i name _ same
      cases same
      have first : max ((1 : Nat) : ℚ) 1 = 1 := by simp
      rw [first, stamped.scheduleQueuedJobRetry]
      by_cases last : job.maxAttempts ≤ failures + 1
      · rw [if_pos last, if_pos last]
      · rw [if_neg last, if_neg last]

end QueuedJob

end Jobs
end DotaCollector
