import Mathlib.Data.List.Nodup
import DotaCollector.Jobs.Budget
import DotaCollector.Jobs.Loops

/-!
# The rows of loop jobs

The row of a loop job that stays off the named queues keeps the name of its job as its key until
its tick has enqueued the next one. The walk through the leagues has rows of its own, under keys of
its own.
-/

namespace DotaCollector
namespace Jobs

open JobQueue

/-- The loop jobs that stay off the named queues. -/
def loops : List String :=
  livePolls ++ ["poll_finished_history", "walk_seq_history", "replenish_accounts",
    "settle_marketplace_orders", "archive_parsed_replays", "retest_disabled_resources",
    "maintain_request_logs"]

theorem nextTick_eq {identifier : String} {now delayMs : Nat} {spec : JobSpec Json}
    (next : nextTick identifier now delayMs = some spec) :
    identifier ∈ loops ∧ ∃ priority runAt, spec = addLoopJob identifier priority runAt := by
  unfold nextTick at next
  split at next
  · rename_i live
    cases next
    exact ⟨List.mem_append_left _ live, _, _, rfl⟩
  repeat
    split at next
    · rename_i named
      subst named
      cases next
      exact ⟨by decide +kernel, _, _, rfl⟩
  cases next

theorem mem_loopJobsFor {mode : WorkerMode} {job : StartupJob} (listed : job ∈ loopJobsFor mode) :
    job.jobKey = some job.identifier ∧
      (job.identifier ∈ loops ∨ job.identifier = walkLeagues) := by
  have all : ∀ job ∈ loopJobsFor mode, job.jobKey = some job.identifier ∧
      (job.identifier ∈ loops ∨ job.identifier = walkLeagues) := by
    cases mode
    all_goals decide +kernel
  exact all job listed

theorem recoveredJob_maxAttempts {mode : WorkerMode} {job : StartupJob} (now : Nat)
    (listed : job ∈ loopJobsFor mode) : (recoveredJob now job).maxAttempts = 25 := by
  have all : ∀ job ∈ loopJobsFor mode, job.maxAttempts.getD 25 = 25 := by
    cases mode
    all_goals decide +kernel
  change ((job.maxAttempts.getD 25 : Nat) : ℚ) = 25
  rw [all job listed, Nat.cast_ofNat]

theorem nodup_loopJobsFor (mode : WorkerMode) : ((loopJobsFor mode).map (·.identifier)).Nodup := by
  cases mode
  all_goals decide +kernel

/-- The keys of the loop jobs and of their waiters are all different. -/
theorem keys_apart : walkLeagues ∉ loops ∧ scheduledJobKey walkLeagues ∉ loops ∧
    scheduledJob ∉ loops ∧ ∀ name ∈ loops, scheduledJobKey name ∉ loops ∧
      scheduledJobKey name ≠ walkLeagues ∧ scheduledJobKey name ≠ scheduledJobKey walkLeagues := by
  decide +kernel

/-! ## The walk through the leagues -/

/-- What a waiter of the walk holds. -/
structure WalkWaits (scheduled : ScheduledJobPayload) : Prop where
  identifier : scheduled.identifier = walkLeagues
  jobKey : scheduled.jobKey = none ∨ scheduled.jobKey = some walkLeagues
  queueName : scheduled.queueName ≠ ""
  payload : scheduled.payload ≠ none

/-- A walk, or a waiter for one. -/
inductive Walk : (identifier : String) → (queueName key : Option String) → Json → Prop where
  | walk {queueName key : Option String} {body : Json}
      (keyed : key = none ∨ key = some walkLeagues) :
      Walk walkLeagues queueName key body
  | waiter {key : Option String} {scheduled : ScheduledJobPayload}
      (keyed : key = none ∨ key = some (scheduledJobKey walkLeagues))
      (waits : WalkWaits scheduled) : Walk scheduledJob none key scheduled.toJson

def WalkSpec (spec : JobSpec Json) : Prop :=
  Walk spec.identifier spec.queueName spec.key spec.payload

/-- Enqueueing a walk gives a walk or a waiter for one. -/
theorem walkSpec_enqueueJob {now : Nat} {input : EnqueueJobInput} {queueName : String}
    (identifier : input.identifier = walkLeagues) (queued : input.queueName = some queueName)
    (named : queueName ≠ "") (keyed : input.jobKey = none ∨ input.jobKey = some walkLeagues) :
    WalkSpec (enqueueJob now input) := by
  by_cases due : input.runAt.getD now ≤ now
  · rw [enqueueJob_due queued named due]
    unfold WalkSpec
    rw [identifier]
    exact .walk keyed
  · rw [enqueueJob_later queued named (not_le.mp due)]
    refine .waiter ?_ ⟨identifier, keyed, named, Option.some_ne_none _⟩
    rcases keyed with none | walk
    · exact .inl (by rw [none]; rfl)
    · exact .inr (by rw [walk]; rfl)

/-- A waiter for a walk adds the walk. -/
theorem WalkWaits.runScheduledJob {scheduled : ScheduledJobPayload} {now : Nat}
    {spec : JobSpec Json} (waits : WalkWaits scheduled)
    (parsed : runScheduledJob now scheduled.toJson = some spec) : WalkSpec spec := by
  have keyed : scheduled.jobKey ≠ some "" := by
    rcases waits.jobKey with none | walk
    · simp [none]
    · rw [walk]
      decide
  have named : scheduled.identifier ≠ "" := by
    rw [waits.identifier]
    decide
  unfold Jobs.runScheduledJob at parsed
  rw [parseScheduledJob_toJson waits.queueName keyed waits.payload, if_neg named,
    Option.map_some, Option.some_inj] at parsed
  rw [← parsed]
  exact walkSpec_enqueueJob waits.identifier rfl waits.queueName waits.jobKey

/-- A walk which has failed is parked as a walk. -/
theorem walkSpec_retry {parse : String → Option Json} {now : Nat} {error : JobError} {body : Json}
    {queueName key : Option String} {priority : ℚ} {attempts : Nat} {spec : JobSpec Json}
    (keyed : key = none ∨ key = some walkLeagues)
    (retry : recover parse now walkLeagues error body queueName key priority attempts =
      .retry spec) : WalkSpec spec := by
  unfold recover at retry
  split at retry
  · cases retry
  · split at retry
    · cases retry
    · cases retry
    · rename_i name named _
      split at retry
      · cases retry
      · rename_i parked scheduled
        cases retry
        unfold scheduleQueuedJobRetry at scheduled
        dsimp only at scheduled
        split at scheduled
        · cases scheduled
        · rw [Option.some_inj] at scheduled
          rw [← scheduled]
          refine walkSpec_enqueueJob rfl rfl (fun empty => named ?_) keyed
          rw [empty]

/-- A waiter for a walk which throws is not parked. -/
theorem waiter_rethrows {parse : String → Option Json} {now : Nat} {error : JobError}
    {scheduled : ScheduledJobPayload} {key : Option String} {priority : ℚ} {attempts : Nat}
    {spec : JobSpec Json} :
    recover parse now scheduledJob error scheduled.toJson none key priority attempts ≠
      .retry spec := by
  intro retry
  unfold recover at retry
  split at retry
  · cases retry
  · simp [readJobPayload, ScheduledJobPayload.toJson, Record.get, asString] at retry

/-- Neither is a loop job off the named queues. -/
theorem loop_rethrows {parse : String → Option Json} {now : Nat} {name : String} {error : JobError}
    {key : Option String} {priority : ℚ} {attempts : Nat} {spec : JobSpec Json} :
    recover parse now name error (.object []) none key priority attempts ≠ .retry spec := by
  intro retry
  unfold recover at retry
  split at retry
  · cases retry
  · simp [readJobPayload, Record.get, asString] at retry

/-! ## Rows -/

/-- A row of a loop job off the named queues: it goes under the name of its job, unless its tick
has enqueued the next one and the key is gone. -/
structure LoopRow (requeued : Bool) (row : Row) : Prop where
  listed : row.identifier ∈ loops
  body : row.payload.body = .object []
  queueName : row.queueName = none
  busy : ∀ progress, row.holder = some progress → progress.adding = none
  key : row.key = some row.identifier ∨ row.key = none ∧ row.maxAttempts ≤ row.attempts ∧
    ∀ key attempts, row.holder = some (.running key attempts) → requeued = true

/-- A row of the walk, or of a waiter for one. -/
structure WalkRow (row : Row) : Prop where
  walk : Walk row.identifier row.queueName row.key row.payload.body
  adds : ∀ progress spec, row.holder = some progress → progress.adding = some spec → WalkSpec spec
  locked : row.identifier = walkLeagues → ∀ progress key attempts, row.holder = some progress →
    progress.atWork = some (key, attempts) → key = none ∨ key = some walkLeagues

def RowKind (requeued : Bool) (row : Row) : Prop := LoopRow requeued row ∨ WalkRow row

variable {row : Row} {requeued : Bool}

theorem Walk.key_ne {identifier name : String} {queueName key : Option String} {body : Json}
    (walk : Walk identifier queueName key body) (listed : name ∈ loops) :
    key ≠ some name ∧ key ≠ some (scheduledJobKey name) := by
  obtain ⟨walkApart, laterApart, -, parts⟩ := keys_apart
  obtain ⟨-, neWalk, neLater⟩ := parts name listed
  have plain : name ≠ walkLeagues := fun same => walkApart (same ▸ listed)
  have later : name ≠ scheduledJobKey walkLeagues := fun same => laterApart (same ▸ listed)
  cases walk with
  | walk keyed =>
      rcases keyed with rfl | rfl
      · simp
      · simp [plain.symm, neWalk.symm]
  | waiter keyed =>
      rcases keyed with rfl | rfl
      · simp
      · simp [later.symm, neLater.symm]

theorem Walk.keyed {identifier : String} {queueName key : Option String} {body : Json}
    (walk : Walk identifier queueName key body) (named : identifier = walkLeagues) :
    key = none ∨ key = some walkLeagues := by
  cases walk with
  | walk keyed => exact keyed
  | waiter => exact absurd named (by decide)

theorem Walk.waits {identifier : String} {queueName key : Option String} {body : Json}
    (walk : Walk identifier queueName key body) (named : identifier = scheduledJob) :
    ∃ scheduled, body = scheduled.toJson ∧ WalkWaits scheduled := by
  cases walk with
  | walk => exact absurd named (by decide)
  | waiter keyed waits => exact ⟨_, rfl, waits⟩

theorem Walk.not_listed {identifier : String} {queueName key : Option String} {body : Json}
    (walk : Walk identifier queueName key body) : identifier ∉ loops := by
  cases walk with
  | walk => exact keys_apart.1
  | waiter => exact keys_apart.2.2.1

/-- No waiter goes under the name of a loop job off the named queues. -/
theorem RowKind.key_ne_later {name : String} (kind : RowKind requeued row)
    (listed : name ∈ loops) : row.key ≠ some (scheduledJobKey name) := by
  intro later
  rcases kind with loop | walk
  · rcases loop.key with named | ⟨none, -⟩
    · have same := Option.some_inj.mp (named.symm.trans later)
      exact (keys_apart.2.2.2 name listed).1 (same ▸ loop.listed)
    · rw [none] at later
      cases later
  · exact (walk.walk.key_ne listed).2 later

/-- The tick on a row that has not enqueued the next one goes under the name of its job. -/
theorem LoopRow.key_of_ticking {key : Option String} {attempts : Nat} (loop : LoopRow false row)
    (holder : row.holder = some (.running key attempts)) : row.key = some row.identifier := by
  rcases loop.key with named | ⟨-, -, later⟩
  · exact named
  · cases later key attempts holder

theorem RowKind.mono {before after : Bool} (kind : RowKind before row)
    (implies : before = true → after = true) : RowKind after row := by
  refine kind.imp_left fun loop => ⟨loop.listed, loop.body, loop.queueName, loop.busy, ?_⟩
  refine loop.key.imp_right fun ⟨bare, used, later⟩ => ⟨bare, used, ?_⟩
  intro key attempts holder
  exact implies (later key attempts holder)

theorem RowKind.at (kind : RowKind requeued row) (runAt : Nat) :
    RowKind requeued { row with runAt } :=
  kind.imp (fun loop => ⟨loop.listed, loop.body, loop.queueName, loop.busy, loop.key⟩)
    fun walk => ⟨walk.walk, walk.adds, walk.locked⟩

/-- A row which has lost its key. -/
theorem RowKind.detach (kind : RowKind requeued row)
    (later : row.identifier ∈ loops → row.holder ≠ none → requeued = true) :
    RowKind requeued row.detach := by
  rcases kind with loop | walk
  · refine .inl ⟨loop.listed, loop.body, loop.queueName, loop.busy,
      .inr ⟨rfl, Nat.le_refl _, fun key attempts holder => ?_⟩⟩
    have held : row.holder = some (.running key attempts) := holder
    exact later loop.listed (by simp [held])
  · refine .inr ⟨?_, walk.adds, walk.locked⟩
    have kind := walk.walk
    change Walk row.identifier row.queueName none row.payload.body
    generalize row.identifier = identifier, row.queueName = queueName, row.payload.body = body
      at kind
    cases kind with
    | walk => exact .walk (.inl rfl)
    | waiter keyed waits => exact .waiter (.inl rfl) waits

/-- What a row says that is added, or that overwrites another one. -/
def Told (spec : JobSpec Json) (body : Json) : Prop :=
  body = spec.payload ∨ ∃ old, body = mergePayload old spec.payload

theorem Told.of_object {spec : JobSpec Json} {body : Json} {fields : List (String × Json)}
    (told : Told spec body) (object : spec.payload = .object fields) : body = .object fields := by
  rcases told with same | ⟨old, merged⟩
  · exact same.trans object
  · rw [merged, object]
    cases old
    all_goals rfl

theorem WalkSpec.told {spec : JobSpec Json} {body : Json} (walk : WalkSpec spec)
    (told : Told spec body) : Walk spec.identifier spec.queueName spec.key body := by
  unfold WalkSpec at walk
  generalize spec.identifier = identifier, spec.queueName = queueName, spec.key = key,
    listed : spec.payload = payload at walk
  cases walk with
  | walk keyed => exact .walk keyed
  | waiter keyed waits =>
      rw [told.of_object listed]
      exact .waiter keyed waits

theorem WalkSpec.rowKind {spec : JobSpec Json} {payload : Cargo} (walk : WalkSpec spec)
    (owner : Nat) (told : Told spec payload.body) :
    RowKind requeued { labelled owner spec with payload } := by
  refine .inr ⟨walk.told told, ?_, ?_⟩
  · intro progress spec holder
    cases holder
  · intro named progress key attempts holder
    cases holder

/-- A worker locks a row. -/
theorem RowKind.lock (kind : RowKind requeued row) (left : row.attempts < row.maxAttempts)
    (tries : Nat) : RowKind false (row.lock (.running row.key tries)) := by
  rcases kind with loop | walk
  · refine .inl ⟨loop.listed, loop.body, loop.queueName, ?_, ?_⟩
    · intro progress holder
      cases holder
      rfl
    · rcases loop.key with named | ⟨-, used, -⟩
      · exact .inl named
      · omega
  · refine .inr ⟨walk.walk, ?_, ?_⟩
    · intro progress spec holder adding
      cases holder
      cases adding
    · intro named progress key attempts holder atWork
      cases holder
      cases atWork
      exact walk.walk.keyed named

/-- A worker of a locked row moves on, out of the task. -/
theorem RowKind.hold (kind : RowKind requeued row) {holder : Option Progress}
    (idle : ∀ progress, holder = some progress → progress.past = true) :
    RowKind requeued { row with holder } := by
  rcases kind with loop | walk
  · refine .inl ⟨loop.listed, loop.body, loop.queueName, ?_, ?_⟩
    · intro progress held
      have past := idle progress held
      cases progress with
      | hopping | parking => cases past
      | _ => rfl
    · refine loop.key.imp_right fun ⟨bare, used, _⟩ => ⟨bare, used, ?_⟩
      intro key attempts held
      cases idle _ held
  · refine .inr ⟨walk.walk, ?_, ?_⟩
    · intro progress spec held adding
      have past := idle progress held
      cases progress with
      | hopping | parking => cases past
      | _ => cases adding
    · intro named progress key attempts held atWork
      have past := idle progress held
      cases progress with
      | running | hopping => cases past
      | _ => cases atWork

/-- The wrapper parks what `recover` says, which only a walk can be told. -/
theorem RowKind.park {parse : String → Option Json} {now attempts : Nat} {error : JobError}
    {key : Option String} {progress : Progress} {spec : JobSpec Json}
    (kind : RowKind requeued row) (holder : row.holder = some progress)
    (atWork : progress.atWork = some (key, attempts))
    (retry : recover parse now row.identifier error row.payload.body row.queueName key
      row.priority attempts = .retry spec) :
    RowKind requeued { row with holder := some (.parking spec) } := by
  rcases kind with loop | walk
  · rw [loop.body, loop.queueName] at retry
    exact (loop_rethrows retry).elim
  · have parked : WalkSpec spec := by
      have kind := walk.walk
      have locked := walk.locked
      generalize row.identifier = identifier, row.queueName = queueName,
        row.payload.body = body at kind retry locked
      cases kind with
      | walk keyed => exact walkSpec_retry (locked rfl progress key attempts holder atWork) retry
      | waiter => exact (waiter_rethrows retry).elim
    refine .inr ⟨walk.walk, ?_, ?_⟩
    · intro other added held adding
      cases held
      cases adding
      exact parked
    · intro named other key attempts held atWork
      cases held
      cases atWork

/-- A waiter hops, which only one for a walk does. -/
theorem RowKind.hop {now attempts : Nat} {key : Option String} {spec : JobSpec Json}
    (kind : RowKind requeued row) (waiter : row.identifier = scheduledJob)
    (parsed : runScheduledJob now row.payload.body = some spec) :
    RowKind requeued { row with holder := some (.hopping key attempts spec) } := by
  rcases kind with loop | walk
  · exact (keys_apart.2.2.1 (waiter ▸ loop.listed)).elim
  · have added : WalkSpec spec := by
      obtain ⟨scheduled, body, waits⟩ := walk.walk.waits waiter
      rw [body] at parsed
      exact waits.runScheduledJob parsed
    refine .inr ⟨walk.walk, ?_, ?_⟩
    · intro progress other held adding
      cases held
      cases adding
      exact added
    · intro named
      exact absurd (named.symm.trans waiter) (by decide)

end Jobs
end DotaCollector
