import DotaCollector.Jobs.Budget
import DotaCollector.Jobs.System

/-!
# The rows of one job

While nobody else enqueues under its keys, a job of a named queue is carried by one row at a time:
the task on its queue, or the waiter off it. All other rows that descend from it are spent, and
will never be run again.
-/

namespace DotaCollector
namespace Jobs

open JobQueue

namespace QueuedJob

/-! ## Keys -/

/-- The key is none under which the job goes. -/
def Apart (job : QueuedJob) (key : Option String) : Prop :=
  key = none ∨ key ≠ job.input.jobKey ∧ key ≠ job.input.jobKey.map scheduledJobKey

instance (job : QueuedJob) (key : Option String) : Decidable (job.Apart key) :=
  inferInstanceAs (Decidable (_ ∨ _))

def Keyed (job : QueuedJob) (key : Option String) : Prop :=
  key = none ∨ key = job.input.jobKey ∨ key = job.input.jobKey.map scheduledJobKey

/-- The keys of the job are carried by its own rows only, which carry no others. -/
structure Keys (job : QueuedJob) (owner : Nat) (table : Table Cargo Progress) : Prop where
  keyed : ∀ id row, table.jobs id = some row → row.payload.owner = owner → job.Keyed row.key
  foreign : ∀ id row, table.jobs id = some row → row.payload.owner ≠ owner → job.Apart row.key

/-! ## Executions -/

/-- The execution is one of the job. -/
structure Alike (job : QueuedJob) (execution : Execution) : Prop where
  queueName : execution.queueName = some job.queueName
  key : execution.key = job.input.jobKey
  priority : execution.priority = job.input.priority.getD 0
  payload : (body (some execution.payload)).own = (body job.input.payload).own

end QueuedJob

/-- The last execution has failed, and the delay behind it is over by then. -/
def Due : List Execution → Nat → Prop
  | [], _ => True
  | last :: earlier, time =>
      ∃ failedAt, last.failedAt = some failedAt ∧
        last.retryAt = some (failedAt + jobRetryDelayMs (earlier.length + 1 : Nat)) ∧
        failedAt + jobRetryDelayMs (earlier.length + 1 : Nat) ≤ time

/-- Every execution but the first begins when the delay behind the one before it is over. -/
def Spaced : List Execution → Prop
  | [] => True
  | last :: earlier => Due earlier last.began ∧ Spaced earlier

theorem Due.mono {executions : List Execution} {time later : Nat} (due : Due executions time)
    (le : time ≤ later) : Due executions later := by
  cases executions with
  | nil => trivial
  | cons last earlier =>
      obtain ⟨failedAt, failed, retry, past⟩ := due
      exact ⟨failedAt, failed, retry, past.trans le⟩

/-- The record of the job, as far as it goes. -/
structure Logged (job : QueuedJob) (executions : List Execution) : Prop where
  length_le : executions.length ≤ job.maxAttempts
  alike : ∀ execution ∈ executions, job.Alike execution
  spaced : Spaced executions

/-! ## Rows -/

/-- The row is the job itself, after that many failures. -/
structure IsTask (job : QueuedJob) (owner failures : Nat) (row : Row) : Prop where
  owner : row.payload.owner = owner
  identifier : row.identifier = job.input.identifier
  stamped : job.Stamped failures row.payload.body
  queueName : row.queueName = some job.queueName
  maxAttempts : row.maxAttempts = 1
  key : row.key = job.input.jobKey
  priority : row.priority = job.input.priority.getD 0

/-- The row is the waiter of the job, after that many failures. -/
structure IsWaiter (job : QueuedJob) (owner failures : Nat) (row : Row) : Prop where
  owner : row.payload.owner = owner
  identifier : row.identifier = scheduledJob
  waits : ∃ scheduled, row.payload.body = scheduled.toJson ∧ job.Waits failures scheduled
  maxAttempts : row.maxAttempts = 1
  key : row.key = job.input.jobKey.map scheduledJobKey

/-- What the row which carries the job is at. -/
inductive Stage (job : QueuedJob) (owner clock : Nat) : List Execution → Row → Prop where
  | queued {executions : List Execution} {row : Row} (task : IsTask job owner executions.length row)
      (holder : row.holder = none) (attempts : row.attempts = 0)
      (left : executions.length < job.maxAttempts) (due : Due executions row.runAt) :
      Stage job owner clock executions row
  | executing {last : Execution} {earlier : List Execution} {row : Row}
      (task : IsTask job owner earlier.length row)
      (holder : row.holder = some (.running job.input.jobKey 1)) (attempts : row.attempts = 1) :
      Stage job owner clock (last :: earlier) row
  | parking {executions : List Execution} {row : Row} {spec : JobSpec Json}
      (task : IsTask job owner (executions.length - 1) row)
      (holder : row.holder = some (.parking spec)) (attempts : row.attempts = 1)
      (tried : executions ≠ []) (left : executions.length < job.maxAttempts)
      (waiter : IsWaiter job owner executions.length (labelled owner spec))
      (mode : spec.mode = .replace) (due : Due executions spec.runAt)
      (stored : job.Storable → spec.Accepted) :
      Stage job owner clock executions row
  | waiting {executions : List Execution} {row : Row}
      (waiter : IsWaiter job owner executions.length row)
      (holder : row.holder = none) (attempts : row.attempts = 0)
      (left : executions.length < job.maxAttempts) (due : Due executions row.runAt) :
      Stage job owner clock executions row
  | awake {executions : List Execution} {row : Row} {key : Option String} {attempts : Nat}
      (waiter : IsWaiter job owner executions.length row)
      (holder : row.holder = some (.running key attempts)) (locked : row.attempts = 1)
      (left : executions.length < job.maxAttempts) (due : Due executions clock) :
      Stage job owner clock executions row
  | returning {executions : List Execution} {row : Row} {key : Option String} {attempts : Nat}
      {spec : JobSpec Json} (waiter : IsWaiter job owner executions.length row)
      (holder : row.holder = some (.hopping key attempts spec)) (locked : row.attempts = 1)
      (left : executions.length < job.maxAttempts)
      (task : IsTask job owner executions.length (labelled owner spec))
      (mode : spec.mode = .unsafeDedupe → executions = [] ∧ job.Parts)
      (due : Due executions spec.runAt) (stored : job.Storable → spec.Accepted) :
      Stage job owner clock executions row

/-- The row will not be run again. -/
structure Spent (row : Row) : Prop where
  tried : 0 < row.maxAttempts
  used : row.maxAttempts ≤ row.attempts
  past : ∀ progress, row.holder = some progress → progress.past = true

/-- A row is not spent while its worker is still at it. -/
theorem not_spent_of_busy {row : Row} {progress : Progress} (holder : row.holder = some progress)
    (busy : progress.past = false) : ¬ Spent row := by
  intro spent
  rw [spent.past progress holder] at busy
  cases busy

namespace Stage

variable {job : QueuedJob} {owner clock : Nat} {executions : List Execution} {row : Row}

theorem owner_eq (stage : Stage job owner clock executions row) : row.payload.owner = owner := by
  cases stage with
  | queued task | executing task | parking task => exact task.owner
  | waiting waiter | awake waiter | returning waiter => exact waiter.owner

theorem maxAttempts_eq (stage : Stage job owner clock executions row) : row.maxAttempts = 1 := by
  cases stage with
  | queued task | executing task | parking task => exact task.maxAttempts
  | waiting waiter | awake waiter | returning waiter => exact waiter.maxAttempts

theorem not_spent (stage : Stage job owner clock executions row) : ¬ Spent row := by
  cases stage with
  | queued _ _ attempts | waiting _ _ attempts =>
      intro spent
      have tried := spent.tried
      have used := spent.used
      omega
  | executing _ holder | parking _ holder | awake _ holder | returning _ holder =>
      exact not_spent_of_busy holder rfl

/-- A locked row has had its only attempt. -/
theorem attempts_of_locked {progress : Progress} (stage : Stage job owner clock executions row)
    (holder : row.holder = some progress) : row.attempts = 1 := by
  cases stage with
  | queued _ waiting | waiting _ waiting =>
      rw [holder] at waiting
      cases waiting
  | executing _ _ attempts | parking _ _ attempts | awake _ _ attempts
  | returning _ _ attempts => exact attempts

/-- The worker of the row which carries the job is not past everything. -/
theorem not_past {progress : Progress} (stage : Stage job owner clock executions row)
    (holder : row.holder = some progress) (past : progress.past = true) : False := by
  cases stage with
  | queued _ waiting | waiting _ waiting =>
      rw [holder] at waiting
      cases waiting
  | executing _ held | parking _ held | awake _ held | returning _ held =>
      rw [holder, Option.some_inj] at held
      subst held
      cases past

theorem mono {later : Nat} (stage : Stage job owner clock executions row) (le : clock ≤ later) :
    Stage job owner later executions row := by
  cases stage with
  | queued task holder attempts left due => exact .queued task holder attempts left due
  | executing task holder attempts => exact .executing task holder attempts
  | parking task holder attempts tried left waiter mode due stored =>
      exact .parking task holder attempts tried left waiter mode due stored
  | waiting waiter holder attempts left due => exact .waiting waiter holder attempts left due
  | awake waiter holder locked left due => exact .awake waiter holder locked left (due.mono le)
  | returning waiter holder locked left task mode due stored =>
      exact .returning waiter holder locked left task mode due stored

end Stage

/-! ## The invariant -/

/-- The row carries the job, and every other row of the job is spent. -/
structure Carries (job : QueuedJob) (owner : Nat) (state : State) (id : Nat) (row : Row) :
    Prop where
  found : state.table.jobs id = some row
  stage : Stage job owner state.clock (state.executions owner) row
  others : ∀ other another, other ≠ id → state.table.jobs other = some another →
    another.payload.owner = owner →
    Spent another ∧ (row.identifier = scheduledJob → state.executions owner ≠ [])

/-- The job has come to its end. -/
structure Ended (job : QueuedJob) (owner : Nat) (state : State) : Prop where
  spent : ∀ id row, state.table.jobs id = some row → row.payload.owner = owner → Spent row
  settled : state.settled owner = true ∨ job.maxAttempts ≤ (state.executions owner).length

structure Tracked (job : QueuedJob) (owner : Nat) (state : State) : Prop where
  shape : (∃ id row, Carries job owner state id row) ∨ Ended job owner state
  keys : job.Keys owner state.table
  logged : Logged job (state.executions owner)

variable {job : QueuedJob} {owner id : Nat} {state after : State} {row : Row}

/-- A row of the job which is not spent is the one that carries it. -/
theorem Tracked.carries (tracked : Tracked job owner state)
    (found : state.table.jobs id = some row) (own : row.payload.owner = owner)
    (unspent : ¬ Spent row) : Carries job owner state id row := by
  rcases tracked.shape with ⟨at_, carrier, carries⟩ | ended
  · rcases eq_or_ne id at_ with rfl | ne
    · have same := carries.found
      rw [found, Option.some_inj] at same
      exact same ▸ carries
    · exact (unspent (carries.others id row ne found own).1).elim
  · exact (unspent (ended.spent id row found own)).elim

/-- What leaves the row that carries the job alone. -/
theorem Tracked.transport (tracked : Tracked job owner state)
    (executions : after.executions owner = state.executions owner)
    (settled : state.settled owner = true → after.settled owner = true)
    (clock : state.clock ≤ after.clock)
    (kept : ∀ id row, state.table.jobs id = some row → row.payload.owner = owner → ¬ Spent row →
      after.table.jobs id = some row)
    (old : ∀ id row, after.table.jobs id = some row → row.payload.owner = owner →
      state.table.jobs id = some row ∨ Spent row ∧ ∃ before, state.table.jobs id = some before ∧
        before.payload.owner = owner ∧ Spent before)
    (keys : job.Keys owner after.table) : Tracked job owner after where
  shape := by
    rcases tracked.shape with ⟨id, row, found, stage, others⟩ | ⟨spent, finished⟩
    · refine .inl ⟨id, row, kept id row found stage.owner_eq stage.not_spent, ?_, ?_⟩
      · rw [executions]
        exact stage.mono clock
      · intro other another ne present own
        rw [executions]
        rcases old other another present own with same | ⟨spent, before, here, owned, -⟩
        · exact others other another ne same own
        · exact ⟨spent, (others other before ne here owned).2⟩
    · refine .inr ⟨?_, ?_⟩
      · intro id row present own
        rcases old id row present own with same | ⟨spent, -⟩
        · exact spent id row same own
        · exact spent
      · rw [executions]
        exact finished.imp_left settled
  keys := keys
  logged := by
    rw [executions]
    exact tracked.logged

/-- The row which carries the job moves on. -/
theorem Carries.advance {changed : Row}
    (carries : Carries job owner state id row)
    (jobs : after.table.jobs = Function.update state.table.jobs id (some changed))
    (identifier : changed.identifier = row.identifier) (keys : job.Keys owner after.table)
    (grown : state.executions owner ≠ [] → after.executions owner ≠ [])
    (stage : Stage job owner after.clock (after.executions owner) changed)
    (logged : Logged job (after.executions owner)) : Tracked job owner after where
  shape := by
    refine .inl ⟨id, changed, ?_, stage, ?_⟩
    · rw [jobs, Function.update_self]
    · intro other another ne present own
      rw [jobs, Function.update_of_ne ne] at present
      obtain ⟨spent, tried⟩ := carries.others other another ne present own
      exact ⟨spent, fun waiter => grown (tried (identifier ▸ waiter))⟩
  keys := keys
  logged := logged

/-- The row which carries the job is the last one. -/
theorem Carries.finish {changed : Row} (carries : Carries job owner state id row)
    (jobs : after.table.jobs = Function.update state.table.jobs id (some changed))
    (spent : Spent changed) (keys : job.Keys owner after.table)
    (settled : after.settled owner = true ∨ job.maxAttempts ≤ (after.executions owner).length)
    (logged : Logged job (after.executions owner)) : Tracked job owner after where
  shape := by
    refine .inr ⟨?_, settled⟩
    intro other another present own
    rw [jobs] at present
    rcases eq_or_ne other id with rfl | ne
    · rw [Function.update_self, Option.some_inj] at present
      exact present ▸ spent
    · rw [Function.update_of_ne ne] at present
      exact (carries.others other another ne present own).1
  keys := keys
  logged := logged

end Jobs
end DotaCollector
