import DotaCollector.Jobs.Preservation

/-!
# Jobs that are lost

The rows of a named queue, and the waiters which hop back onto it, have one attempt each. A worker
that crashes in the middle of an execution leaves a row behind which is not run again. Unless that
happens, or an error is met between one row and the next, a job of a named queue has a row that
will be run until it is settled or its budget is used up.
-/

namespace DotaCollector
namespace Jobs

open JobQueue

/-- The worker lives. -/
def Progress.alive : Progress → Bool
  | abandoned => false
  | _ => true

/-- The row is locked by a worker that lives, or has an attempt left. -/
def WillRun (row : Row) : Prop :=
  (∃ progress ∈ row.holder, progress.alive = true) ∨ row.attempts < row.maxAttempts

instance (row : Row) : Decidable (WillRun row) := inferInstanceAs (Decidable (_ ∨ _))

/-- The job is settled, or its budget is used, or one of its rows will be run, under the key of the
job or the key of its waiter. -/
def Kept (job : QueuedJob) (owner : Nat) (state : State) : Prop :=
  state.settled owner = true ∨ job.maxAttempts ≤ (state.executions owner).length ∨
    ∃ id row, state.table.jobs id = some row ∧ row.payload.owner = owner ∧
      (row.key = job.input.jobKey ∨ row.key = job.input.jobKey.map scheduledJobKey) ∧ WillRun row

variable {env : Environment} {job : QueuedJob} {owner id clock : Nat} {state : State} {row : Row}
  {executions : List Execution}

theorem Stage.key_eq (stage : Stage job owner clock executions row) :
    row.key = job.input.jobKey ∨ row.key = job.input.jobKey.map scheduledJobKey := by
  cases stage with
  | queued task | executing task | parking task => exact .inl task.key
  | waiting waiter | awake waiter | returning waiter => exact .inr waiter.key

theorem Stage.willRun (stage : Stage job owner clock executions row) : WillRun row := by
  have single := stage.maxAttempts_eq
  cases stage with
  | queued _ _ attempts | waiting _ _ attempts =>
      refine .inr ?_
      omega
  | executing _ holder | parking _ holder | awake _ holder | returning _ holder =>
      exact .inl ⟨_, holder, rfl⟩

theorem Tracked.kept (tracked : Tracked job owner state) : Kept job owner state := by
  rcases tracked.shape with ⟨id, row, carries⟩ | ended
  · have stage := carries.stage
    exact .inr (.inr ⟨id, row, carries.found, stage.owner_eq, stage.key_eq, stage.willRun⟩)
  · exact ended.settled.imp_right .inl

/-- The payloads below are objects: no text is read. -/
def objectsOnly : Environment where
  parse _ := none

def detailsJob : QueuedJob where
  input :=
    { identifier := "fetch_match_details"
      payload := some (.object [("match_id", .number 7)])
      queueName := some "details:2"
      jobKey := some "fetch_match_details:7"
      maxAttempts := some 2
      priority := some 10 }
  queueName := "details:2"
  maxAttempts := 2
  queued := rfl
  named := by decide
  budget := by simp
  positive := by decide

theorem detailsJob_plain : detailsJob.Plain where
  task := by decide
  jobKey := by decide
  payload := ⟨by decide +kernel, by decide +kernel, by decide, rfl⟩

theorem detailsJob_unused : Unused detailsJob 0 {} where
  rows id row found := by cases found
  keys id row found := by cases found
  executions := rfl
  settled := rfl

/-- Not settled, with attempts left, and no row under the keys that will be run. -/
def Abandons (job : QueuedJob) (owner : Nat) (state : State) : Prop :=
  state.settled owner = false ∧ (state.executions owner).length < job.maxAttempts ∧
    ∀ id < state.table.fresh, ∀ row ∈ state.table.jobs id,
      ¬ ((row.key = job.input.jobKey ∨ row.key = job.input.jobKey.map scheduledJobKey) ∧
        WillRun row)

instance (job : QueuedJob) (owner : Nat) (state : State) : Decidable (Abandons job owner state) :=
  inferInstanceAs (Decidable (_ ∧ _ ∧ _))

theorem Abandons.not_kept (abandons : Abandons job owner state) : ¬ Kept job owner state := by
  obtain ⟨unsettled, left, idle⟩ := abandons
  rintro (settled | exhausted | ⟨id, row, found, -, keyed⟩)
  · rw [unsettled] at settled
    cases settled
  · omega
  · exact idle id (state.table.free.lt found) row found keyed

/-- A payload that counts two tries already. -/
def triedJob : QueuedJob :=
  { detailsJob with
    input := { detailsJob.input with payload := some (.object [("_tries", .string "0x2")]) } }

/-- A job that waits first. -/
def waitingJob : QueuedJob :=
  { detailsJob with input := { detailsJob.input with runAt := some 60000 } }

/-- A job to wait first, under a key which its waiter will have as well. -/
def laterJob : QueuedJob :=
  { detailsJob with
    input :=
      { detailsJob.input with
        jobKey := some "later:7", jobKeyMode := some .unsafeDedupe, runAt := some 60000 } }

def unnamedKeyJob : QueuedJob :=
  { detailsJob with
    input := { detailsJob.input with jobKey := some "", runAt := some 60000 } }

end Jobs
end DotaCollector
