import DotaCollector.Jobs.LostJobs

/-!
# The retry budget

A job whose task fails every time is executed as often as its budget says: never more often, and
until then there is always a way to the next execution. All executions are alike, and each begins
when the delay behind the failure before it is over.
-/

namespace DotaCollector
namespace Jobs

open JobQueue

variable {env : Environment} {job : QueuedJob} {owner id : Nat} {state after : State} {row : Row}

/-- The task of the job does not return, its errors are not to be skipped, and its workers live. -/
def Fails (owner : Nat) (state : State) : Event → Prop
  | .succeed id | .crash id => ∀ row ∈ state.table.jobs id, row.payload.owner ≠ owner
  | .throw id error => ∀ row ∈ state.table.jobs id, row.payload.owner = owner →
      ¬ skips row.identifier error = true
  | _ => True

instance (owner : Nat) (state : State) : (event : Event) → Decidable (Fails owner state event)
  | .succeed id | .crash id =>
      inferInstanceAs (Decidable (∀ row ∈ state.table.jobs id, row.payload.owner ≠ owner))
  | .throw id error =>
      inferInstanceAs (Decidable (∀ row ∈ state.table.jobs id, row.payload.owner = owner →
        ¬ skips row.identifier error = true))
  | .tick _ | .enqueue _ _ | .begin _ | .hop _ | .add _ | .parkThrows _ | .complete _ | .fail _ _
  | .release _ => .isTrue trivial

/-- The task of the job always throws, and nothing of the job is lost. -/
def AlwaysThrows (job : QueuedJob) (owner : Nat) (state : State) (event : Event) : Prop :=
  Sheltered job owner state event ∧ Fails owner state event

instance (job : QueuedJob) (owner : Nat) (state : State) (event : Event) :
    Decidable (AlwaysThrows job owner state event) :=
  inferInstanceAs (Decidable (_ ∧ _))

/-- The job is tracked and not settled. -/
structure Underway (job : QueuedJob) (owner : Nat) (state : State) : Prop where
  tracked : Tracked job owner state
  unsettled : state.settled owner = false

theorem State.fail_settled (retryAt : Option Nat) :
    (state.fail row retryAt).settled = state.settled := (State.fail_rest retryAt).1

/-- Only a return of the task, or an error to skip, settles a job. -/
theorem unsettled_next {event : Event} (unsettled : state.settled owner = false)
    (throws : AlwaysThrows job owner state event) (step : next env state event = some after) :
    after.settled owner = false := by
  obtain ⟨-, fails⟩ := throws
  cases moves_of_next step with
  | tick | hop | parkThrows | complete | fail | crash | release => exact unsettled
  | enqueue added | add _ _ _ added =>
      obtain ⟨table, -, rfl⟩ := State.add_eq_some.mp added
      exact unsettled
  | begin found waiting left due =>
      unfold State.begin
      split
      all_goals exact unsettled
  | succeed found holder task =>
      change Function.update state.settled _ true owner = false
      rw [Function.update_of_ne (Ne.symm (fails _ found))]
      exact unsettled
  | @throw id row progress key attempts error found holder atWork =>
      by_cases own : row.payload.owner = owner
      · have counted := fails row found own
        unfold State.caught
        split
        · rename_i skipped
          unfold recover at skipped
          rw [if_neg counted] at skipped
          split at skipped
          · cases skipped
          · cases skipped
          · split at skipped
            all_goals cases skipped
        all_goals
          change (state.fail row _).settled owner = false
          rw [State.fail_settled]
          exact unsettled
      · rw [(State.caught_foreign own).2.1]
        exact unsettled

theorem Underway.next (underway : Underway job owner state) (plain : job.Plain) {event : Event}
    (throws : AlwaysThrows job owner state event) (step : next env state event = some after) :
    Underway job owner after :=
  ⟨underway.tracked.next plain throws.1 step, unsettled_next underway.unsettled throws step⟩

/-! ## The way to the next execution -/

/-- The job has had one execution more. -/
def Again (job : QueuedJob) (owner count : Nat) (state : State) : Prop :=
  Underway job owner state ∧ (state.executions owner).length = count + 1

/-- While its budget is not used, the job is carried by a row. -/
theorem Underway.carrier (underway : Underway job owner state)
    (left : (state.executions owner).length < job.maxAttempts) :
    ∃ id row, Carries job owner state id row := by
  rcases underway.tracked.shape with carried | ended
  · exact carried
  · rcases ended.settled with settled | used
    · rw [underway.unsettled] at settled
      cases settled
    · omega

/-- A free row is locked when its time has come. -/
theorem Underway.leads_begin {goal : State → Prop} (underway : Underway job owner state)
    (plain : job.Plain) (found : state.table.jobs id = some row) (free : row.holder = none)
    (left : row.attempts < row.maxAttempts)
    (onward : ∀ clock, Underway job owner (State.begin { state with clock } id row) →
      Schedule.Leads (Jobs.next env) (AlwaysThrows job owner) goal
        (State.begin { state with clock } id row)) :
    Schedule.Leads (Jobs.next env) (AlwaysThrows job owner) goal state := by
  have waited : Jobs.next env state (.tick row.runAt) =
      some { state with clock := state.clock + row.runAt } := rfl
  have begun : Jobs.next env { state with clock := state.clock + row.runAt } (.begin id) =
      some (State.begin { state with clock := state.clock + row.runAt } id row) := by
    simp [Jobs.next, found, free, left]
  have ticks : AlwaysThrows job owner state (.tick row.runAt) := ⟨trivial, trivial⟩
  have begins : AlwaysThrows job owner { state with clock := state.clock + row.runAt }
    (.begin id) := ⟨trivial, trivial⟩
  refine .step (.tick row.runAt) ticks waited (.step (.begin id) begins begun ?_)
  exact onward _ ((underway.next plain ticks waited).next plain begins begun)

/-- The next execution begins when a free row of the task is locked. -/
theorem Underway.again_of_task (underway : Underway job owner state) (plain : job.Plain)
    (found : state.table.jobs id = some row) (own : row.payload.owner = owner)
    (free : row.holder = none) (left : row.attempts < row.maxAttempts)
    (task : row.identifier ≠ scheduledJob) :
    Schedule.Leads (Jobs.next env) (AlwaysThrows job owner)
      (Again job owner (state.executions owner).length) state := by
  refine underway.leads_begin plain found free left fun clock begun => .here ⟨begun, ?_⟩
  simp [State.begin, task, State.log, own]

/-- What a row of the job adds is free, and carries the job. -/
theorem Carries.added {progress : Progress} {spec : JobSpec Json}
    (carries : Carries job owner state id row) (holder : row.holder = some progress)
    (added : (state.hold id (some .closing)).add row.payload.owner spec = some after)
    (underway : Underway job owner after)
    (left : (state.executions owner).length < job.maxAttempts) :
    after.executions owner = state.executions owner ∧
      ∃ newId new, Carries job owner after newId new ∧
        new.holder = none ∧ new.attempts < new.maxAttempts ∧
        new.identifier = spec.identifier := by
  obtain ⟨table, inserted, rfl⟩ := State.add_eq_some.mp added
  have spent : ∀ other another, (state.hold id (some .closing)).table.jobs other = some another →
      another.payload.owner = owner → Spent another := by
    intro other another present own
    rw [State.hold_jobs _ carries.found] at present
    rcases eq_or_ne other id with rfl | ne
    · rw [Function.update_self, Option.some_inj] at present
      exact present ▸ carries.spent holder rfl
    · rw [Function.update_of_ne ne] at present
      exact (carries.others other another ne present own).1
  obtain ⟨newId, new, carried⟩ := underway.carrier left
  have single := carried.stage.maxAttempts_eq
  have unspent := carried.stage.not_spent
  have own := carried.owner_eq
  rcases Table.of_addJob inserted carried.found with ⟨asked, -⟩ | same | ⟨old, here, -, -, rfl⟩
  · have fresh : new.attempts = 0 := by
      rw [asked]
      rfl
    refine ⟨rfl, newId, new, carried, ?_, by omega, ?_⟩
    all_goals
      rw [asked]
      rfl
  · exact (unspent (spent newId new same own)).elim
  · have detached := spent newId old here own
    exact (unspent ⟨detached.tried, Nat.le_refl _, detached.past⟩).elim

/-- A row of the job adds what it has at hand, if the tables take it. -/
theorem exists_next_add (env : Environment) {progress : Progress} {spec : JobSpec Json}
    (found : state.table.jobs id = some row) (holder : row.holder = some progress)
    (adding : progress.adding = some spec) (accepted : spec.Accepted) :
    ∃ after, next env state (.add id) = some after ∧
      (state.hold id (some .closing)).add row.payload.owner spec = some after := by
  have checked : (spec.map (Cargo.mk row.payload.owner)).Accepted :=
    ⟨accepted.identifier, accepted.queueName, accepted.key, accepted.maxAttempts,
      accepted.priority⟩
  obtain ⟨table, inserted⟩ := Option.isSome_iff_exists.mp
    (Table.addJob_isSome Cargo.merge (state.hold id (some .closing)).table checked)
  have added := State.add_eq_some.mpr ⟨table, inserted, rfl⟩
  exact ⟨_, by simp [Jobs.next, found, holder, adding, added], added⟩

/-- A row of the job may add what it has at hand. -/
theorem Carries.throws_add (carries : Carries job owner state id row) :
    AlwaysThrows job owner state (.add id) := by
  refine ⟨?_, trivial⟩
  intro other present foreign
  rw [carries.found, Option.mem_some_iff] at present
  exact (foreign (present ▸ carries.owner_eq)).elim

/-- The job is added to its queue, and locked there. -/
theorem Underway.again_of_returning {key : Option String} {attempts : Nat} {spec : JobSpec Json}
    (underway : Underway job owner state) (plain : job.Plain)
    (carries : Carries job owner state id row)
    (holder : row.holder = some (.hopping key attempts spec)) (accepted : spec.Accepted)
    (task : spec.identifier ≠ scheduledJob)
    (left : (state.executions owner).length < job.maxAttempts) :
    Schedule.Leads (Jobs.next env) (AlwaysThrows job owner)
      (Again job owner (state.executions owner).length) state := by
  obtain ⟨after, step, added⟩ := exists_next_add env carries.found holder rfl accepted
  have onward := underway.next plain carries.throws_add step
  obtain ⟨recorded, newId, new, carried, free, untried, named⟩ :=
    carries.added holder added onward left
  refine .step (.add id) carries.throws_add step ?_
  rw [← recorded]
  exact onward.again_of_task plain carried.found carried.owner_eq free untried (named ▸ task)

/-- The waiter hops. -/
theorem Underway.again_of_awake {key : Option String} {attempts : Nat}
    (underway : Underway job owner state) (plain : job.Plain)
    (named : job.input.identifier ≠ "") (storable : job.Storable)
    (carries : Carries job owner state id row)
    (holder : row.holder = some (.running key attempts)) (waiter : row.identifier = scheduledJob)
    (left : (state.executions owner).length < job.maxAttempts) :
    Schedule.Leads (Jobs.next env) (AlwaysThrows job owner)
      (Again job owner (state.executions owner).length) state := by
  have waits : ∃ scheduled, row.payload.body = scheduled.toJson ∧
      job.Waits (state.executions owner).length scheduled := by
    have stage := carries.stage
    generalize state.executions owner = executions at stage
    cases stage with
    | awake isWaiter | returning isWaiter | waiting isWaiter => exact isWaiter.waits
    | queued task | executing task | parking task =>
        exact (plain.task (task.identifier.symm.trans waiter)).elim
  obtain ⟨scheduled, body, waits⟩ := waits
  have step : Jobs.next env state (.hop id) =
      some (state.hold id (some (.hopping key attempts (job.returned state.clock scheduled)))) := by
    simp [Jobs.next, carries.found, holder, waiter, body, waits.runScheduledJob plain.jobKey, named]
  have throws : AlwaysThrows job owner state (.hop id) := ⟨trivial, trivial⟩
  have after := underway.next plain throws step
  have found := congrFun (State.hold_jobs
    (some (.hopping key attempts (job.returned state.clock scheduled))) carries.found) id
  rw [Function.update_self] at found
  have carried := after.tracked.carries found carries.owner_eq (not_spent_of_busy rfl rfl)
  exact .step (.hop id) throws step
    (after.again_of_returning plain carried rfl (storable.returned _ _) plain.task left)

/-- The waiter is locked when its time has come. -/
theorem Underway.again_of_waiting (underway : Underway job owner state) (plain : job.Plain)
    (named : job.input.identifier ≠ "") (storable : job.Storable)
    (carries : Carries job owner state id row)
    (free : row.holder = none) (untried : row.attempts < row.maxAttempts)
    (waiter : row.identifier = scheduledJob)
    (left : (state.executions owner).length < job.maxAttempts) :
    Schedule.Leads (Jobs.next env) (AlwaysThrows job owner)
      (Again job owner (state.executions owner).length) state := by
  refine underway.leads_begin plain carries.found free untried fun clock begun => ?_
  have found := congrFun (@State.begin_jobs id { state with clock } row carries.found) id
  rw [Function.update_self] at found
  have carried := begun.tracked.carries found carries.owner_eq (not_spent_of_busy rfl rfl)
  have recorded : (State.begin { state with clock } id row).executions = state.executions := by
    simp only [State.begin, if_pos waiter]
  have onward : Schedule.Leads (Jobs.next env) (AlwaysThrows job owner) _ _ :=
    begun.again_of_awake plain named storable carried rfl waiter (by rw [recorded]; exact left)
  rw [recorded] at onward
  exact onward

/-- The next try is parked. -/
theorem Underway.again_of_parking {spec : JobSpec Json} (underway : Underway job owner state)
    (plain : job.Plain) (named : job.input.identifier ≠ "") (storable : job.Storable)
    (carries : Carries job owner state id row) (holder : row.holder = some (.parking spec))
    (left : (state.executions owner).length < job.maxAttempts) :
    Schedule.Leads (Jobs.next env) (AlwaysThrows job owner)
      (Again job owner (state.executions owner).length) state := by
  have waits : spec.identifier = scheduledJob ∧ spec.Accepted := by
    have stage := carries.stage
    generalize state.executions owner = executions at stage
    cases stage with
    | parking task held locked tried _ waiter mode due stored =>
        rw [holder, Option.some_inj] at held
        cases held
        exact ⟨waiter.identifier, stored storable⟩
    | queued _ held | waiting _ held | executing _ held | awake _ held | returning _ held =>
        rw [holder] at held
        cases held
  obtain ⟨waiter, accepted⟩ := waits
  obtain ⟨after, step, added⟩ := exists_next_add env carries.found holder rfl accepted
  have onward := underway.next plain carries.throws_add step
  obtain ⟨recorded, newId, new, carried, free, untried, same⟩ :=
    carries.added holder added onward left
  refine .step (.add id) carries.throws_add step ?_
  rw [← recorded] at left ⊢
  exact onward.again_of_waiting plain named storable carried free untried (same.trans waiter) left

/-- The task fails. -/
theorem Underway.again_of_executing {attempts : Nat} {key : Option String}
    (underway : Underway job owner state) (plain : job.Plain)
    (named : job.input.identifier ≠ "") (storable : job.Storable)
    (carries : Carries job owner state id row)
    (holder : row.holder = some (.running key attempts)) (task : row.identifier ≠ scheduledJob)
    (left : (state.executions owner).length < job.maxAttempts) :
    Schedule.Leads (Jobs.next env) (AlwaysThrows job owner)
      (Again job owner (state.executions owner).length) state := by
  have step : Jobs.next env state (.throw id .other) =
      some (state.caught env id row key attempts .other) := by
    simp [Jobs.next, carries.found, holder, Progress.atWork]
  have throws : AlwaysThrows job owner state (.throw id .other) := by
    refine ⟨fun other present _ => ?_, fun _ _ _ => Bool.false_ne_true⟩
    rw [carries.found, Option.mem_some_iff] at present
    exact present ▸ task
  have after := underway.next plain throws step
  have stage := carries.stage
  generalize listed : state.executions owner = executions at stage left
  cases stage with
  | executing isTask running locked =>
      rename_i last earlier
      rw [holder, Option.some_inj] at running
      cases running
      have counted : ¬ skips job.input.identifier .other = true := Bool.false_ne_true
      have short : ¬ job.maxAttempts ≤ earlier.length + 1 := not_le.mpr left
      rw [isTask.caught, if_neg counted, if_neg short] at step after
      generalize job.parked state.clock earlier.length row.payload.body = spec at step after
      have failed : ((state.fail row (some spec.runAt)).executions owner).length =
          (last :: earlier).length := by
        rw [State.fail_executions _ task carries.owner_eq, listed, length_failed]
      have present : (state.fail row (some spec.runAt)).table.jobs id = some row := by
        rw [State.fail_table, carries.found]
      have found := congrFun (State.hold_jobs (some (.parking spec)) present) id
      rw [Function.update_self] at found
      have carried := after.tracked.carries found carries.owner_eq (not_spent_of_busy rfl rfl)
      have onward : Schedule.Leads (Jobs.next env) (AlwaysThrows job owner)
          (Again job owner ((state.fail row (some spec.runAt)).executions owner).length) _ :=
        after.again_of_parking plain named storable carried rfl (failed.trans_lt left)
      rw [failed] at onward
      exact .step (.throw id .other) throws step onward
  | queued _ free | waiting _ free =>
      rw [holder] at free
      cases free
  | parking _ held | returning _ held =>
      rw [holder] at held
      cases held
  | awake waiter => exact (task waiter.identifier).elim

/-- While the budget is not used there is a way to the next execution. -/
theorem Underway.again (underway : Underway job owner state) (plain : job.Plain)
    (named : job.input.identifier ≠ "") (storable : job.Storable)
    (left : (state.executions owner).length < job.maxAttempts) :
    Schedule.Leads (Jobs.next env) (AlwaysThrows job owner)
      (Again job owner (state.executions owner).length) state := by
  obtain ⟨id, row, carries⟩ := underway.carrier left
  have single := carries.stage.maxAttempts_eq
  have stage := carries.stage
  generalize listed : state.executions owner = executions at stage
  rw [← listed]
  cases stage with
  | queued task free attempts =>
      exact underway.again_of_task plain carries.found carries.owner_eq free (by omega)
        (task.identifier ▸ plain.task)
  | executing task holder =>
      exact underway.again_of_executing plain named storable carries holder
        (task.identifier ▸ plain.task) left
  | parking task holder => exact underway.again_of_parking plain named storable carries holder left
  | waiting waiter free attempts =>
      exact underway.again_of_waiting plain named storable carries free (by omega)
        waiter.identifier left
  | awake waiter holder =>
      exact underway.again_of_awake plain named storable carries holder waiter.identifier left
  | returning waiter holder _ _ task mode due stored =>
      exact underway.again_of_returning plain carries holder (stored storable)
        (fun same => plain.task (task.identifier.symm.trans same)) left

/-- The budget can always be used up. -/
theorem Underway.exhausts (underway : Underway job owner state) (plain : job.Plain)
    (named : job.input.identifier ≠ "") (storable : job.Storable) :
    Schedule.Leads (Jobs.next env) (AlwaysThrows job owner)
      (fun last => (last.executions owner).length = job.maxAttempts) state := by
  have bound := underway.tracked.logged.length_le
  generalize remaining : job.maxAttempts - (state.executions owner).length = rest
  induction rest generalizing state with
  | zero => exact .here (by omega)
  | succ rest ih =>
      refine (underway.again plain named storable (by omega)).bind fun after reached => ?_
      obtain ⟨onward, once⟩ := reached
      exact ih onward onward.tracked.logged.length_le (by omega)

/-! ## Exactly as often as the budget says -/

/-- A job whose task always throws is executed at most as often as its budget says, on its queue,
with its key, its priority and its payload, and again when the delay behind each failure is over.
While executions are left, one of its rows will be run and there is a way to the last execution. -/
theorem executed_exactly (env : Environment) (job : QueuedJob) (owner : Nat)
    (initial enqueued final : State) (events : List Event) (plain : job.Plain)
    (named : job.input.identifier ≠ "") (storable : job.Storable)
    (unused : Unused job owner initial) (heard : job.Heard initial.clock)
    (enqueue : next env initial (.enqueue owner job.input) = some enqueued)
    (throws : Schedule.Throughout (next env) (AlwaysThrows job owner) enqueued events)
    (execution : Schedule.run (next env) enqueued events = some final) :
    (final.executions owner).length ≤ job.maxAttempts ∧
      (∀ execution ∈ final.executions owner, job.Alike execution) ∧
      Spaced (final.executions owner) ∧
      ((final.executions owner).length < job.maxAttempts →
        ∃ id row, final.table.jobs id = some row ∧ row.payload.owner = owner ∧ WillRun row) ∧
      Schedule.Leads (next env) (AlwaysThrows job owner)
        (fun last => (last.executions owner).length = job.maxAttempts) final := by
  have start : Underway job owner enqueued := by
    refine ⟨unused.enqueue plain heard enqueue, ?_⟩
    obtain ⟨table, -, rfl⟩ := State.add_eq_some.mp enqueue
    exact unused.settled
  have underway : Underway job owner final :=
    throws.run_invariant (fun held guard step => held.next plain guard step) start execution
  have logged := underway.tracked.logged
  refine ⟨logged.length_le, logged.alike, logged.spaced, fun left => ?_,
    underway.exhausts plain named storable⟩
  obtain ⟨id, row, carries⟩ := underway.carrier left
  exact ⟨id, row, carries.found, carries.owner_eq, carries.stage.willRun⟩

theorem detailsJob_storable : detailsJob.Storable where
  identifier := by decide
  queueName := by decide
  keys key keyed := by
    obtain rfl := Option.some_inj.mp keyed
    decide +kernel
  priority := by decide +kernel

/-- Both tries of a job fail. -/
theorem executed_twice : ∃ enqueued final,
    next objectsOnly {} (.enqueue 0 detailsJob.input) = some enqueued ∧
    Schedule.run (next objectsOnly) enqueued
      [.begin 0, .throw 0 .other, .add 0, .complete 0, .tick 30000, .begin 1, .hop 1, .add 1,
        .complete 1, .begin 2, .throw 2 .other, .complete 2] = some final ∧
    (final.executions 0).length = 2 ∧ (final.executions 0).length ≤ detailsJob.maxAttempts ∧
    Spaced (final.executions 0) := by
  let events : List Event :=
    [.begin 0, .throw 0 .other, .add 0, .complete 0, .tick 30000, .begin 1, .hop 1, .add 1,
      .complete 1, .begin 2, .throw 2 .other, .complete 2]
  have runs : ∃ enqueued ∈ next objectsOnly {} (.enqueue 0 detailsJob.input),
      ∃ final ∈ Schedule.run (next objectsOnly) enqueued events,
      Schedule.Throughout (next objectsOnly) (AlwaysThrows detailsJob 0) enqueued events ∧
        (final.executions 0).length = 2 := by
    decide +kernel
  obtain ⟨enqueued, enters, final, execution, throws, twice⟩ := runs
  have exactly := executed_exactly objectsOnly detailsJob 0 {} enqueued final events
    detailsJob_plain (by decide) detailsJob_storable detailsJob_unused (nomatch ·) enters throws
    execution
  exact ⟨enqueued, final, enters, execution, twice, exactly.1, exactly.2.2.1⟩

/-- A walk through the leagues, with the default budget. -/
def walkJob : QueuedJob where
  input :=
    { identifier := "walk_league_history"
      payload := some (.object [("matches_limit", .number 100)])
      queueName := some "historical"
      jobKey := some "walk_league_history"
      jobKeyMode := some .replace
      priority := some 20 }
  queueName := "historical"
  maxAttempts := 25
  queued := rfl
  named := by decide
  budget := by simp
  positive := by decide

/-- A key with which the key of the waiter is too long. -/
def longKey : String := String.ofList (List.replicate 507 'k')

/-- The details job under another key. -/
def keyedJob (key : String) : EnqueueJobInput := { detailsJob.input with jobKey := some key }

/-- No row is left. -/
def Gone (state : State) : Prop :=
  ∀ id < state.table.fresh, (state.table.jobs id).isNone

instance (state : State) : Decidable (Gone state) :=
  inferInstanceAs (Decidable (∀ _ < _, _))

/-- A job which the tables refuse is not added. -/
theorem next_add_refused {env : Environment} {state : State} {id : Nat} {row : Row}
    {progress : Progress} {spec : JobSpec Json} (found : state.table.jobs id = some row)
    (holder : row.holder = some progress) (adding : progress.adding = some spec)
    (refused : ¬ (spec.map (Cargo.mk row.payload.owner)).Accepted) :
    next env state (.add id) = none := by
  simp only [next, found, holder, Option.bind_some, adding]
  rw [State.add, Table.addJob, if_neg refused]
  rfl

/-- Where the key of the waiter is too long, the first failure of the details job is its last. -/
theorem refused_parking {key : String} (filled : 0 < key.length) (short : key.length ≤ 512)
    (long : 512 < (scheduledJobKey key).length) :
    ∃ parking ∈ Schedule.run (next objectsOnly) {}
      [.enqueue 0 (keyedJob key), .begin 0, .throw 0 .other],
      (next objectsOnly parking (.add 0)).isNone ∧
        ∃ final ∈ Schedule.run (next objectsOnly) parking [.parkThrows 0, .fail 0 0],
        (final.executions 0).length = 1 ∧
          ∀ id < final.table.fresh, ∀ row ∈ final.table.jobs id, ¬ WillRun row := by
  let spec := (enqueueJob 0 (keyedJob key)).map (Cargo.mk 0)
  have accepted : spec.Accepted := by
    refine ⟨detailsJob_storable.identifier, ?_, ?_, QueuedJob.one_attempt,
      detailsJob_storable.priority⟩
    · intro name named
      obtain rfl := Option.some.inj named
      exact detailsJob_storable.queueName
    · intro name named
      obtain rfl := Option.some.inj named
      exact ⟨filled, short⟩
  have enqueued : next objectsOnly {} (.enqueue 0 (keyedJob key)) =
      some { table := Table.empty.addJobs Cargo.merge spec } := by
    have replaces : spec.mode ≠ .unsafeDedupe := by
      intro same
      cases same
    change State.add {} 0 _ = _
    rw [State.add, Table.addJob, if_pos accepted, if_pos (.inr replaces)]
    rfl
  refine ⟨_, Schedule.run_cons_eq_some.mpr ⟨_, enqueued, rfl⟩, ?_, _, rfl, rfl, ?_⟩
  · exact Option.isNone_iff_eq_none.mpr <| next_add_refused rfl rfl rfl fun accepted =>
      absurd (accepted.key (scheduledJobKey key) rfl).2 (Nat.not_le.mpr long)
  · intro id below row found
    obtain rfl : id = 0 := Nat.lt_one_iff.mp below
    obtain rfl := Option.some.inj found
    rintro (⟨progress, held, -⟩ | left)
    · cases held
    · exact absurd left (Nat.lt_irrefl 1)

/-- Jobs whose tasks always throw, and which are gone after one execution of many: the error is one
to skip, or the payload counts tries already. One is gone before it is executed, as its waiter finds
its own row under the key of the job; one loses an empty key to its waiter; and one is not run
again, as the key of its waiter is refused. -/
theorem executed_otherwise :
    (∃ final ∈ Schedule.run (next objectsOnly) {}
      [.enqueue 0 walkJob.input, .begin 0, .throw 0 .noReadyKey, .complete 0],
      (final.executions 0).length = 1 ∧ Gone final) ∧
    (∃ final ∈ Schedule.run (next objectsOnly) {}
      [.enqueue 0 triedJob.input, .begin 0, .throw 0 .other, .complete 0],
      (final.executions 0).length = 1 ∧ Gone final) ∧
    (∃ final ∈ Schedule.run (next objectsOnly) {}
      [.enqueue 0 laterJob.input, .tick 60000, .begin 0, .hop 0, .add 0, .complete 0],
      (final.executions 0).length = 0 ∧ Gone final) ∧
    (∃ final ∈ Schedule.run (next objectsOnly) {}
      [.enqueue 0 unnamedKeyJob.input, .tick 60000, .begin 0, .hop 0, .add 0, .complete 0,
        .begin 1],
      (final.executions 0).map Execution.key = [none]) ∧
    ∃ parking ∈ Schedule.run (next objectsOnly) {}
      [.enqueue 0 (keyedJob longKey), .begin 0, .throw 0 .other],
      (next objectsOnly parking (.add 0)).isNone ∧
        ∃ final ∈ Schedule.run (next objectsOnly) parking [.parkThrows 0, .fail 0 0],
        (final.executions 0).length = 1 ∧
          ∀ id < final.table.fresh, ∀ row ∈ final.table.jobs id, ¬ WillRun row := by
  have length : longKey.length = 507 := String.length_ofList.trans List.length_replicate
  have plain : longKey.startsWith "later:" = false := by decide +kernel
  have waiter : (scheduledJobKey longKey).length = 513 := by
    rw [scheduledJobKey, plain, if_neg Bool.false_ne_true, String.length_append, length]
    rfl
  refine ⟨?_, ?_, ?_, ?_, refused_parking (by omega) (by omega) (by omega)⟩
  all_goals decide +kernel

end Jobs
end DotaCollector
